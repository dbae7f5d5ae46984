import ChainVerse.Framework.Listings
import ChainVerse.Framework.Tables
import ChainVerse.Intake.Steps

namespace ChainVerse.ScholarshipApplications

variable {contract : Address} {env : Env contract} {s s' : State} {call : Call} {o : Answer}
  {es : List (Step contract)} {key : Bytes32 × Bytes32} {reviewer : Address}

section Loads

/-- The assignments that name a reviewer. -/
def State.caseload (s : State) (reviewer : Address) : Set (Bytes32 × Bytes32) :=
  {key | s.assignment key = some reviewer}

theorem finite_caseload (s : State) (reviewer : Address) : (s.caseload reviewer).Finite := by
  have hall := (finite_bytes32 Set.univ).prod (finite_bytes32 Set.univ)
  exact hall.subset fun key _ => ⟨Set.mem_univ key.1, Set.mem_univ key.2⟩

/-- The profiles show the assignments that there are. -/
def Loaded (s : State) : Prop := ∀ reviewer, s.load reviewer = (s.caseload reviewer).ncard

theorem loaded_empty : Loaded State.empty := by
  intro reviewer
  have hnone : State.empty.caseload reviewer = ∅ := by
    apply Set.eq_empty_of_forall_notMem
    intro key hkey
    cases hkey
  rw [hnone, Set.ncard_empty]
  rfl

/-- A profile that is written over shows on its own reviewer alone. -/
theorem load_update {written : Address} {profile : ReviewerProfile}
    (h : s'.reviewer = Function.update s.reviewer written (some profile)) (reviewer : Address) :
    s'.load reviewer = if reviewer = written then profile.currentAssignments else s.load reviewer := by
  unfold State.load
  rw [h]
  split_ifs with hsame
  · rw [hsame, Function.update_self]
    rfl
  · rw [Function.update_of_ne hsame]

/-- An assignment to nobody's application goes on the caseload of the one that is chosen. -/
theorem caseload_update {chosen : Address} (hunassigned : s.assignment key = none)
    (h : s'.assignment = Function.update s.assignment key (some chosen)) (reviewer : Address) :
    (s'.caseload reviewer).ncard =
      (s.caseload reviewer).ncard + if reviewer = chosen then 1 else 0 := by
  have hmoved := ncard_update_row (p := fun row => row = some reviewer)
    (finite_caseload s reviewer) key (some chosen)
  rw [hunassigned, if_neg (Option.some_ne_none reviewer).symm, Nat.add_zero] at hmoved
  unfold State.caseload
  rw [h, hmoved]
  simp only [Option.some.injEq, eq_comm]

theorem Effect.loaded (h : Effect s call o s') (hs : Loaded s) : Loaded s' := by
  have hkept : ∀ {t : State}, SameRoster s t → Loaded t := by
    intro t hroster reviewer
    unfold State.load State.caseload
    rw [hroster.reviewer, hroster.assignment]
    exact hs reviewer
  cases h with
  | quiet _ _ hroster => exact hkept hroster
  | submitted _ _ hroster => exact hkept hroster
  | filed _ _ hroster => exact hkept hroster
  | denied _ _ hroster => exact hkept hroster
  | approved _ _ hroster => exact hkept hroster
  | enrolled _ _ hcarried hreviewers hassignments =>
    intro reviewer
    have hcaseload : s'.caseload reviewer = s.caseload reviewer := by
      unfold State.caseload
      rw [hassignments]
    rw [load_update hreviewers, hcaseload, ← hs reviewer]
    split_ifs with hsame
    · rw [hsame]
      exact hcarried
    · rfl
  | @assigned _ key chosen profile _ _ hunassigned heligible hreviewers hassignments =>
    intro reviewer
    have hcurrent : s.load chosen = profile.currentAssignments := by
      unfold State.load
      rw [heligible.registered]
      rfl
    rw [load_update hreviewers, caseload_update hunassigned hassignments, ← hs reviewer]
    split_ifs with hsame
    · rw [hsame, hcurrent]
    · rfl

theorem run_loaded (is : List (Input contract)) : Loaded ((machine contract).run State.empty is) :=
  Machine.run_invariant loaded_empty (fun _ _ _ _ hs h => (step_effect h).loaded hs) is

end Loads

section Assignments

/-- An assignment stays as it is. -/
theorem Effect.assignment (h : Effect s call o s') (hstored : s.assignment key = some reviewer) :
    s'.assignment key = some reviewer := by
  cases h with
  | quiet _ _ hroster => rwa [hroster.assignment]
  | submitted _ _ hroster => rwa [hroster.assignment]
  | filed _ _ hroster => rwa [hroster.assignment]
  | denied _ _ hroster => rwa [hroster.assignment]
  | approved _ _ hroster => rwa [hroster.assignment]
  | enrolled _ _ _ _ hassignments => rwa [hassignments]
  | assigned _ _ hunassigned _ _ hassignments =>
    rw [hassignments]
    exact update_keeps_row hunassigned hstored

theorem run_assignment (is later : List (Input contract))
    (hstored : ((machine contract).run State.empty is).assignment key = some reviewer) :
    ((machine contract).run State.empty (is ++ later)).assignment key = some reviewer := by
  rw [Machine.run_append]
  exact @Machine.run_invariant _ _ _ _ (machine contract) (fun t => t.assignment key = some reviewer)
    _ hstored (fun _ _ _ _ hs h => (step_effect h).assignment hs) later

/-- The call of a line gives the application to the reviewer, who is eligible at the time. -/
def Assigns (key : Bytes32 × Bytes32) (reviewer : Address) (e : Step contract) : Prop :=
  e.input.call.assigns = some key ∧ e.output = .reviewer reviewer ∧
    ∃ profile, Eligible e.pre key reviewer profile

/-- A new assignment is made by the call. -/
theorem Effect.assigns {i : Input contract} (h : Effect s i.call o s')
    (hbefore : s.assignment key = none) (hafter : s'.assignment key = some reviewer) :
    Assigns key reviewer (⟨s, i, o, s'⟩ : Step contract) := by
  have hkept : s'.assignment = s.assignment → False := by
    intro hsame
    rw [hsame, hbefore] at hafter
    cases hafter
  generalize hcall : i.call = call at h
  cases h with
  | quiet _ _ hroster => exact (hkept hroster.assignment).elim
  | submitted _ _ hroster => exact (hkept hroster.assignment).elim
  | filed _ _ hroster => exact (hkept hroster.assignment).elim
  | denied _ _ hroster => exact (hkept hroster.assignment).elim
  | approved _ _ hroster => exact (hkept hroster.assignment).elim
  | enrolled _ _ _ _ hassignments => exact (hkept hassignments).elim
  | @assigned _ written chosen profile hassigns _ _ heligible _ hassignments =>
    rw [hassignments] at hafter
    rcases update_row_cases hafter with ⟨rfl, rfl⟩ | ⟨_, hold⟩
    · refine ⟨?_, rfl, profile, heligible⟩
      rw [hcall]
      exact hassigns
    · rw [hbefore] at hold
      cases hold

/-- An application that has a reviewer is never given one again. -/
theorem Effect.unassigned (h : Effect s call o s') (hassigns : call.assigns = some key) :
    s.assignment key = none ∧ s'.assignment key ≠ none := by
  have hnone : call.assigns ≠ none := by
    rw [hassigns]
    exact Option.some_ne_none _
  cases h with
  | quiet h => exact absurd h hnone
  | enrolled h => exact absurd h hnone
  | submitted h => exact absurd h hnone
  | filed h => exact absurd h hnone
  | denied h => exact absurd h hnone
  | approved h => exact absurd h hnone
  | @assigned _ written chosen _ hwritten _ hunassigned _ _ hassignments =>
    obtain rfl : written = key := Option.some.inj (hwritten.symm.trans hassigns)
    refine ⟨hunassigned, ?_⟩
    rw [hassignments, Function.update_self]
    exact Option.some_ne_none chosen

theorem run_assigns (is : List (Input contract)) :
    ∀ key reviewer, ((machine contract).run State.empty is).assignment key = some reviewer →
      ∃ e ∈ (machine contract).journal State.empty is, Assigns key reviewer e := by
  refine @Machine.run_journal_invariant _ _ _ _ (machine contract)
    (fun t es => ∀ key reviewer, t.assignment key = some reviewer → ∃ e ∈ es, Assigns key reviewer e)
    State.empty ?_ ?_ is
  · intro key reviewer hnone
    cases hnone
  · intro es s i o s' hs h key reviewer hafter
    have heffect := step_effect h
    rcases hbefore : s.assignment key with _ | known
    · exact ⟨_, List.mem_append_right es (List.mem_singleton_self _), heffect.assigns hbefore hafter⟩
    · have hkept := heffect.assignment hbefore
      obtain rfl : known = reviewer := Option.some.inj (hkept.symm.trans hafter)
      obtain ⟨e, he, hassigns⟩ := hs key known hbefore
      exact ⟨e, List.mem_append_left _ he, hassigns⟩

/-- An application has been given a reviewer once if it has one, and otherwise never. -/
theorem run_assignments (is : List (Input contract)) (key : Bytes32 × Bytes32) :
    ((machine contract).journal State.empty is).countP (fun e => e.input.call.assigns = some key) =
      if ((machine contract).run State.empty is).assignment key = none then 0 else 1 := by
  refine @Machine.run_journal_invariant _ _ _ _ (machine contract)
    (fun t es => es.countP (fun e => e.input.call.assigns = some key) =
      if t.assignment key = none then 0 else 1) State.empty rfl ?_ is
  intro es s i o s' hs h
  have heffect := step_effect h
  rw [countP_snoc, hs]
  by_cases hassigns : i.call.assigns = some key
  · obtain ⟨hbefore, hafter⟩ := heffect.unassigned hassigns
    simp [hassigns, hbefore, hafter]
  · have hsame : s'.assignment key = none ↔ s.assignment key = none := by
      constructor
      · intro hnone
        rcases hbefore : s.assignment key with _ | known
        · rfl
        · exact absurd ((heffect.assignment hbefore).symm.trans hnone) (Option.some_ne_none known)
      · intro hbefore
        by_contra hsome
        obtain ⟨chosen, hafter⟩ := Option.ne_none_iff_exists'.mp hsome
        exact hassigns (heffect.assigns hbefore hafter).1
    simp [hassigns, hsame]

end Assignments

/-- Whatever reviewers are registered, switched off or moved between pools, the number on a profile is
that of the assignments to the reviewer. An application is given a reviewer at most once and keeps it,
and at the time the reviewer is in the pool, active, below the limit and without a conflict. -/
theorem run_workload (is : List (Input contract)) :
    let s := (machine contract).run State.empty is
    let es := (machine contract).journal State.empty is
    (∀ reviewer, s.load reviewer = (s.caseload reviewer).ncard) ∧
      (∀ key, es.countP (fun e => e.input.call.assigns = some key) ≤ 1) ∧
      (∀ key reviewer, s.assignment key = some reviewer → ∃ e ∈ es, Assigns key reviewer e) ∧
      ∀ key reviewer later, s.assignment key = some reviewer →
        ((machine contract).run State.empty (is ++ later)).assignment key = some reviewer := by
  intro s es
  refine ⟨run_loaded is, ?_, run_assigns is, fun key reviewer later => run_assignment is later⟩
  intro key
  rw [run_assignments]
  split_ifs <;> decide

end ChainVerse.ScholarshipApplications
