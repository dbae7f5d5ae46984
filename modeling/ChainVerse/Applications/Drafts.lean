import ChainVerse.Applications.Steps

namespace ChainVerse.MentorshipApplicationsContract

variable {contract : Address} {env : Env contract} {s s' : State} {key : Address × Bytes32}
  {es : List (Step contract)}

section Changes

/-- The draft that a save or discard is about, with the revision that the call carries. -/
def Call.base : Call → Option ((Address × Bytes32) × Nat)
  | .autosaveDraft applicant programId base _ _ => some ((applicant, programId), base)
  | .discardDraft applicant programId expected => some ((applicant, programId), expected)
  | _ => none

/-- Whether a save was a retry, which changes nothing. -/
def Reply.isReplay : Reply → Bool
  | .receipt answer => answer.replayed
  | _ => false

/-- An accepted call is a successful save or discard of a draft. -/
def Changes (key : Address × Bytes32) (e : Step contract) : Prop :=
  e.input.call.base.map Prod.fst = some key ∧ e.output.isReplay = false

instance (e : Step contract) : Decidable (Changes key e) := inferInstanceAs (Decidable (_ ∧ _))

/-- A call is a signed `discard_draft` of a stored draft under its stored revision. -/
def Discards (key : Address × Bytes32) (s : State) (i : Input contract) : Prop :=
  ∃ draft, s.draft key = some draft ∧ i.call = .discardDraft key.1 key.2 draft.revision ∧
    i.env.signers key.1 = true

end Changes

/-- What has become of a draft that a client read in revision `base`: it has been submitted, or each
change since has been a save and has raised its revision by one. -/
def Tracked (key : Address × Bytes32) (base : Nat) (s : State) (es : List (Step contract)) : Prop :=
  (s.applicationByApplicant key ≠ none ∧ s.draft key = none) ∨
    s.revision key = base + es.countP fun e => Changes key e

section Tracking

variable {base : Nat} {i : Input contract} {o : Reply}

theorem base_eq_none {call : Call} (h : (call.isAdministrative || call.isRepeatable) = true) :
    call.base = none := by
  cases call with
  | autosaveDraft => cases h
  | discardDraft => cases h
  | _ => rfl

/-- A call that leaves the draft keeps track of it. -/
theorem Tracked.leave (hs : Tracked key base s es) {e : Step contract}
    (hdraft : s'.draft key = s.draft key)
    (happlication : s.applicationByApplicant key ≠ none → s'.applicationByApplicant key ≠ none)
    (hunchanged : ¬ Changes key e) : Tracked key base s' (es ++ [e]) := by
  rcases hs with ⟨happlied, hnone⟩ | hrevision
  · exact .inl ⟨happlication happlied, hdraft.trans hnone⟩
  · right
    have hsame : s'.revision key = s.revision key := by rw [State.revision, State.revision, hdraft]
    rw [hsame, hrevision, List.countP_append, List.countP_singleton]
    simp [hunchanged]

/-- A save raises the revision by one. -/
theorem Tracked.save (hs : Tracked key base s es) {e : Step contract}
    (habsent : s.applicationByApplicant key = none)
    (hrevision : s'.revision key = s.revision key + 1) (hchanges : Changes key e) :
    Tracked key base s' (es ++ [e]) := by
  right
  rcases hs with ⟨happlied, _⟩ | hcounted
  · exact absurd habsent happlied
  · rw [hrevision, hcounted, List.countP_append, List.countP_singleton, add_assoc]
    simp [hchanges]

theorem not_changes {e : Step contract} (h : e.input.call.base = none) : ¬ Changes key e := by
  intro hchanges
  have hbase := hchanges.1
  rw [h] at hbase
  cases hbase

/-- Every call but a discard of the draft keeps track of it. -/
theorem Effect.tracked (h : Effect i.env s i.call o s') (hs : Tracked key base s es)
    (hkept : ¬ Discards key s i) : Tracked key base s' (es ++ [⟨s, i, o, s'⟩]) := by
  obtain ⟨env, call⟩ := i
  cases h with
  | configure hcall => exact hs.leave rfl id (not_changes (base_eq_none (by simp [hcall])))
  | replay =>
    apply hs.leave rfl id
    intro hchanges
    cases hchanges.2
  | @save applicant programId _ named _ draft habsent hcurrent hnext =>
    by_cases hkey : (applicant, programId) = key
    · rw [hkey] at habsent hcurrent
      refine hs.save habsent ?_ ⟨congrArg some hkey, rfl⟩
      rw [hcurrent, hkey, State.revision]
      dsimp only
      rw [Function.update_self, Option.elim_some, hnext]
    · refine hs.leave ?_ id ?_
      · exact Function.update_of_ne (Ne.symm hkey) _ _
      · intro hchanges
        exact hkey (Option.some.inj hchanges.1)
  | @discard applicant programId draft hfound hsigned =>
    by_cases hkey : (applicant, programId) = key
    · rw [← hkey] at hkept
      exact absurd ⟨draft, hfound, rfl, hsigned⟩ hkept
    · refine hs.leave ?_ id ?_
      · exact Function.update_of_ne (Ne.symm hkey) _ _
      · intro hchanges
        exact hkey (Option.some.inj hchanges.1)
  | @submit applicant programId =>
    by_cases hkey : (applicant, programId) = key
    · left
      simp [hkey]
    · refine hs.leave ?_ ?_ (not_changes rfl)
      · exact Function.update_of_ne (Ne.symm hkey) _ _
      · intro happlied
        dsimp only
        rwa [Function.update_of_ne (Ne.symm hkey)]
  | grant => exact hs.leave rfl id (not_changes rfl)
  | revoke => exact hs.leave rfl id (not_changes rfl)
  | idle hcall => exact hs.leave rfl id (not_changes (base_eq_none (by simp [hcall])))
  | prioritize => exact hs.leave rfl id (not_changes rfl)
  | assign => exact hs.leave rfl id (not_changes rfl)
  | declare => exact hs.leave rfl id (not_changes rfl)
  | decide => exact hs.leave rfl id (not_changes rfl)

theorem discards_step (h : Discards key s i) :
    ∃ s', (machine contract).step s i = .ok (.done, s') := by
  obtain ⟨env, call⟩ := i
  obtain ⟨draft, hfound, hcall, hsigned⟩ := h
  dsimp only at hcall hsigned
  have hok := discardDraft_ok.mpr ⟨draft, hfound, rfl, hsigned, rfl⟩
  rw [hcall]
  simp only [machine, execute, hok]
  exact ⟨_, rfl⟩

/-- As long as nobody discards the draft, a client keeps track of it. -/
theorem run_tracked (is : List (Input contract))
    (hkept : ∀ x ∈ (machine contract).journal s is, ¬ Discards key x.pre x.input) :
    Tracked key (s.revision key) ((machine contract).run s is)
      ((machine contract).journal s is) := by
  let P (t : State) (es : List (Step contract)) : Prop :=
    (∀ x ∈ es, ¬ Discards key x.pre x.input) → Tracked key (s.revision key) t es
  have hstart : P s [] := fun _ => .inr rfl
  have hstep : ∀ es t (i : Input contract) o t', P t es →
      (machine contract).step t i = .ok (o, t') → P t' (es ++ [⟨t, i, o, t'⟩]) := by
    intro es t i o t' ht h hkept
    have hlast := hkept _ List.mem_concat_self
    exact (step_effect h).tracked (ht fun x hx => hkept x (List.mem_append_left _ hx)) hlast
  exact Machine.run_journal_invariant hstart hstep is hkept

/-- A save or discard finds the draft in the revision that it carries, before any submission. -/
theorem Effect.current (h : Effect i.env s i.call o s') (hanswer : o.isReplay = false)
    (hbase : i.call.base = some (key, base)) (hs : Tracked key base s es) :
    es.countP (fun e => Changes key e) = 0 := by
  obtain ⟨env, call⟩ := i
  have hcounted : s.revision key = base →
      (s.applicationByApplicant key = none ∨ s.draft key ≠ none) →
      es.countP (fun e => Changes key e) = 0 := by
    intro hrevision hopen
    rcases hs with ⟨happlied, hnone⟩ | hcounted
    · rcases hopen with habsent | hstored
      · exact absurd habsent happlied
      · exact absurd hnone hstored
    · omega
  cases h with
  | configure hcall =>
    rw [base_eq_none (by simp [hcall])] at hbase
    cases hbase
  | replay => cases hanswer
  | save habsent hcurrent =>
    rw [Call.base, Option.some.injEq, Prod.mk.injEq] at hbase
    obtain ⟨rfl, rfl⟩ := hbase
    exact hcounted hcurrent (.inl habsent)
  | @discard applicant programId draft hfound =>
    rw [Call.base, Option.some.injEq, Prod.mk.injEq] at hbase
    obtain ⟨rfl, rfl⟩ := hbase
    refine hcounted ?_ (.inr ?_)
    · rw [State.revision, hfound, Option.elim_some]
    · rw [hfound]
      exact Option.some_ne_none draft
  | submit => cases hbase
  | grant => cases hbase
  | revoke => cases hbase
  | idle hcall =>
    rw [base_eq_none (by simp [hcall])] at hbase
    cases hbase
  | prioritize => cases hbase
  | assign => cases hbase
  | declare => cases hbase
  | decide => cases hbase

end Tracking

/-- A client reads a revision, other calls follow, and then its own save or discard with that revision
succeeds: the draft has not changed in between exactly when nobody has discarded it in between. -/
theorem saves_unchanged_iff (key : Address × Bytes32) (before between : List (Input contract))
    (last : Input contract) :
    let m := machine contract
    let s := m.run State.empty before
    ∀ e ∈ m.journal (m.run s between) [last], e.output.isReplay = false →
      e.input.call.base = some (key, s.revision key) →
      ((∀ x ∈ m.journal s between, ¬ Changes key x) ↔
        ∀ earlier i later, between = earlier ++ i :: later →
          ¬ Discards key (m.run s earlier) i) := by
  intro m s e he hanswer hbase
  constructor
  · intro hunchanged earlier i later hsplit hdiscards
    obtain ⟨s', hstep⟩ := discards_step hdiscards
    obtain ⟨draft, _, hcall, _⟩ := hdiscards
    have hline : ⟨m.run s earlier, i, .done, s'⟩ ∈ m.journal s (earlier ++ i :: later) :=
      Machine.mem_journal hstep
    rw [← hsplit] at hline
    apply hunchanged _ hline
    refine ⟨?_, rfl⟩
    simp [hcall, Call.base]
  · intro hkept x hx
    have hjournal : ∀ x ∈ m.journal s between, ¬ Discards key x.pre x.input := by
      intro x hx
      obtain ⟨_, earlier, ⟨later, hsplit⟩, hpre⟩ := Machine.journal_prefix hx
      rw [hpre]
      apply hkept earlier x.input later
      rw [← hsplit, List.append_assoc, List.singleton_append]
    have htracked := run_tracked between hjournal
    rw [← (Machine.journal_singleton he).1] at htracked
    have hcount := (step_effect (Machine.journal_prefix he).1).current hanswer hbase htracked
    simpa using List.countP_eq_zero.mp hcount x hx

section Samples

/-- A first draft of an applicant. -/
def sampleSetup : List (Input ⟨0⟩) := sampleProgram ++ [⟨.sample, .autosaveDraft ⟨2⟩ 5 0 21 []⟩]

def sampleSave : Input ⟨0⟩ := ⟨.sampleLater, .autosaveDraft ⟨2⟩ 5 1 24 [⟨1, some 9⟩]⟩

/-- Another client discards the draft and begins anew, which the first client does not notice. -/
theorem stale_save_accepted :
    let m := machine ⟨0⟩
    let s := m.run State.empty sampleSetup
    let others : List (Input ⟨0⟩) :=
      [⟨.sampleLater, .discardDraft ⟨2⟩ 5 1⟩, ⟨.sampleLater, .autosaveDraft ⟨2⟩ 5 0 23 [⟨1, some 7⟩]⟩]
    ∃ e ∈ m.journal (m.run s others) [sampleSave], e.output.isReplay = false ∧
      e.input.call.base = some ((⟨2⟩, 5), s.revision (⟨2⟩, 5)) ∧
      ∃ x ∈ m.journal s others, Changes (⟨2⟩, 5) x := by
  decide +kernel

theorem saves_unchanged_iff_sample :
    let m := machine ⟨0⟩
    let s := m.run State.empty sampleSetup
    let others : List (Input ⟨0⟩) := [⟨.sampleLater, .autosaveDraft ⟨3⟩ 5 0 23 []⟩]
    (∃ e ∈ m.journal (m.run s others) [sampleSave], e.output.isReplay = false) ∧
      ∀ x ∈ m.journal s others, ¬ Changes (⟨2⟩, 5) x := by
  intro m s others
  have haccepted : ∃ e ∈ m.journal (m.run s others) [sampleSave], e.output.isReplay = false ∧
      e.input.call.base = some ((⟨2⟩, 5), s.revision (⟨2⟩, 5)) := by decide +kernel
  obtain ⟨e, he, hanswer, hbase⟩ := haccepted
  refine ⟨⟨e, he, hanswer⟩, ?_⟩
  apply (saves_unchanged_iff (⟨2⟩, 5) sampleSetup others sampleSave e he hanswer hbase).mpr
  intro earlier i later hsplit hdiscards
  obtain ⟨draft, _, hcall, _⟩ := hdiscards
  have hi : i ∈ others := hsplit ▸ List.mem_append_right earlier List.mem_cons_self
  rw [List.mem_singleton.mp hi] at hcall
  cases hcall

end Samples

end ChainVerse.MentorshipApplicationsContract
