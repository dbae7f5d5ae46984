import ChainVerse.Intake.Steps

namespace ChainVerse.ScholarshipApplications

section Scan

variable {A : Type} {pool : List A} {start step : Nat}

/-- What the scan from `start` finds after `step` steps. -/
def candidateAt (pool : List A) (start step : Nat) : Option A := pool[(start + step) % pool.length]?

theorem candidateAt_mem {candidate : A} (h : candidateAt pool start step = some candidate) :
    candidate ∈ pool := List.mem_of_getElem? h

theorem exists_candidateAt (hpool : pool ≠ []) (start step : Nat) :
    ∃ candidate, candidateAt pool start step = some candidate := by
  have hlt := Nat.mod_lt (start + step) (List.length_pos_iff.mpr hpool)
  exact ⟨_, List.getElem?_eq_getElem hlt⟩

/-- One round comes to every position, wherever it starts. -/
theorem exists_step_of_mem {candidate : A} (h : candidate ∈ pool) (start : Nat) :
    ∃ step < pool.length, candidateAt pool start step = some candidate := by
  obtain ⟨i, hi, rfl⟩ := List.getElem_of_mem h
  have hstart := Nat.mod_lt start (Nat.zero_lt_of_lt hi)
  refine ⟨(i + pool.length - start % pool.length) % pool.length,
    Nat.mod_lt _ (Nat.zero_lt_of_lt hi), ?_⟩
  have hposition : (start + (i + pool.length - start % pool.length) % pool.length) % pool.length =
      i := by
    rw [Nat.add_mod_mod, ← Nat.mod_add_mod]
    have hsum : start % pool.length + (i + pool.length - start % pool.length) =
        i + pool.length := by omega
    rw [hsum, Nat.add_mod_right, Nat.mod_eq_of_lt hi]
  rw [candidateAt, hposition]
  exact List.getElem?_eq_getElem hi

end Scan

section Choice

variable {eligible : Address → Bool} {pool : List Address} {start : Nat} {chosen : Address}

/-- The loop chooses the first eligible candidate of its steps, as long as the additions up to it
fit. -/
theorem chooseReviewer_eq_some {steps : List Nat} (hpool : pool ≠ []) :
    chooseReviewer eligible pool start steps = .ok (some chosen) ↔
      ∃ before step after, steps = before ++ step :: after ∧
        (∀ x ∈ before, start + x < 2^64 ∧
          ∀ candidate ∈ candidateAt pool start x, eligible candidate = false) ∧
        start + step < 2^64 ∧ candidateAt pool start step = some chosen ∧ eligible chosen = true := by
  induction steps with
  | nil =>
    constructor
    · intro h
      rw [chooseReviewer, pure_eq_ok] at h
      cases h
    · rintro ⟨before, step, after, hnil, _⟩
      exact absurd hnil.symm (List.append_ne_nil_of_right_ne_nil _ (List.cons_ne_nil _ _))
  | cons first steps ih =>
    simp only [chooseReviewer, bind_eq_ok, orRefuse_eq_ok, fitsU_eq_some]
    constructor
    · rintro ⟨_, ⟨hfits, rfl⟩, candidate, hcandidate, h⟩
      split_ifs at h with heligible
      · cases h
        exact ⟨[], first, steps, rfl, fun _ hx => absurd hx List.not_mem_nil, hfits, hcandidate,
          heligible⟩
      · obtain ⟨before, step, after, rfl, hbefore, hstep⟩ := ih.mp h
        refine ⟨first :: before, step, after, rfl,
          List.forall_mem_cons.mpr ⟨⟨hfits, fun other hother => ?_⟩, hbefore⟩, hstep⟩
        obtain rfl : candidate = other := Option.some.inj (hcandidate.symm.trans hother)
        exact Bool.eq_false_iff.mpr heligible
    · rintro ⟨before, step, after, hsteps, hbefore, hfits, hchosen, heligible⟩
      cases before with
      | nil =>
        obtain ⟨rfl, rfl⟩ := List.cons.inj hsteps
        refine ⟨_, ⟨hfits, rfl⟩, chosen, hchosen, ?_⟩
        rw [if_pos heligible]
        rfl
      | cons x before =>
        obtain ⟨rfl, rfl⟩ := List.cons.inj hsteps
        obtain ⟨⟨hx, hineligible⟩, hbefore⟩ := List.forall_mem_cons.mp hbefore
        obtain ⟨candidate, hcandidate⟩ := exists_candidateAt hpool start first
        refine ⟨_, ⟨hx, rfl⟩, candidate, hcandidate, ?_⟩
        rw [hineligible candidate hcandidate, if_neg Bool.false_ne_true]
        exact ih.mpr ⟨before, step, after, rfl, hbefore, hfits, hchosen, heligible⟩

/-- What comes before a step in a round are the steps below it. -/
theorem range_eq_append_cons {n step : Nat} {before after : List Nat}
    (h : List.range n = before ++ step :: after) : step < n ∧ before = List.range step := by
  rw [List.range_eq_range', List.range'_eq_append_iff] at h
  obtain ⟨k, _, rfl, hrest⟩ := h
  obtain ⟨hk, hpos, _⟩ := List.range'_eq_cons_iff.mp hrest.symm
  obtain rfl : k = step := by omega
  exact ⟨by omega, List.range_eq_range'.symm⟩

theorem range_split {n step : Nat} (h : step < n) :
    ∃ after, List.range n = List.range step ++ step :: after := by
  refine ⟨List.range' (step + 1) (n - step - 1), ?_⟩
  rw [List.range_eq_range', List.range_eq_range', List.range'_eq_append_iff]
  refine ⟨step, h.le, rfl, ?_⟩
  exact (List.range'_eq_cons_iff.mpr ⟨by omega, by omega, rfl⟩).symm

/-- Over a whole round the chosen one is the first eligible candidate. -/
theorem chooseReviewer_round (hpool : pool ≠ []) :
    chooseReviewer eligible pool start (List.range pool.length) = .ok (some chosen) ↔
      ∃ step < pool.length, start + step < 2^64 ∧ candidateAt pool start step = some chosen ∧
        eligible chosen = true ∧
        ∀ x < step, ∀ candidate ∈ candidateAt pool start x, eligible candidate = false := by
  rw [chooseReviewer_eq_some hpool]
  constructor
  · rintro ⟨before, step, after, hrange, hbefore, hfits, hchosen, heligible⟩
    obtain ⟨hstep, rfl⟩ := range_eq_append_cons hrange
    exact ⟨step, hstep, hfits, hchosen, heligible,
      fun x hx => (hbefore x (List.mem_range.mpr hx)).2⟩
  · rintro ⟨step, hstep, hfits, hchosen, heligible, hbefore⟩
    obtain ⟨after, hrange⟩ := range_split hstep
    refine ⟨List.range step, step, after, hrange, ?_, hfits, hchosen, heligible⟩
    intro x hx
    have hlt := List.mem_range.mp hx
    exact ⟨by omega, hbefore x hlt⟩

/-- Somebody is chosen exactly when the additions fit up to an eligible candidate. -/
theorem exists_chooseReviewer (hpool : pool ≠ []) :
    (∃ chosen, chooseReviewer eligible pool start (List.range pool.length) = .ok (some chosen)) ↔
      ∃ step < pool.length, start + step < 2^64 ∧
        ∃ candidate ∈ candidateAt pool start step, eligible candidate = true := by
  simp only [chooseReviewer_round hpool]
  constructor
  · rintro ⟨chosen, step, hstep, hfits, hchosen, heligible, _⟩
    exact ⟨step, hstep, hfits, chosen, hchosen, heligible⟩
  · intro hsome
    -- The first step at which there is an eligible candidate comes no later than the given one.
    obtain ⟨step, hstep, hfits, hcandidate⟩ := hsome
    have hfound : ∃ step, ∃ candidate ∈ candidateAt pool start step, eligible candidate = true :=
      ⟨step, hcandidate⟩
    have hle : Nat.find hfound ≤ step := Nat.find_min' hfound hcandidate
    obtain ⟨chosen, hchosen, heligible⟩ := Nat.find_spec hfound
    refine ⟨chosen, Nat.find hfound, by omega, by omega, hchosen, heligible, ?_⟩
    intro x hx other hother
    have hnone := Nat.find_min hfound hx
    exact Bool.eq_false_iff.mpr fun hother' => hnone ⟨other, hother, hother'⟩

end Choice

variable {contract : Address} {env : Env contract} {s s' : State} {admin chosen : Address}
  {programId applicationCommitment : Bytes32} {mode : AssignmentMode}

section Ranges

/-- The arguments of a call are within the ranges of their types. -/
def Call.InRange : Call → Prop
  | .registerReviewer _ _ maxAssignments => maxAssignments < 2^32
  | .setReviewerPool _ _ reviewers => reviewers.length < 2^32
  | _ => True

/-- The limits, pools and cursors that are stored are within the ranges of their types. -/
structure Ranged (s : State) : Prop where
  limits : ∀ reviewer, ∀ profile ∈ s.reviewer reviewer, profile.maxAssignments < 2^32
  pools : ∀ programId, (s.reviewerPool programId).length < 2^32
  cursors : ∀ programId, s.roundRobinCursor programId < 2^32

theorem ranged_empty : Ranged State.empty where
  limits _ _ h := nomatch h
  pools _ := Nat.two_pow_pos 32
  cursors _ := Nat.two_pow_pos 32

/-- A cursor that is moved is moved within its pool. -/
theorem Pooling.ranged {call : Call} (h : Pooling s call s') (hcall : call.InRange) (hs : Ranged s) :
    (∀ programId, (s'.reviewerPool programId).length < 2^32) ∧
      ∀ programId, s'.roundRobinCursor programId < 2^32 := by
  cases h with
  | kept hpools hcursors =>
    rw [hpools, hcursors]
    exact ⟨hs.pools, hs.cursors⟩
  | set hpools hcursors =>
    rw [hpools, hcursors]
    refine ⟨?_, hs.cursors⟩
    exact (Function.forall_update_iff _ fun _ (pool : List Address) => pool.length < 2^32).mpr
      ⟨hcall, fun other _ => hs.pools other⟩
  | @moved _ _ programId _ hpools hcursors =>
    rw [hpools, hcursors]
    refine ⟨hs.pools, (Function.forall_update_iff _ fun _ cursor => cursor < 2^32).mpr
      ⟨?_, fun other _ => hs.cursors other⟩⟩
    have hlength := hs.pools programId
    exact lt_of_lt_of_le (Nat.mod_lt _ (by omega)) (by omega)

theorem limits_enrolled (hs : Ranged s) {reviewer : Address} {profile : ReviewerProfile}
    (h : profile.maxAssignments < 2^32) (other : Address)
    (row : ReviewerProfile) (hrow : row ∈ Function.update s.reviewer reviewer (some profile) other) :
    row.maxAssignments < 2^32 := by
  rcases update_row_cases hrow with ⟨_, rfl⟩ | ⟨_, hold⟩
  · exact h
  · exact hs.limits other row hold

theorem Effect.ranged {call : Call} {o : Answer} (h : Effect s call o s') (hcall : call.InRange)
    (hs : Ranged s) : Ranged s' := by
  have hkept : SameRoster s s' → Pooling s call s' → Ranged s' := by
    intro hroster hpooling
    obtain ⟨hpools, hcursors⟩ := hpooling.ranged hcall hs
    refine ⟨?_, hpools, hcursors⟩
    rw [hroster.reviewer]
    exact hs.limits
  cases h with
  | quiet _ _ hroster _ hpooling => exact hkept hroster hpooling
  | submitted _ _ hroster _ _ _ _ hpooling => exact hkept hroster hpooling
  | filed _ _ hroster _ _ _ _ _ _ hpooling => exact hkept hroster hpooling
  | denied _ _ hroster _ _ _ _ _ _ hpooling => exact hkept hroster hpooling
  | approved _ _ hroster _ _ _ _ _ _ hpooling => exact hkept hroster hpooling
  | @enrolled _ _ reviewer _ _ _ _ hreviewers _ _ hpooling hlimited =>
    obtain ⟨hpools, hcursors⟩ := hpooling.ranged hcall hs
    refine ⟨?_, hpools, hcursors⟩
    rw [hreviewers]
    apply limits_enrolled hs
    rcases hlimited with ⟨admin, rfl⟩ | ⟨old, hstored, hsame⟩
    · exact hcall
    · rw [hsame]
      exact hs.limits reviewer old hstored
  | assigned _ _ _ heligible hreviewers _ _ hpooling =>
    obtain ⟨hpools, hcursors⟩ := hpooling.ranged hcall hs
    refine ⟨?_, hpools, hcursors⟩
    have hlimit := hs.limits _ _ heligible.registered
    rw [hreviewers]
    exact limits_enrolled hs hlimit

theorem run_ranged {is : List (Input contract)} (h : ∀ i ∈ is, i.call.InRange) :
    Ranged ((machine contract).run State.empty is) :=
  Machine.run_invariant_on (P := fun i => i.call.InRange) ranged_empty
    (fun _ _ _ _ hi hs h => (step_effect h).ranged hi hs) h

end Ranges

section Eligibility

/-- A reviewer of the pool whom an assignment may choose. -/
def MayReview (s : State) (key : Bytes32 × Bytes32) (reviewer : Address) : Prop :=
  ∃ profile, Eligible s key reviewer profile

theorem isEligible_iff {reviewer : Address} (hpooled : reviewer ∈ s.reviewerPool programId) :
    isEligible s programId applicationCommitment reviewer = true ↔
      MayReview s (programId, applicationCommitment) reviewer := by
  constructor
  · exact fun h => isEligible_spec h hpooled
  · rintro ⟨profile, _, hregistered, hactive, hbelow, hunconflicted⟩
    have hfit : ¬ (profile.active = false ∨ profile.maxAssignments ≤ profile.currentAssignments) := by
      rw [hactive, not_or]
      exact ⟨Bool.noConfusion, by omega⟩
    unfold isEligible
    rw [hregistered]
    dsimp only
    rw [if_neg hfit, hunconflicted]
    rfl

theorem isEligible_eq_false_iff {reviewer : Address} (hpooled : reviewer ∈ s.reviewerPool programId) :
    isEligible s programId applicationCommitment reviewer = false ↔
      ¬ MayReview s (programId, applicationCommitment) reviewer := by
  rw [← isEligible_iff hpooled, Bool.not_eq_true]

/-- Some candidate of the scan may review, at a step up to which its position still fits a `u64`. -/
def Met (s : State) (key : Bytes32 × Bytes32) (start : Nat) : Prop :=
  ∃ step < (s.reviewerPool key.1).length, start + step < 2^64 ∧
    ∃ candidate ∈ candidateAt (s.reviewerPool key.1) start step, MayReview s key candidate

theorem exists_chosen_iff {start : Nat} (hpool : s.reviewerPool programId ≠ []) :
    (∃ chosen, chooseReviewer (isEligible s programId applicationCommitment)
      (s.reviewerPool programId) start (List.range (s.reviewerPool programId).length) =
        .ok (some chosen)) ↔ Met s (programId, applicationCommitment) start := by
  rw [exists_chooseReviewer hpool]
  constructor
  · rintro ⟨step, hstep, hfits, candidate, hcandidate, heligible⟩
    exact ⟨step, hstep, hfits, candidate, hcandidate,
      (isEligible_iff (candidateAt_mem hcandidate)).mp heligible⟩
  · rintro ⟨step, hstep, hfits, candidate, hcandidate, hmay⟩
    exact ⟨step, hstep, hfits, candidate, hcandidate,
      (isEligible_iff (candidateAt_mem hcandidate)).mpr hmay⟩

/-- An assignment returns what the loop over the pool has chosen. -/
theorem assignReviewer_chosen
    (h : assignReviewer env s admin programId applicationCommitment mode = .ok (chosen, s')) :
    s.reviewerPool programId ≠ [] ∧
      chooseReviewer (isEligible s programId applicationCommitment) (s.reviewerPool programId)
        (mode.startOffset s programId applicationCommitment)
        (List.range (s.reviewerPool programId).length) = .ok (some chosen) := by
  simp only [assignReviewer, bind_eq_ok, exists_unit, orRefuse_eq_ok, refuseIf_eq_ok] at h
  obtain ⟨_, _, hpool, found, hfound, picked, rfl, profile, _, _, _, h⟩ := h
  refine ⟨hpool, ?_⟩
  cases mode with
  | roundRobin =>
    simp only [bind_eq_ok, pure_eq_ok] at h
    obtain ⟨_, _, heq⟩ := h
    cases heq
    exact hfound
  | loadBalanced =>
    simp only [bind_eq_ok, pure_eq_ok] at h
    obtain ⟨_, _, heq⟩ := h
    cases heq
    exact hfound
  | seededRandom =>
    simp only [pure_eq_ok] at h
    cases h
    exact hfound

/-- What the loop has chosen is assigned: the counts still fit their types. -/
theorem assignReviewer_of_chosen (hs : Ranged s) (hadmin : s.admin = some admin)
    (hsigned : env.signers admin = true)
    (hunassigned : s.assignment (programId, applicationCommitment) = none)
    (hpool : s.reviewerPool programId ≠ [])
    (hchosen : chooseReviewer (isEligible s programId applicationCommitment)
      (s.reviewerPool programId) (mode.startOffset s programId applicationCommitment)
      (List.range (s.reviewerPool programId).length) = .ok (some chosen)) :
    ∃ s', assignReviewer env s admin programId applicationCommitment mode = .ok (chosen, s') := by
  obtain ⟨hpooled, hfit⟩ := chooseReviewer_spec hchosen
  obtain ⟨profile, heligible⟩ := isEligible_spec hfit hpooled
  have hcount : profile.currentAssignments + 1 < 2^32 := by
    have hbelow := heligible.below
    have hlimit := hs.limits chosen profile heligible.registered
    omega
  have hcursor : s.roundRobinCursor programId + 1 < 2^64 := by
    have hlow := hs.cursors programId
    omega
  have hguard : requireReviewAdmin env s admin = .ok () := by
    simp only [requireReviewAdmin, bind_eq_ok, exists_unit, requireAuth_eq_ok, orRefuse_eq_ok,
      refuseIf_eq_ok, not_not]
    exact ⟨hsigned, admin, hadmin, rfl⟩
  simp only [assignReviewer, bind_eq_ok, exists_unit, orRefuse_eq_ok, refuseIf_eq_ok, not_not,
    fitsU_eq_some]
  cases mode with
  | roundRobin =>
    exact ⟨_, hguard, hunassigned, hpool, some chosen, hchosen, chosen, rfl, profile,
      heligible.registered, _, ⟨hcount, rfl⟩,
      bind_eq_ok.mpr ⟨_, orRefuse_eq_ok.mpr (fitsU_eq_some.mpr ⟨hcursor, rfl⟩), rfl⟩⟩
  | loadBalanced =>
    exact ⟨_, hguard, hunassigned, hpool, some chosen, hchosen, chosen, rfl, profile,
      heligible.registered, _, ⟨hcount, rfl⟩,
      bind_eq_ok.mpr ⟨_, orRefuse_eq_ok.mpr (fitsU_eq_some.mpr ⟨hcursor, rfl⟩), rfl⟩⟩
  | seededRandom =>
    exact ⟨_, hguard, hunassigned, hpool, some chosen, hchosen, chosen, rfl, profile,
      heligible.registered, _, ⟨hcount, rfl⟩, rfl⟩

end Eligibility

section Completeness

/-- An assignment is made exactly when somebody may review, and to somebody who may. -/
def Complete (env : Env contract) (s : State) (admin : Address)
    (programId applicationCommitment : Bytes32) (mode : AssignmentMode) : Prop :=
  ((∃ chosen s', assignReviewer env s admin programId applicationCommitment mode =
      .ok (chosen, s')) ↔ ∃ reviewer, MayReview s (programId, applicationCommitment) reviewer) ∧
    ∀ chosen s', assignReviewer env s admin programId applicationCommitment mode =
      .ok (chosen, s') → MayReview s (programId, applicationCommitment) chosen

theorem assigned_iff_met (hs : Ranged s) (hadmin : s.admin = some admin)
    (hsigned : env.signers admin = true)
    (hunassigned : s.assignment (programId, applicationCommitment) = none) :
    (∃ chosen s', assignReviewer env s admin programId applicationCommitment mode =
      .ok (chosen, s')) ↔
      Met s (programId, applicationCommitment)
        (mode.startOffset s programId applicationCommitment) := by
  constructor
  · rintro ⟨chosen, s', h⟩
    obtain ⟨hpool, hchosen⟩ := assignReviewer_chosen h
    exact (exists_chosen_iff hpool).mp ⟨chosen, hchosen⟩
  · intro hmet
    have hpool : s.reviewerPool programId ≠ [] := by
      obtain ⟨step, _, _, candidate, hcandidate, _⟩ := hmet
      exact List.ne_nil_of_mem (candidateAt_mem hcandidate)
    obtain ⟨chosen, hchosen⟩ := (exists_chosen_iff hpool).mpr hmet
    exact ⟨chosen, assignReviewer_of_chosen hs hadmin hsigned hunassigned hpool hchosen⟩

/-- A scan that starts low enough meets everybody who may review. -/
theorem met_of_mayReview {start : Nat} {reviewer : Address}
    (hfits : start + (s.reviewerPool programId).length ≤ 2^64)
    (h : MayReview s (programId, applicationCommitment) reviewer) :
    Met s (programId, applicationCommitment) start := by
  obtain ⟨profile, heligible⟩ := id h
  obtain ⟨step, hstep, hcandidate⟩ := exists_step_of_mem heligible.pooled start
  exact ⟨step, hstep, by dsimp only at hstep; omega, reviewer, hcandidate, h⟩

/-- In every state that calls within the ranges of their types lead to, a call by the admin for an
unassigned application finds a reviewer exactly when there is one, except where it is seeded and the
position overflows before the scan meets somebody who may review. -/
theorem run_complete {is : List (Input contract)} (hrange : ∀ i ∈ is, i.call.InRange)
    (hadmin : ((machine contract).run State.empty is).admin = some admin)
    (hsigned : env.signers admin = true)
    (hunassigned : ((machine contract).run State.empty is).assignment
      (programId, applicationCommitment) = none) :
    let s := (machine contract).run State.empty is
    Complete env s admin programId applicationCommitment mode ↔
      ∀ seed, mode = .seededRandom seed →
        (∃ reviewer, MayReview s (programId, applicationCommitment) reviewer) →
          Met s (programId, applicationCommitment) (seededOffset seed applicationCommitment).val := by
  intro s
  have hs : Ranged s := run_ranged hrange
  have hmet := @assigned_iff_met _ env s admin programId applicationCommitment mode hs hadmin hsigned
    hunassigned
  have hsound : ∀ chosen s', assignReviewer env s admin programId applicationCommitment mode =
      .ok (chosen, s') → MayReview s (programId, applicationCommitment) chosen := by
    intro chosen s' h
    obtain ⟨hpool, hchosen⟩ := assignReviewer_chosen h
    obtain ⟨hpooled, hfit⟩ := chooseReviewer_spec hchosen
    exact isEligible_spec hfit hpooled
  constructor
  · rintro ⟨hcomplete, _⟩ seed rfl hsome
    exact hmet.mp (hcomplete.mpr hsome)
  · intro hseeded
    refine ⟨⟨?_, ?_⟩, hsound⟩
    · rintro ⟨chosen, s', h⟩
      exact ⟨chosen, hsound chosen s' h⟩
    · rintro ⟨reviewer, hmay⟩
      apply hmet.mpr
      have hcursor := hs.cursors programId
      have hlength := hs.pools programId
      cases mode with
      | roundRobin =>
        apply met_of_mayReview _ hmay
        change s.roundRobinCursor programId + _ ≤ _
        omega
      | loadBalanced =>
        apply met_of_mayReview _ hmay
        change s.roundRobinCursor programId + _ ≤ _
        omega
      | seededRandom seed => exact hseeded seed rfl ⟨reviewer, hmay⟩

/-- One reviewer who may review, in a pool with somebody who is not registered. -/
def samplePool : List (Input ⟨0⟩) :=
  [⟨.sample, .initializeContract ⟨1⟩⟩,
    ⟨.sample, .registerReviewer ⟨1⟩ ⟨2⟩ 1⟩,
    ⟨.sample, .setReviewerPool ⟨1⟩ 7 [⟨2⟩, ⟨3⟩]⟩]

theorem run_complete_sample :
    Complete .sample ((machine ⟨0⟩).run State.empty samplePool) ⟨1⟩ 7 0 .roundRobin :=
  (@run_complete _ .sample ⟨1⟩ 7 0 .roundRobin samplePool (by simp [samplePool, Call.InRange])
    (by decide +kernel) (by decide +kernel) (by decide +kernel)).mpr (fun _ h => nomatch h)

/-- A seed whose offset for the commitment is the greatest `u64`: the first candidate is not
registered, and the position of the second one overflows. -/
theorem samplePool_incomplete :
    ¬ Complete .sample ((machine ⟨0⟩).run State.empty samplePool) ⟨1⟩ 7 0
      (.seededRandom 4987519144114984575) := by
  rintro ⟨hcomplete, _⟩
  have hmay : MayReview ((machine ⟨0⟩).run State.empty samplePool) (7, 0) ⟨2⟩ :=
    ⟨⟨true, 1, 0⟩, by decide +kernel, by decide +kernel, rfl, by decide, by decide +kernel⟩
  obtain ⟨chosen, s', h⟩ := hcomplete.mpr ⟨⟨2⟩, hmay⟩
  have hfails : (assignReviewer .sample ((machine ⟨0⟩).run State.empty samplePool) ⟨1⟩ 7 0
      (.seededRandom 4987519144114984575)).toOption.isSome = false := by decide +kernel
  rw [h] at hfails
  cases hfails

end Completeness

section Balance

/-- Whenever a load-balanced assignment is made, it is to one of those with the fewest assignments among
all who may review exactly when each candidate of the scan with more than another one comes after
somebody who may review. -/
theorem run_balances (is : List (Input contract))
    (h : assignReviewer env ((machine contract).run State.empty is) admin programId
      applicationCommitment .loadBalanced = .ok (chosen, s')) :
    let s := (machine contract).run State.empty is
    let key := (programId, applicationCommitment)
    let scanned := candidateAt (s.reviewerPool programId) (s.roundRobinCursor programId)
    (MayReview s key chosen ∧ ∀ reviewer, MayReview s key reviewer → s.load chosen ≤ s.load reviewer) ↔
      ∀ step < (s.reviewerPool programId).length, ∀ candidate ∈ scanned step,
        (∃ reviewer, MayReview s key reviewer ∧ s.load reviewer < s.load candidate) →
        MayReview s key candidate →
          ∃ earlier < step, ∃ other ∈ scanned earlier, MayReview s key other := by
  intro s key scanned
  obtain ⟨hpool, hchosen⟩ := assignReviewer_chosen h
  obtain ⟨first, hfirst, _, hfound, heligible, hearlier⟩ := (chooseReviewer_round hpool).mp hchosen
  have hmay : MayReview s key chosen := (isEligible_iff (candidateAt_mem hfound)).mp heligible
  have hnone : ∀ x < first, ∀ other ∈ scanned x, ¬ MayReview s key other := fun x hx other hother =>
    (isEligible_eq_false_iff (candidateAt_mem hother)).mp (hearlier x hx other hother)
  constructor
  · rintro ⟨_, hleast⟩ step hstep candidate hcandidate ⟨reviewer, hreviewer, hless⟩ hcan
    by_contra hbefore
    push Not at hbefore
    -- Nobody before the candidate may review, so it is the one that has been chosen.
    have hsame : step = first := by
      rcases Nat.lt_trichotomy step first with hlt | heq | hgt
      · exact absurd hcan (hnone step hlt candidate hcandidate)
      · exact heq
      · exact absurd hmay (hbefore first hgt chosen hfound)
    rw [hsame] at hcandidate
    obtain rfl : chosen = candidate := Option.some.inj (hfound.symm.trans hcandidate)
    exact absurd (hleast reviewer hreviewer) (by omega)
  · intro hscan
    refine ⟨hmay, fun reviewer hreviewer => ?_⟩
    by_contra hless
    obtain ⟨x, hx, other, hother, hcan⟩ :=
      hscan first hfirst chosen hfound ⟨reviewer, hreviewer, by omega⟩ hmay
    exact hnone x hx other hother hcan

/-- One reviewer already has an assignment of another program, the other one has none. -/
def sampleLoads : List (Input ⟨0⟩) :=
  [⟨.sample, .initializeContract ⟨1⟩⟩,
    ⟨.sample, .registerReviewer ⟨1⟩ ⟨2⟩ 5⟩,
    ⟨.sample, .registerReviewer ⟨1⟩ ⟨3⟩ 5⟩,
    ⟨.sample, .setReviewerPool ⟨1⟩ 6 [⟨2⟩]⟩,
    ⟨.sample, .setReviewerPool ⟨1⟩ 7 [⟨2⟩, ⟨3⟩]⟩,
    ⟨.sample, .setReviewerPool ⟨1⟩ 8 [⟨3⟩, ⟨2⟩]⟩,
    ⟨.sample, .assignReviewer ⟨1⟩ 6 0 .loadBalanced⟩]

theorem sampleLoads_assigned (programId : Bytes32) (reviewer : Address)
    (h : (assignReviewer .sample ((machine ⟨0⟩).run State.empty sampleLoads) ⟨1⟩ programId 0
      .loadBalanced).toOption.map Prod.fst = some reviewer) :
    ∃ s', assignReviewer .sample ((machine ⟨0⟩).run State.empty sampleLoads) ⟨1⟩ programId 0
      .loadBalanced = .ok (reviewer, s') := by
  obtain ⟨⟨chosen, s'⟩, hok, rfl⟩ := Option.map_eq_some_iff.mp h
  exact ⟨s', toOption_eq_some.mp hok⟩

/-- Where the one without an assignment comes first in the pool, that one is chosen. -/
theorem run_balances_sample :
    ∃ s', assignReviewer .sample ((machine ⟨0⟩).run State.empty sampleLoads) ⟨1⟩ 8 0
        .loadBalanced = .ok (⟨3⟩, s') ∧
      ∀ reviewer, MayReview ((machine ⟨0⟩).run State.empty sampleLoads) (8, 0) reviewer →
        ((machine ⟨0⟩).run State.empty sampleLoads).load ⟨3⟩ ≤
          ((machine ⟨0⟩).run State.empty sampleLoads).load reviewer := by
  obtain ⟨s', h⟩ := sampleLoads_assigned 8 ⟨3⟩ (by decide +kernel)
  have hfirst : MayReview ((machine ⟨0⟩).run State.empty sampleLoads) (8, 0) ⟨3⟩ :=
    ⟨⟨true, 5, 0⟩, by decide +kernel, by decide +kernel, rfl, by decide, by decide +kernel⟩
  have hunloaded : ((machine ⟨0⟩).run State.empty sampleLoads).load ⟨3⟩ = 0 := by decide +kernel
  have hstart : candidateAt (((machine ⟨0⟩).run State.empty sampleLoads).reviewerPool 8)
      (((machine ⟨0⟩).run State.empty sampleLoads).roundRobinCursor 8) 0 = some ⟨3⟩ := by
    decide +kernel
  refine ⟨s', h, ((run_balances sampleLoads h).mpr ?_).2⟩
  intro step _ candidate hcandidate hless _
  rcases Nat.eq_zero_or_pos step with rfl | hpos
  · obtain rfl : ⟨3⟩ = candidate := Option.some.inj (hstart.symm.trans hcandidate)
    obtain ⟨reviewer, _, hlt⟩ := hless
    exact absurd (hunloaded ▸ hlt) (Nat.not_lt_zero _)
  · exact ⟨0, hpos, ⟨3⟩, hstart, hfirst⟩

/-- Where the one with an assignment comes first, that one is chosen although the other may review. -/
theorem sampleLoads_unbalanced :
    ¬ ∀ chosen s', assignReviewer .sample ((machine ⟨0⟩).run State.empty sampleLoads) ⟨1⟩ 7 0
        .loadBalanced = .ok (chosen, s') →
      MayReview ((machine ⟨0⟩).run State.empty sampleLoads) (7, 0) chosen ∧
        ∀ reviewer, MayReview ((machine ⟨0⟩).run State.empty sampleLoads) (7, 0) reviewer →
          ((machine ⟨0⟩).run State.empty sampleLoads).load chosen ≤
            ((machine ⟨0⟩).run State.empty sampleLoads).load reviewer := by
  intro hleast
  obtain ⟨s', h⟩ := sampleLoads_assigned 7 ⟨2⟩ (by decide +kernel)
  have hother : MayReview ((machine ⟨0⟩).run State.empty sampleLoads) (7, 0) ⟨3⟩ :=
    ⟨⟨true, 5, 0⟩, by decide +kernel, by decide +kernel, rfl, by decide, by decide +kernel⟩
  have hle := (hleast ⟨2⟩ s' h).2 ⟨3⟩ hother
  exact absurd hle (by decide +kernel)

end Balance

end ChainVerse.ScholarshipApplications
