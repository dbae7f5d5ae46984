import ChainVerse.Programs.Contract
import Mathlib.Data.List.Nodup

namespace ChainVerse.ScholarshipPrograms

variable {contract : Address} {env : Env contract} {s s' : State} {call : Call} {programId : Bytes32}
  {row row' : Option AwardBudget} {budget : AwardBudget}

/-- An accepted call of a run, with the stores around it. -/
abbrev Step (contract : Address) := Entry State (Input contract) Answer

/-- The program whose budget a call changes. -/
def Call.changes : Call → Option Bytes32
  | .configureAwardBudget _ programId _ _ _ _ => some programId
  | .reserveAward _ programId => some programId
  | .releaseAward _ programId => some programId
  | _ => none

/-- The version that a configuration of the program's budget expects. -/
def Call.expects (programId : Bytes32) : Call → Option Nat
  | .configureAwardBudget _ configured expectedVersion _ _ _ =>
    if configured = programId then some expectedVersion else none
  | _ => none

def versionOf (row : Option AwardBudget) : Nat := (row.map AwardBudget.version).getD 0

section Moves

/-- A budget that covers every award it has room for. -/
structure AwardBudget.Balanced (budget : AwardBudget) : Prop where
  committed : budget.committedAmount = budget.awardedCount * budget.perAwardAmount
  capacity : budget.awardedCount ≤ budget.maxRecipients
  covered : budget.maxRecipients * budget.perAwardAmount ≤ budget.totalBudget
  positive : 0 < budget.perAwardAmount
  fits : budget.totalBudget < 2^127

def AwardBudget.reserve (budget : AwardBudget) : AwardBudget :=
  { budget with
    awardedCount := budget.awardedCount + 1
    committedAmount := budget.committedAmount + budget.perAwardAmount
    version := budget.version + 1 }

def AwardBudget.release (budget : AwardBudget) : AwardBudget :=
  { budget with
    awardedCount := budget.awardedCount - 1
    committedAmount := budget.committedAmount - budget.perAwardAmount
    version := budget.version + 1 }

/-- What an accepted call can do to one program's budget. -/
inductive BudgetMove (call : Call) (programId : Bytes32) :
    Option AwardBudget → Option AwardBudget → Prop where
  | kept (row : Option AwardBudget) (unchanged : call.changes ≠ some programId)
      (unconfigured : call.expects programId = none) : BudgetMove call programId row row
  | configured (row : Option AwardBudget) (written : AwardBudget)
      (changed : call.changes = some programId)
      (expected : call.expects programId = some (versionOf row)) (balanced : written.Balanced)
      (version : written.version = versionOf row + 1) : BudgetMove call programId row (some written)
  | reserved (budget : AwardBudget) (changed : call.changes = some programId)
      (unconfigured : call.expects programId = none)
      (room : budget.awardedCount < budget.maxRecipients) :
      BudgetMove call programId (some budget) (some budget.reserve)
  | released (budget : AwardBudget) (changed : call.changes = some programId)
      (unconfigured : call.expects programId = none) (held : budget.awardedCount ≠ 0) :
      BudgetMove call programId (some budget) (some budget.release)

/-- A call on one program leaves the budgets of the others. -/
theorem BudgetMove.write {changed : Bytes32} {written : AwardBudget} (hchanges : call.changes = some changed)
    (hothers : ∀ other, other ≠ changed → call.expects other = none)
    (hmove : BudgetMove call changed (s.budget changed) (some written)) (programId : Bytes32) :
    BudgetMove call programId (s.budget programId) ((saveBudget s changed written).budget programId) := by
  by_cases hsame : programId = changed
  · subst hsame
    have hwritten : (saveBudget s programId written).budget programId = some written :=
      Function.update_self _ _ _
    rwa [hwritten]
  · have hkept : (saveBudget s changed written).budget programId = s.budget programId :=
      Function.update_of_ne hsame _ _
    rw [hkept]
    refine .kept _ ?_ (hothers programId hsame)
    rw [hchanges]
    intro heq
    cases heq
    exact hsame rfl

theorem configureAwardBudget_ok {admin : Address} {expectedVersion : Nat} {maxRecipients : U32}
    {perAwardAmount totalBudget : I128}
    (h : configureAwardBudget env s admin programId expectedVersion maxRecipients perAwardAmount
      totalBudget = .ok s') :
    expectedVersion = versionOf (s.budget programId) ∧
      ∃ written, s' = saveBudget s programId written ∧ written.Balanced ∧
        written.version = versionOf (s.budget programId) + 1 := by
  simp only [configureAwardBudget, bind_eq_ok, exists_unit, orRefuse_eq_ok, refuseIf_eq_ok,
    fitsU_eq_some, fitsI128_eq_some, pure_eq_ok, not_not, not_or, not_lt, not_le] at h
  obtain ⟨_, hexpected, _, ⟨_, rfl⟩, ⟨_, hpositive, _⟩, _, ⟨_, rfl⟩, hcovers, _, rfl⟩ := h
  refine ⟨hexpected, _, rfl, ?_, rfl⟩
  exact ⟨(Int.zero_mul _).symm, Nat.zero_le _, hcovers, hpositive, totalBudget.property.2⟩

theorem reserveAward_ok {admin : Address} {count : Nat}
    (h : reserveAward env s admin programId = .ok (count, s')) :
    ∃ budget, s.budget programId = some budget ∧ budget.awardedCount < budget.maxRecipients ∧
      s' = saveBudget s programId budget.reserve ∧ count = budget.reserve.awardedCount := by
  simp only [reserveAward, getAwardBudget, bind_eq_ok, exists_unit, orRefuse_eq_ok, refuseIf_eq_ok,
    fitsU_eq_some, fitsI128_eq_some, pure_eq_ok, Prod.mk.injEq, not_lt, not_le] at h
  obtain ⟨_, budget, hstored, hroom, _, ⟨_, rfl⟩, _, _, ⟨_, rfl⟩, _, ⟨_, rfl⟩, rfl, rfl⟩ := h
  exact ⟨budget, hstored, hroom, rfl, rfl⟩

theorem releaseAward_ok {admin : Address} (h : releaseAward env s admin programId = .ok s') :
    ∃ budget, s.budget programId = some budget ∧ budget.awardedCount ≠ 0 ∧
      s' = saveBudget s programId budget.release := by
  simp only [releaseAward, getAwardBudget, bind_eq_ok, exists_unit, orRefuse_eq_ok, refuseIf_eq_ok,
    fitsU_eq_some, fitsI128_eq_some, checkedSub_eq_some, pure_eq_ok] at h
  obtain ⟨_, budget, hstored, hheld, _, ⟨_, rfl⟩, _, ⟨_, rfl⟩, _, ⟨_, rfl⟩, rfl⟩ := h
  exact ⟨budget, hstored, hheld, rfl⟩

/-- Every accepted call makes one of the moves on each program. -/
theorem step_move {i : Input contract} {o : Answer} (h : (machine contract).step s i = .ok (o, s'))
    (programId : Bytes32) : BudgetMove i.call programId (s.budget programId) (s'.budget programId) := by
  obtain ⟨env, call⟩ := i
  simp only [machine] at h
  cases call with
  | initializeContract =>
    simp only [execute, initializeContract, map_eq_ok, bind_eq_ok, exists_unit, pure_eq_ok,
      Prod.mk.injEq] at h
    obtain ⟨_, ⟨_, _, rfl⟩, _, rfl⟩ := h
    exact .kept _ (by simp [Call.changes]) rfl
  | setProgramWindow =>
    simp only [execute, setProgramWindow, map_eq_ok, bind_eq_ok, exists_unit, pure_eq_ok] at h
    obtain ⟨_, ⟨_, _, _, _, _, _, _, rfl⟩, heq⟩ := h
    cases heq
    exact .kept _ (by simp [Call.changes]) rfl
  | configureAwardBudget admin changed expectedVersion maxRecipients perAwardAmount totalBudget =>
    simp only [execute, map_eq_ok, Prod.mk.injEq] at h
    obtain ⟨_, hconfigure, _, rfl⟩ := h
    obtain ⟨hexpected, written, rfl, hbalanced, hversion⟩ := configureAwardBudget_ok hconfigure
    refine BudgetMove.write rfl ?_ ?_ programId
    · intro other hother
      exact if_neg fun heq => hother heq.symm
    · refine .configured _ written rfl ?_ hbalanced hversion
      rw [← hexpected]
      exact if_pos rfl
  | reserveAward admin changed =>
    simp only [execute, map_eq_ok] at h
    obtain ⟨⟨count, t⟩, hreserve, heq⟩ := h
    cases heq
    obtain ⟨budget, hstored, hroom, rfl, _⟩ := reserveAward_ok hreserve
    refine BudgetMove.write rfl (fun _ _ => rfl) ?_ programId
    rw [hstored]
    exact .reserved budget rfl rfl hroom
  | releaseAward admin changed =>
    simp only [execute, map_eq_ok, Prod.mk.injEq] at h
    obtain ⟨_, hrelease, _, rfl⟩ := h
    obtain ⟨budget, hstored, hheld, rfl⟩ := releaseAward_ok hrelease
    refine BudgetMove.write rfl (fun _ _ => rfl) ?_ programId
    rw [hstored]
    exact .released budget rfl rfl hheld

end Moves

section Balance

theorem AwardBudget.Balanced.reserve (h : budget.Balanced)
    (hroom : budget.awardedCount < budget.maxRecipients) : budget.reserve.Balanced where
  committed := by
    have hcommitted := h.committed
    simp only [AwardBudget.reserve, Nat.cast_add, Nat.cast_one, add_mul, one_mul, hcommitted]
  capacity := hroom
  covered := h.covered
  positive := h.positive
  fits := h.fits

theorem AwardBudget.Balanced.release (h : budget.Balanced) (hheld : budget.awardedCount ≠ 0) :
    budget.release.Balanced where
  committed := by
    have hcommitted := h.committed
    have hcount : ((budget.awardedCount - 1 : Nat) : Int) = budget.awardedCount - 1 := by omega
    simp only [AwardBudget.release, hcount, sub_mul, one_mul, hcommitted]
  capacity := Nat.le_trans (Nat.sub_le _ 1) h.capacity
  covered := h.covered
  positive := h.positive
  fits := h.fits

/-- What the counted awards come to is within the budget, and so is one more where there is room. -/
theorem AwardBudget.Balanced.within (h : budget.Balanced) : budget.committedAmount ≤ budget.totalBudget := by
  have hcounted : (budget.awardedCount : Int) ≤ budget.maxRecipients := Int.ofNat_le.mpr h.capacity
  calc budget.committedAmount
      = budget.awardedCount * budget.perAwardAmount := h.committed
    _ ≤ budget.maxRecipients * budget.perAwardAmount :=
        Int.mul_le_mul_of_nonneg_right hcounted h.positive.le
    _ ≤ budget.totalBudget := h.covered

/-- The awards that are reserved cover the release of one. -/
theorem AwardBudget.Balanced.returnable (h : budget.Balanced) (hheld : budget.awardedCount ≠ 0) :
    budget.perAwardAmount ≤ budget.committedAmount := by
  have hone : (1 : Int) ≤ budget.awardedCount := by omega
  rw [h.committed]
  exact le_mul_of_one_le_left h.positive.le hone

theorem BudgetMove.balanced (h : BudgetMove call programId row row')
    (hrow : ∀ budget, row = some budget → budget.Balanced) :
    ∀ budget, row' = some budget → budget.Balanced := by
  intro budget hbudget
  cases h with
  | kept => exact hrow budget hbudget
  | configured _ written _ _ hbalanced =>
    cases hbudget
    exact hbalanced
  | reserved stored _ _ hroom =>
    cases hbudget
    exact (hrow stored rfl).reserve hroom
  | released stored _ _ hheld =>
    cases hbudget
    exact (hrow stored rfl).release hheld

theorem run_balanced (is : List (Input contract)) (programId : Bytes32) {budget : AwardBudget}
    (h : ((machine contract).run State.empty is).budget programId = some budget) : budget.Balanced := by
  have hrows : ∀ budget, ((machine contract).run State.empty is).budget programId = some budget →
      budget.Balanced := by
    refine @Machine.run_invariant _ _ _ _ (machine contract)
      (fun t => ∀ budget, t.budget programId = some budget → budget.Balanced) State.empty ?_ ?_ is
    · intro budget hnone
      cases hnone
    · exact fun s i o s' hs hstep => (step_move hstep programId).balanced hs
  exact hrows budget h

/-- A budget with room for another award can pay it. -/
theorem reserveAward_within (hstored : ∀ budget, s.budget programId = some budget → budget.Balanced)
    (env : Env contract) (admin : Address) :
    reserveAward env s admin programId ≠ .error (.err .budgetExceeded) := by
  intro h
  simp only [reserveAward, requireAdmin, getAwardBudget, bind_eq_error, bind_eq_ok, exists_unit,
    orRefuse_eq_error, orRefuse_eq_ok, refuseIf_eq_error, refuseIf_eq_ok, requireAuth_eq_error,
    requireAuth_eq_ok, pure_ne_error, fitsI128_eq_some, not_le, reduceCtorEq, and_false, false_or,
    or_false, exists_false, Abort.err.injEq] at h
  obtain ⟨_, budget, hfound, hroom, hexceeded⟩ := h
  have hbalanced := (hstored budget hfound).reserve hroom
  have hwithin : budget.committedAmount + budget.perAwardAmount ≤ budget.totalBudget := hbalanced.within
  have hfits := hbalanced.fits
  have hpositive := hbalanced.positive
  have hreturnable := hbalanced.returnable (Nat.succ_ne_zero _)
  simp only [AwardBudget.reserve] at hfits hpositive hreturnable
  rcases hexceeded with ⟨hnone, _⟩ | ⟨_, ⟨_, rfl⟩, hover, _⟩
  · have hin : -2^127 ≤ budget.committedAmount + budget.perAwardAmount ∧
        budget.committedAmount + budget.perAwardAmount < 2^127 := by omega
    rw [fitsI128, if_pos hin] at hnone
    cases hnone
  · omega

/-- A reserved award can be released. -/
theorem releaseAward_covered (hbalanced : budget.Balanced) (hfound : s.budget programId = some budget)
    (hheld : budget.awardedCount ≠ 0) (env : Env contract) (admin : Address) :
    releaseAward env s admin programId ≠ .error (.err .noAwardsReserved) := by
  intro h
  simp only [releaseAward, requireAdmin, getAwardBudget, bind_eq_error, bind_eq_ok, exists_unit,
    orRefuse_eq_error, orRefuse_eq_ok, refuseIf_eq_error, refuseIf_eq_ok, requireAuth_eq_error,
    requireAuth_eq_ok, pure_ne_error, hfound, Option.some.injEq, checkedSub_eq_some, fitsI128_eq_some,
    reduceCtorEq, and_false, and_true, false_or, or_false, exists_false, exists_eq_left',
    Abort.err.injEq] at h
  obtain ⟨_, hzero | ⟨_, hcount | ⟨_, _, hamount⟩⟩⟩ := h
  · exact hheld hzero
  · rw [checkedSub, if_pos (Nat.one_le_iff_ne_zero.mpr hheld)] at hcount
    cases hcount
  · have hreturnable := hbalanced.returnable hheld
    have hwithin := hbalanced.within
    have hfits := hbalanced.fits
    have hpositive := hbalanced.positive
    have hin : -2^127 ≤ budget.committedAmount - budget.perAwardAmount ∧
        budget.committedAmount - budget.perAwardAmount < 2^127 := by omega
    rw [fitsI128, if_pos hin] at hamount
    cases hamount

end Balance

section Versions

theorem BudgetMove.version (h : BudgetMove call programId row row') :
    versionOf row' = versionOf row + if call.changes = some programId then 1 else 0 := by
  cases h with
  | kept _ hunchanged => rw [if_neg hunchanged, Nat.add_zero]
  | configured _ written hchanged _ _ hversion =>
    rw [if_pos hchanged]
    exact hversion
  | reserved budget hchanged =>
    rw [if_pos hchanged]
    rfl
  | released budget hchanged =>
    rw [if_pos hchanged]
    rfl

/-- A configuration expects the version that it finds, and moves it on. -/
theorem BudgetMove.expects (h : BudgetMove call programId row row') {v : Nat}
    (hexpects : call.expects programId = some v) : v = versionOf row ∧ versionOf row' = v + 1 := by
  cases h with
  | kept _ _ hnone =>
    rw [hnone] at hexpects
    cases hexpects
  | configured _ written _ hexpected _ hversion =>
    rw [hexpected, Option.some.injEq] at hexpects
    subst hexpects
    exact ⟨rfl, hversion⟩
  | reserved _ _ hnone =>
    rw [hnone] at hexpects
    cases hexpects
  | released _ _ hnone =>
    rw [hnone] at hexpects
    cases hexpects

/-- The versions that the configurations of a program expect. -/
def expected (programId : Bytes32) (es : List (Step contract)) : List Nat :=
  es.filterMap fun e => e.input.call.expects programId

theorem expected_snoc (es : List (Step contract)) (e : Step contract) :
    expected programId (es ++ [e]) = expected programId es ++ (e.input.call.expects programId).toList := by
  rw [expected, List.filterMap_append]
  cases h : e.input.call.expects programId <;> simp [expected, h]

/-- The versions that configurations have expected are different ones, all passed by now. -/
theorem run_expected (is : List (Input contract)) (programId : Bytes32) :
    (expected programId ((machine contract).journal State.empty is)).Nodup ∧
      ∀ v ∈ expected programId ((machine contract).journal State.empty is),
        v < versionOf (((machine contract).run State.empty is).budget programId) := by
  refine @Machine.run_journal_invariant _ _ _ _ (machine contract)
    (fun t es => (expected programId es).Nodup ∧ ∀ v ∈ expected programId es,
      v < versionOf (t.budget programId)) State.empty ?_ ?_ is
  · exact ⟨List.nodup_nil, fun v hv => absurd hv List.not_mem_nil⟩
  · intro es s i o s' h hstep
    obtain ⟨hnodup, hpassed⟩ := h
    have hmove := step_move hstep programId
    rw [expected_snoc]
    rcases hexpects : i.call.expects programId with _ | v
    · rw [Option.toList_none, List.append_nil]
      refine ⟨hnodup, fun w hw => Nat.lt_of_lt_of_le (hpassed w hw) ?_⟩
      rw [hmove.version]
      exact Nat.le_add_right _ _
    · obtain ⟨hv, hnext⟩ := hmove.expects hexpects
      rw [Option.toList_some]
      constructor
      · refine List.Nodup.append hnodup (List.nodup_singleton v) (List.disjoint_singleton.mpr ?_)
        intro hmem
        have hlt := hpassed v hmem
        omega
      · intro w hw
        rcases List.mem_append.mp hw with hold | hnew
        · have hlt := hpassed w hold
          omega
        · rw [List.mem_singleton.mp hnew]
          omega

/-- In every state that any calls lead to, the committed amount of a program is what its awards come to,
within its recipients and its budget: a reservation is never turned down for the budget, and an award
that is reserved can be released. Every change of a budget moves its version on by one, and no two
accepted configurations expect the same version. -/
theorem run_inventory (is : List (Input contract)) :
    let s := (machine contract).run State.empty is
    let es := (machine contract).journal State.empty is
    (∀ programId budget, s.budget programId = some budget →
        budget.committedAmount = budget.awardedCount * budget.perAwardAmount ∧
          budget.awardedCount ≤ budget.maxRecipients ∧
          budget.committedAmount ≤ budget.totalBudget) ∧
      (∀ (env : Env contract) admin programId,
        reserveAward env s admin programId ≠ .error (.err .budgetExceeded)) ∧
      (∀ programId budget, s.budget programId = some budget → budget.awardedCount ≠ 0 →
        1 ≤ budget.awardedCount ∧ budget.perAwardAmount ≤ budget.committedAmount ∧
          ∀ (env : Env contract) admin,
            releaseAward env s admin programId ≠ .error (.err .noAwardsReserved)) ∧
      (∀ e ∈ es, ∀ programId, versionOf (e.post.budget programId) =
        versionOf (e.pre.budget programId) +
          if e.input.call.changes = some programId then 1 else 0) ∧
      ∀ programId, (expected programId es).Nodup := by
  intro s es
  refine ⟨?_, ?_, ?_, ?_, ?_⟩
  · intro programId budget hstored
    have hbalanced := run_balanced is programId hstored
    exact ⟨hbalanced.committed, hbalanced.capacity, hbalanced.within⟩
  · intro env admin programId
    exact reserveAward_within (fun _ => run_balanced is programId) env admin
  · intro programId budget hstored hheld
    have hbalanced := run_balanced is programId hstored
    exact ⟨Nat.one_le_iff_ne_zero.mpr hheld, hbalanced.returnable hheld,
      releaseAward_covered hbalanced hstored hheld⟩
  · intro e he programId
    exact (step_move (Machine.journal_step he).1 programId).version
  · exact fun programId => (run_expected is programId).1

end Versions

end ChainVerse.ScholarshipPrograms
