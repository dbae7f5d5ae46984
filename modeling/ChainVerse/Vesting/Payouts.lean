import ChainVerse.Framework.Splits
import ChainVerse.Vesting.Contract
import ChainVerse.Framework.Listings
import ChainVerse.Framework.Simulations
import ChainVerse.Framework.Tables

namespace ChainVerse.AcademyVestingContract

section Schedules

variable {schedule : VestingSchedule} {t t' : U64}

/-- What `grant_vesting` checks of a schedule. -/
structure VestingSchedule.Accepted (schedule : VestingSchedule) : Prop where
  positive : 0 < schedule.amount.val
  cliff : schedule.cliff ≤ schedule.duration

/-- The schedule ends before time does, and the largest product that is ever formed for it fits. -/
structure VestingSchedule.Fits (schedule : VestingSchedule) : Prop where
  ends : (schedule.startTime : Nat) + schedule.duration < 2^64
  product : schedule.amount.val.toNat * (schedule.duration - schedule.cliff - 1 : Nat) < 2^128

/-- A schedule vests at all times, nothing before the cliff and all from the end on, and never less
later on. -/
structure VestingSchedule.Vests (schedule : VestingSchedule) : Prop where
  total : ∀ t, ∃ v, calculateVestedAmount schedule t = .ok v
  before : ∀ t : U64, (t : Nat) < schedule.startTime + schedule.cliff →
    calculateVestedAmount schedule t = .ok 0
  after : ∀ t : U64, (schedule.startTime : Nat) + schedule.duration ≤ t →
    calculateVestedAmount schedule t = .ok schedule.amount.val
  monotone : ∀ t t' v v', t ≤ t' → calculateVestedAmount schedule t = .ok v →
    calculateVestedAmount schedule t' = .ok v' → 0 ≤ v ∧ v ≤ v' ∧ v' ≤ schedule.amount.val

section Calculation

theorem vested_early (h : t < schedule.startTime) : calculateVestedAmount schedule t = .ok 0 :=
  if_pos h

theorem vested_locked (hstart : ¬ t < schedule.startTime)
    (hfits : (schedule.startTime : Nat) + schedule.cliff < 2^64)
    (h : (t : Nat) < schedule.startTime + schedule.cliff) :
    calculateVestedAmount schedule t = .ok 0 := by
  simp only [calculateVestedAmount, if_neg hstart, fitsU, if_pos hfits, orRefuse, ok_bind, if_pos h]
  rfl

theorem vested_fully (hstart : ¬ t < schedule.startTime)
    (hfits : (schedule.startTime : Nat) + schedule.cliff < 2^64)
    (hcliff : ¬ (t : Nat) < schedule.startTime + schedule.cliff)
    (hends : (schedule.startTime : Nat) + schedule.duration < 2^64)
    (h : (schedule.startTime : Nat) + schedule.duration ≤ t) :
    calculateVestedAmount schedule t = .ok schedule.amount.val := by
  simp only [calculateVestedAmount, if_neg hstart, fitsU, if_pos hfits, if_pos hends, orRefuse,
    ok_bind, if_neg hcliff, if_pos h]
  rfl

/-- Between the cliff and the end, the calculation comes to forming a product and dividing it. -/
theorem vested_partly (hstart : ¬ t < schedule.startTime)
    (hcliff : ¬ (t : Nat) < schedule.startTime + schedule.cliff)
    (hends : (schedule.startTime : Nat) + schedule.duration < 2^64)
    (h : ¬ (schedule.startTime : Nat) + schedule.duration ≤ t) :
    calculateVestedAmount schedule t =
      (do
        let product ← orRefuse (fitsU 128
          (asU128 schedule.amount * (t - (schedule.startTime + schedule.cliff : Nat)))) .overflow
        pure (asI128 (product / (schedule.duration - schedule.cliff : Nat)))) := by
  have hfits : (schedule.startTime : Nat) + schedule.cliff < 2^64 := by omega
  have hpassed : (schedule.startTime : Nat) + schedule.cliff ≤ t := by omega
  have hordered : (schedule.cliff : Nat) ≤ schedule.duration := by omega
  have hremaining : (schedule.duration : Nat) - schedule.cliff ≠ 0 := by omega
  simp only [calculateVestedAmount, if_neg hstart, fitsU, if_pos hfits, if_pos hends, orRefuse,
    ok_bind, if_neg hcliff, if_neg h, checkedSub, if_pos hpassed, if_pos hordered, if_neg hremaining]

/-- A schedule that fits vests along a ramp from its cliff to its end. -/
theorem VestingSchedule.Fits.vested (h : schedule.Fits) (ha : schedule.Accepted) (t : U64) :
    calculateVestedAmount schedule t =
      .ok (ramp schedule.amount.val.toNat (schedule.startTime + schedule.cliff : Nat)
        (schedule.startTime + schedule.duration : Nat) t : Nat) := by
  have hends := h.ends
  have hordered : (schedule.cliff : Nat) ≤ schedule.duration := ha.cliff
  have hamount := schedule.amount.property.2
  have hpositive := ha.positive
  have hfits : (schedule.startTime : Nat) + schedule.cliff < 2^64 := by omega
  by_cases hstart : t < schedule.startTime
  · have hearly : (t : Nat) < schedule.startTime := hstart
    rw [vested_early hstart, ramp_before (by omega), Nat.cast_zero]
  by_cases hcliff : (t : Nat) < schedule.startTime + schedule.cliff
  · rw [vested_locked hstart hfits hcliff, ramp_before hcliff, Nat.cast_zero]
  by_cases hover : (schedule.startTime : Nat) + schedule.duration ≤ t
  · rw [vested_fully hstart hfits hcliff hends hover, ramp_after (by omega) hover,
      Int.toNat_of_nonneg hpositive.le]
  · have hproduct : schedule.amount.val.toNat * (t - (schedule.startTime + schedule.cliff) : Nat) <
        2^128 := by
      apply lt_of_le_of_lt _ h.product
      apply Nat.mul_le_mul_left
      omega
    have hquotient : schedule.amount.val.toNat * (t - (schedule.startTime + schedule.cliff) : Nat) /
        (schedule.duration - schedule.cliff) =
        ramp schedule.amount.val.toNat (schedule.startTime + schedule.cliff : Nat)
          (schedule.startTime + schedule.duration : Nat) t := by
      rw [ramp_between (by omega) (by omega), Nat.add_sub_add_left]
    have hbound := ramp_le schedule.amount.val.toNat (schedule.startTime + schedule.cliff : Nat)
      (schedule.startTime + schedule.duration : Nat) t
    rw [vested_partly hstart hcliff hends hover, asU128_of_nonneg hpositive.le, fitsU,
      if_pos hproduct]
    simp only [orRefuse, ok_bind]
    rw [hquotient, asI128_of_lt (by omega)]
    rfl

/-- A schedule that does not fit traps at some time. -/
theorem VestingSchedule.Accepted.traps (ha : schedule.Accepted) (h : ¬ schedule.Fits) :
    ∃ t, calculateVestedAmount schedule t = .error .overflow := by
  have hordered : (schedule.cliff : Nat) ≤ schedule.duration := ha.cliff
  by_cases hends : (schedule.startTime : Nat) + schedule.duration < 2^64
  · have hproduct : 2^128 ≤
        schedule.amount.val.toNat * (schedule.duration - schedule.cliff - 1 : Nat) := by
      by_contra hsmall
      exact h ⟨hends, not_le.mp hsmall⟩
    have hlong : (schedule.duration - schedule.cliff - 1 : Nat) ≠ 0 := by
      intro hzero
      rw [hzero, Nat.mul_zero] at hproduct
      omega
    -- The largest product is formed one second before the end.
    have hlast : (schedule.startTime : Nat) + schedule.duration - 1 < 2^64 := by omega
    refine ⟨⟨schedule.startTime + schedule.duration - 1, hlast⟩, ?_⟩
    have helapsed : (schedule.startTime : Nat) + schedule.duration - 1 -
        (schedule.startTime + schedule.cliff) = schedule.duration - schedule.cliff - 1 := by omega
    rw [vested_partly _ _ hends, asU128_of_nonneg ha.positive.le, fitsU, if_neg]
    · rfl
    · show ¬ _ * ((schedule.startTime : Nat) + schedule.duration - 1 - _) < 2^128
      rw [helapsed]
      exact not_lt.mpr hproduct
    · show ¬ (schedule.startTime : Nat) + schedule.duration ≤ schedule.startTime + schedule.duration - 1
      omega
    · rw [Fin.not_lt, Fin.le_def]
      show (schedule.startTime : Nat) ≤ schedule.startTime + schedule.duration - 1
      omega
    · show ¬ (schedule.startTime : Nat) + schedule.duration - 1 < schedule.startTime + schedule.cliff
      omega
  · by_cases hfits : (schedule.startTime : Nat) + schedule.cliff < 2^64
    · refine ⟨⟨schedule.startTime + schedule.cliff, hfits⟩, ?_⟩
      have hstart : ¬ (⟨schedule.startTime + schedule.cliff, hfits⟩ : U64) < schedule.startTime := by
        rw [Fin.not_lt, Fin.le_def]
        exact Nat.le_add_right _ _
      simp only [calculateVestedAmount, if_neg hstart, fitsU, if_pos hfits, if_neg hends, orRefuse,
        ok_bind, lt_irrefl, if_false, error_bind]
    · have hstart : ¬ schedule.startTime < schedule.startTime := Fin.lt_irrefl _
      refine ⟨schedule.startTime, ?_⟩
      simp only [calculateVestedAmount, if_neg hstart, fitsU, if_neg hfits, orRefuse, error_bind]

/-- An accepted schedule vests as it should exactly when it fits. -/
theorem VestingSchedule.Accepted.vests_iff (ha : schedule.Accepted) :
    schedule.Vests ↔ schedule.Fits := by
  constructor
  · intro hvests
    by_contra hunfit
    obtain ⟨t, htraps⟩ := ha.traps hunfit
    obtain ⟨v, hv⟩ := hvests.total t
    rw [htraps] at hv
    cases hv
  · intro hfits
    have hordered : (schedule.cliff : Nat) ≤ schedule.duration := ha.cliff
    have hcorners : (schedule.startTime : Nat) + schedule.cliff ≤
        schedule.startTime + schedule.duration := Nat.add_le_add_left hordered _
    refine ⟨?_, ?_, ?_, ?_⟩
    · exact fun t => ⟨_, hfits.vested ha t⟩
    · intro t ht
      rw [hfits.vested ha, ramp_before ht, Nat.cast_zero]
    · intro t ht
      rw [hfits.vested ha, ramp_after hcorners ht, Int.toNat_of_nonneg ha.positive.le]
    · intro t t' v v' htt' hv hv'
      rw [hfits.vested ha, Except.ok.injEq] at hv hv'
      have hlater : (t : Nat) ≤ t' := htt'
      have hmonotone := @ramp_monotone schedule.amount.val.toNat _ _ hcorners _ _ hlater
      have hbound := ramp_le schedule.amount.val.toNat (schedule.startTime + schedule.cliff : Nat)
        (schedule.startTime + schedule.duration : Nat) t'
      have hpositive := ha.positive
      rw [← hv, ← hv']
      omega

end Calculation

end Schedules

variable {contract : Address} {env : Env contract} {s s' : State}

/-- An accepted call of a run, with the stores around it. -/
abbrev Step (contract : Address) := Entry State (Input contract) Answer

/-- A schedule as it is granted. -/
def granted (beneficiary : Address) (amount : I128) (startTime cliff duration : U64) :
    VestingSchedule where
  beneficiary := beneficiary
  amount := amount
  startTime := startTime
  cliff := cliff
  duration := duration
  claimed := false
  revoked := false
  revokeTime := 0

/-- A grant that is neither claimed nor revoked. -/
structure VestingSchedule.Standing (schedule : VestingSchedule) : Prop where
  unclaimed : schedule.claimed = false
  unrevoked : schedule.revoked = false

/-- Everything an accepted call can have done, with its answer. -/
inductive Effect (env : Env contract) (s : State) : Call → Answer → State → Prop where
  | setUp {admin rewardToken governance : Address} (fresh : s.initialized = false) :
      Effect env s (.initializeContract admin rewardToken governance) .done
        { s with
          initialized := true
          admin := some admin
          token := some rewardToken
          governance := some governance
          counter := 0 }
  | grant {admin beneficiary : Address} {amount : I128} {startTime cliff duration : U64}
      (appointed : s.admin = some admin)
      (accepted : (granted beneficiary amount startTime cliff duration).Accepted) :
      Effect env s (.grantVesting admin beneficiary amount startTime cliff duration)
        (.granted (s.counter + 1))
        { s with
          counter := s.counter + 1
          schedule := Function.update s.schedule (s.counter + 1)
            (some (granted beneficiary amount startTime cliff duration)) }
  | claim {grantId : Nat} {schedule : VestingSchedule} {token : Address} {amount : Int}
      (found : s.schedule grantId = some schedule) (standing : schedule.Standing)
      (vested : calculateVestedAmount schedule env.now = .ok amount) :
      Effect env s (.claim grantId schedule.beneficiary) (.paid amount)
        { s with
          schedule := Function.update s.schedule grantId (some { schedule with claimed := true })
          tokens := s.tokens.move ⟨token, contract, schedule.beneficiary, amount⟩ }
  | revoke {grantId : Nat} {admin : Address} {revokeDelay : U64} {schedule : VestingSchedule}
      (found : s.schedule grantId = some schedule) (standing : schedule.Standing) :
      Effect env s (.revoke grantId admin revokeDelay) .done
        { s with
          schedule := Function.update s.schedule grantId
            (some { schedule with revoked := true, revokeTime := env.timestamp }) }
  | elsewhere {t : Transfer} (sender : t.sender ≠ contract) :
      Effect env s (.transferElsewhere t) .done { s with tokens := s.tokens.move t }

section Inversion

theorem requireAdmin_ok {admin : Address} {u : Unit} (h : requireAdmin env s admin = .ok u) :
    s.admin = some admin := by
  simp only [requireAdmin, bind_eq_ok, exists_unit, orRefuse_eq_ok, refuseIf_eq_ok, not_not] at h
  obtain ⟨_, _, hstored, rfl⟩ := h
  exact hstored

theorem grantVesting_effect {admin beneficiary : Address} {amount : I128}
    {startTime cliff duration : U64} {grantId : Nat}
    (h : grantVesting env s admin beneficiary amount startTime cliff duration = .ok (grantId, s')) :
    Effect env s (.grantVesting admin beneficiary amount startTime cliff duration)
      (.granted grantId) s' := by
  simp only [grantVesting, bind_eq_ok, refuseIf_eq_ok, exists_unit, orRefuse_eq_ok, fitsU_eq_some,
    pure_eq_ok, Prod.mk.injEq, not_le] at h
  obtain ⟨hadmin, hpositive, hcliff, _, ⟨_, rfl⟩, rfl, rfl⟩ := h
  exact .grant (requireAdmin_ok hadmin) ⟨hpositive, Fin.not_lt.mp hcliff⟩

theorem claim_effect {grantId : Nat} {beneficiary : Address} {amount : Int}
    (h : claim env s grantId beneficiary = .ok (amount, s')) :
    Effect env s (.claim grantId beneficiary) (.paid amount) s' := by
  simp only [claim, bind_eq_ok, refuseIf_eq_ok, exists_unit, orRefuse_eq_ok, requireAuth_eq_ok,
    Tokens.transfer_eq_ok, pure_eq_ok, Prod.mk.injEq, not_not, Bool.not_eq_true] at h
  obtain ⟨_, schedule, hfound, rfl, hunclaimed, hunrevoked, _, hvested, _, token, _, _, _,
    ⟨_, _, _, rfl⟩, rfl, rfl⟩ := h
  exact .claim hfound ⟨hunclaimed, hunrevoked⟩ hvested

theorem revoke_effect {grantId : Nat} {admin : Address} {revokeDelay : U64}
    (h : revoke env s grantId admin revokeDelay = .ok s') :
    Effect env s (.revoke grantId admin revokeDelay) .done s' := by
  simp only [revoke, bind_eq_ok, refuseIf_eq_ok, exists_unit, orRefuse_eq_ok, fitsU_eq_some,
    pure_eq_ok, Bool.not_eq_true] at h
  obtain ⟨_, schedule, hfound, hunclaimed, hunrevoked, _, _, _, _, rfl⟩ := h
  exact .revoke hfound ⟨hunclaimed, hunrevoked⟩

/-- What an accepted entry point has done. -/
theorem step_effect {i : Input contract} {o : Answer}
    (h : (machine contract).step s i = .ok (o, s')) : Effect i.env s i.call o s' := by
  obtain ⟨env, call⟩ := i
  cases call with
  | initializeContract =>
    simp only [machine, execute, map_eq_ok, initializeContract, bind_eq_ok, refuseIf_eq_ok,
      exists_unit, pure_eq_ok, Bool.not_eq_true, Prod.mk.injEq] at h
    obtain ⟨_, ⟨hfresh, rfl⟩, rfl, rfl⟩ := h
    exact .setUp hfresh
  | grantVesting =>
    simp only [machine, execute, map_eq_ok, Prod.map, Prod.mk.injEq, id] at h
    obtain ⟨⟨_, _⟩, hgrant, rfl, rfl⟩ := h
    exact grantVesting_effect hgrant
  | claim =>
    simp only [machine, execute, map_eq_ok, Prod.map, Prod.mk.injEq, id] at h
    obtain ⟨⟨_, _⟩, hclaim, rfl, rfl⟩ := h
    exact claim_effect hclaim
  | revoke =>
    simp only [machine, execute, map_eq_ok, Prod.mk.injEq] at h
    obtain ⟨_, hrevoke, rfl, rfl⟩ := h
    exact revoke_effect hrevoke
  | transferElsewhere =>
    simp only [machine, execute, bind_eq_ok, refuseIf_eq_ok, exists_unit, Tokens.transfer_eq_ok,
      pure_eq_ok, Prod.mk.injEq] at h
    obtain ⟨hsender, _, ⟨_, _, _, rfl⟩, rfl, rfl⟩ := h
    exact .elsewhere hsender

end Inversion

section Payouts

/-- A call that claims or revokes a grant. -/
def settles (grantId : Nat) (e : Step contract) : Bool :=
  match e.input.call with
  | .claim named _ | .revoke named _ _ => named = grantId
  | _ => false

/-- What an accepted call has paid out of the contract. -/
def payouts (e : Step contract) : List Transfer :=
  e.pre.tokens.newFrom contract e.post.tokens

/-- A grant has been claimed or revoked. -/
def State.settled (s : State) (grantId : Nat) : Bool :=
  match s.schedule grantId with
  | some schedule => schedule.claimed || schedule.revoked
  | none => false

/-- The grants after the calls `es`: each has been settled as often as its record says. -/
structure Settled (s : State) (es : List (Step contract)) : Prop where
  appointed : s.initialized = false → s.admin = none ∧ ∀ grantId, s.schedule grantId = none
  bounded : ∀ grantId, s.schedule grantId ≠ none → grantId ≤ s.counter
  once : ∀ grantId, es.countP (settles grantId) = if s.settled grantId then 1 else 0

variable {es : List (Step contract)}

theorem settled_empty {tokens : Tokens} : Settled (State.empty tokens) ([] : List (Step contract)) where
  appointed _ := ⟨rfl, fun _ => rfl⟩
  bounded _ h := absurd rfl h
  once _ := rfl

theorem settled_update {grantId named : Nat} {schedule : VestingSchedule}
    (h : s'.schedule = Function.update s.schedule named (some schedule)) :
    s'.settled grantId =
      if grantId = named then schedule.claimed || schedule.revoked else s.settled grantId := by
  unfold State.settled
  rw [h]
  by_cases hnamed : grantId = named
  · rw [hnamed, Function.update_self, if_pos rfl]
  · rw [Function.update_of_ne hnamed, if_neg hnamed]

/-- A call that settles a standing grant settles it for the first time. -/
theorem Settled.settle (hs : Settled s es) {e : Step contract} {named : Nat}
    {schedule closed : VestingSchedule} (hfound : s.schedule named = some schedule)
    (hstanding : schedule.Standing) (hclosed : (closed.claimed || closed.revoked) = true)
    (hinitialized : s'.initialized = s.initialized) (hcounter : s'.counter = s.counter)
    (hschedule : s'.schedule = Function.update s.schedule named (some closed))
    (hsettles : ∀ grantId, settles grantId e = decide (named = grantId)) :
    Settled s' (es ++ [e]) := by
  refine ⟨?_, ?_, ?_⟩
  · intro hfresh
    rw [hinitialized] at hfresh
    rw [(hs.appointed hfresh).2] at hfound
    cases hfound
  · intro grantId hstored
    rw [hcounter]
    apply hs.bounded grantId
    intro hnone
    by_cases hnamed : grantId = named
    · rw [hnamed, hfound] at hnone
      cases hnone
    · rw [hschedule, Function.update_of_ne hnamed] at hstored
      exact hstored hnone
  · intro grantId
    rw [countP_snoc, hs.once, hsettles, settled_update hschedule]
    by_cases hnamed : grantId = named
    · have hbefore : s.settled named = false := by
        simp [State.settled, hfound, hstanding.unclaimed, hstanding.unrevoked]
      rw [hnamed, hbefore, if_pos rfl, hclosed]
      simp
    · have hother : ¬ named = grantId := fun heq => hnamed heq.symm
      simp [hnamed, hother]

/-- A grant takes an unused id. -/
theorem Settled.grant (hs : Settled s es) {e : Step contract} {admin : Address}
    {schedule : VestingSchedule} (happointed : s.admin = some admin)
    (hopen : (schedule.claimed || schedule.revoked) = false)
    (hinitialized : s'.initialized = s.initialized) (hcounter : s'.counter = s.counter + 1)
    (hschedule : s'.schedule = Function.update s.schedule (s.counter + 1) (some schedule))
    (hsettles : ∀ grantId, settles grantId e = false) : Settled s' (es ++ [e]) := by
  refine ⟨?_, ?_, ?_⟩
  · intro hfresh
    rw [hinitialized] at hfresh
    rw [(hs.appointed hfresh).1] at happointed
    cases happointed
  · intro grantId hstored
    rw [hcounter]
    by_cases hnew : grantId = s.counter + 1
    · exact hnew.le
    · rw [hschedule, Function.update_of_ne hnew] at hstored
      exact Nat.le_succ_of_le (hs.bounded grantId hstored)
  · intro grantId
    have hnone : s.settled (s.counter + 1) = false := by
      have habsent : s.schedule (s.counter + 1) = none := by
        by_contra hstored
        have hold := hs.bounded _ hstored
        omega
      rw [State.settled, habsent]
    rw [countP_snoc, hs.once, hsettles, settled_update hschedule]
    by_cases hnew : grantId = s.counter + 1
    · rw [hnew, hnone, if_pos rfl, hopen]
      rfl
    · rw [if_neg hnew]
      rfl

/-- Every accepted call keeps the record. -/
theorem Effect.settled {i : Input contract} {o : Answer} (h : Effect i.env s i.call o s')
    (hs : Settled s es) : Settled s' (es ++ [⟨s, i, o, s'⟩]) := by
  obtain ⟨env, call⟩ := i
  cases h with
  | setUp hfresh =>
    obtain ⟨_, hnone⟩ := hs.appointed hfresh
    refine ⟨fun h => (nomatch h), ?_, ?_⟩
    · intro grantId hstored
      exact absurd (hnone grantId) hstored
    · intro grantId
      rw [countP_snoc, hs.once]
      rfl
  | grant happointed _ => exact hs.grant happointed rfl rfl rfl rfl fun _ => rfl
  | claim hfound hstanding =>
    exact hs.settle hfound hstanding rfl rfl rfl rfl fun _ => rfl
  | revoke hfound hstanding =>
    refine hs.settle hfound hstanding ?_ rfl rfl rfl fun _ => rfl
    exact Bool.or_true _
  | elsewhere =>
    refine ⟨hs.appointed, hs.bounded, fun grantId => ?_⟩
    rw [countP_snoc, hs.once]
    rfl

theorem run_settled {tokens : Tokens} (is : List (Input contract)) :
    Settled ((machine contract).run (State.empty tokens) is)
      ((machine contract).journal (State.empty tokens) is) :=
  Machine.run_journal_invariant settled_empty
    (fun _ _ _ _ _ hs h => (step_effect h).settled hs) is

/-- A claim pays once, and no other call pays anything. -/
theorem Effect.payouts {i : Input contract} {o : Answer} (h : Effect i.env s i.call o s') :
    ((∃ grantId beneficiary, i.call = .claim grantId beneficiary) ∧
        (payouts (⟨s, i, o, s'⟩ : Step contract)).length = 1) ∨
      payouts (⟨s, i, o, s'⟩ : Step contract) = [] := by
  obtain ⟨env, call⟩ := i
  cases h with
  | claim =>
    refine .inl ⟨⟨_, _, rfl⟩, ?_⟩
    simp [AcademyVestingContract.payouts, Tokens.newFrom_move]
  | elsewhere hsender =>
    refine .inr ?_
    simp [AcademyVestingContract.payouts, Tokens.newFrom_move, hsender]
  | setUp => exact .inr (Tokens.newFrom_self _ _)
  | grant => exact .inr (Tokens.newFrom_self _ _)
  | revoke => exact .inr (Tokens.newFrom_self _ _)

theorem length_flatMap_le_one {α β : Type} {l : List α} {f : α → List β} (hl : l.length ≤ 1)
    (hf : ∀ a ∈ l, (f a).length ≤ 1) : (l.flatMap f).length ≤ 1 := by
  cases l with
  | nil => exact Nat.zero_le 1
  | cons a rest =>
    have hrest : rest = [] := by
      apply List.eq_nil_of_length_eq_zero
      rw [List.length_cons] at hl
      omega
    rw [hrest, List.flatMap_singleton]
    exact hf a List.mem_cons_self

/-- Each grant is settled, and paid out, at most once. -/
theorem length_flatMap_payouts_le {tokens : Tokens} (is : List (Input contract)) (grantId : Nat) :
    ((((machine contract).journal (State.empty tokens) is).filter (settles grantId)).flatMap
      payouts).length ≤ 1 := by
  apply length_flatMap_le_one
  · rw [← List.countP_eq_length_filter, (run_settled is).once]
    split_ifs <;> omega
  · intro e he
    have hstep := (Machine.journal_step (List.mem_of_mem_filter he)).1
    rcases (step_effect hstep).payouts with ⟨_, hone⟩ | hnone
    · exact hone.le
    · rw [hnone]
      exact Nat.zero_le 1

end Payouts

/-- In every run, the schedule of an accepted grant vests as it should, with one payout at most, exactly
when its end and its largest product fit their types. -/
theorem vesting_sound_iff {tokens : Tokens} (is : List (Input contract)) {e : Step contract}
    {admin beneficiary : Address} {amount : I128} {startTime cliff duration : U64}
    (he : e ∈ (machine contract).journal (State.empty tokens) is)
    (hcall : e.input.call = .grantVesting admin beneficiary amount startTime cliff duration) :
    let m := machine contract
    let s₀ := State.empty tokens
    let schedule := granted beneficiary amount startTime cliff duration
    ∃ grantId, e.output = .granted grantId ∧ e.post.schedule grantId = some schedule ∧
      ((schedule.Vests ∧ (m.journal s₀ is).countP (settles grantId) ≤ 1 ∧
          (((m.journal s₀ is).filter (settles grantId)).flatMap payouts).length ≤ 1 ∧
          ∀ e' ∈ m.journal s₀ is, payouts e' ≠ [] →
            ∃ paid claimant, e'.input.call = .claim paid claimant) ↔
        (startTime : Nat) + duration < 2^64 ∧
          amount.val.toNat * (duration - cliff - 1 : Nat) < 2^128) := by
  intro m s₀ schedule
  have heffect := step_effect (Machine.journal_step he).1
  generalize hposted : e.post = posted at heffect ⊢
  generalize hanswer : e.output = answer at heffect ⊢
  rw [hcall] at heffect
  cases heffect with
  | grant _ haccepted =>
    refine ⟨_, rfl, Function.update_self _ _ _, ?_⟩
    constructor
    · intro hsound
      have hfits := haccepted.vests_iff.mp hsound.1
      exact ⟨hfits.ends, hfits.product⟩
    · intro hfits
      refine ⟨haccepted.vests_iff.mpr ⟨hfits.1, hfits.2⟩, ?_, length_flatMap_payouts_le is _, ?_⟩
      · rw [(run_settled is).once]
        split_ifs <;> omega
      · intro e' he' hpaid
        rcases (step_effect (Machine.journal_step he').1).payouts with ⟨hclaim, _⟩ | hnone
        · exact hclaim
        · exact absurd hnone hpaid

section Samples

/-- A grant of 2^126 units over 100 seconds, and a claim after 10 of them. -/
def sampleGrant (amount : I128) : List (Input ⟨0⟩) :=
  [⟨.sample, .initializeContract ⟨1⟩ ⟨9⟩ ⟨2⟩⟩, ⟨.sample, .grantVesting ⟨1⟩ ⟨3⟩ amount 0 0 100⟩,
    ⟨.sample, .claim 1 ⟨3⟩⟩]

/-- Books in which everybody holds 1000. -/
def sampleTokens : Tokens := ⟨fun _ _ => 1000, []⟩

/-- A grant of 50 units fits, and vests as it should. -/
theorem vesting_sound_sample :
    (granted ⟨3⟩ ⟨50, by decide⟩ 0 0 100).Vests ∧
      ((machine ⟨0⟩).journal (State.empty sampleTokens)
        (sampleGrant ⟨50, by decide⟩)).countP (settles 1) = 1 := by
  have hgrant : (machine ⟨0⟩).step
      ((machine ⟨0⟩).run (State.empty sampleTokens) ((sampleGrant ⟨50, by decide⟩).take 1))
      ⟨.sample, .grantVesting ⟨1⟩ ⟨3⟩ ⟨50, by decide⟩ 0 0 100⟩ = .ok (.granted 1, _) := rfl
  obtain ⟨_, _, _, hsound⟩ :=
    vesting_sound_iff (sampleGrant ⟨50, by decide⟩) (Machine.mem_journal hgrant) rfl
  exact ⟨(hsound.mpr ⟨by decide, by decide⟩).1, by decide +kernel⟩

theorem claim_traps :
    (machine ⟨0⟩).verdicts (State.empty sampleTokens) (sampleGrant ⟨2^126, by decide⟩) =
      [none, none, some .overflow] := by
  decide +kernel

end Samples

end ChainVerse.AcademyVestingContract
