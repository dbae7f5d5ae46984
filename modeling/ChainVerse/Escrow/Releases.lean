import ChainVerse.Escrow.Conservation
import ChainVerse.Framework.Splits
import ChainVerse.Escrow.Solvency

namespace ChainVerse.EscrowContract

section Parts

variable {contract : Address}

/-- What is not settled still holds something. -/
def Outstanding (s : State) : Prop :=
  ∀ id e, s.escrow id = some e → e.status ≠ .completed → e.status ≠ .cancelled → 0 < e.amount

/-- The part of escrow `id` that a step releases. -/
def Step.part (id : Nat) (x : Step contract) : Option Int :=
  match x.input with
  | .invoke _ (.partialRelease _ named part) => if named = id then some part else none
  | .invoke _ (.releaseEscrow _ named) =>
    if named = id then (x.pre.escrow id).map (·.amount) else none
  | _ => none

/-- The parts of escrow `id` that a journal releases. -/
def parts (id : Nat) (es : List (Step contract)) : List Int := es.filterMap (Step.part id)

/-- A step on escrow `id` releases a part of it, at the rate `bps`. -/
def Step.SplitsAt (id bps : Nat) (x : Step contract) : Prop :=
  ∀ env call, x.input = .invoke env call → call.escrowId = some id →
    (x.part id).isSome ∧ getProtocolFeeBps x.pre = bps

section Fees

theorem computeFeeAndPayout_fee {amount fee payout : Int} {bps : Nat}
    (h : computeFeeAndPayout amount bps = .ok (fee, payout)) : fee = floorShare bps 10000 amount := by
  simp only [computeFeeAndPayout, bind_eq_ok, refuseIf_eq_ok, orRefuse_eq_ok, fitsU_eq_some,
    checkedSub_eq_some, pure_eq_ok, exists_unit, Prod.mk.injEq] at h
  obtain ⟨hnonneg, product, ⟨_, rfl⟩, left, _, rfl, _⟩ := h
  have hamount : ((amount.toNat : Nat) : Int) = amount := Int.toNat_of_nonneg (not_lt.mp hnonneg)
  unfold floorShare
  push_cast
  rw [hamount]

end Fees

section Steps

variable {env : Env contract} {s s' : State} {call : Call} {id bps : Nat} {x : Step contract}

theorem Change.outstanding {e e' : Escrow} {ts : List Transfer} {fee : Int} {records : List FeeRecord}
    (h : Change env s call id e e' ts fee records) (hs : Outstanding s) (hrow : s.escrow id = some e)
    (hcompleted : e'.status ≠ .completed) (hcancelled : e'.status ≠ .cancelled) : 0 < e'.amount := by
  have hbefore := hs id e hrow
  cases h with
  | fund _ hstatus => simpa [hstatus] using hbefore
  | dispute _ hstatus => simpa [hstatus] using hbefore
  | release | resolve => exact absurd rfl hcompleted
  | refund => exact absurd rfl hcancelled
  | partialRelease _ _ _ _ _ hcovered =>
    dsimp only at hcompleted ⊢
    split_ifs at hcompleted with hzero
    · exact absurd rfl hcompleted
    · omega

theorem step_outstanding {i : Input contract} {o : Option Nat} (hs : Outstanding s)
    (h : (machine contract).step s i = .ok (o, s')) : Outstanding s' := by
  intro id e hrow hcompleted hcancelled
  cases i with
  | drift move =>
    rw [step_drift h] at hrow
    exact hs id e hrow hcompleted hcancelled
  | invoke env call =>
    cases (step_invoke h).row id with
    | same hsame =>
      rw [hsame] at hrow
      exact hs id e hrow hcompleted hcancelled
    | opened hopened _ _ _ _ hpositive =>
      cases hopened.symm.trans hrow
      exact hpositive
    | changed hold hchange hpost =>
      rw [hpost, State.change_escrow, Function.update_self, Option.some.injEq] at hrow
      subst hrow
      exact hchange.outstanding hs hold hcompleted hcancelled

theorem run_outstanding (tokens : Tokens) (is : List (Input contract)) :
    Outstanding ((machine contract).run (State.empty tokens) is) := by
  apply Machine.run_invariant
  · intro id e hrow
    cases hrow
  · intro s i o s' hs h
    exact step_outstanding hs h

/-- What a step has done that releases a part. -/
structure Step.Released (id bps : Nat) (x : Step contract) (e : Escrow) (part : Int) : Prop where
  named : x.part id = some part
  funded : e.status = .funded
  positive : 0 < part
  covered : part ≤ e.amount
  fee : x.feeAccrued id = floorShare bps 10000 part
  payout : 0 ≤ x.paidTo Escrow.seller id
  split : x.paidTo Escrow.seller id + x.feeAccrued id = part
  row : x.post.escrow id = some { e with
    amount := e.amount - part, status := if e.amount - part = 0 then .completed else .funded }

theorem released_of_change {e e' : Escrow} {part payout fee volume : Int} {records : List FeeRecord}
    {o : Option Nat} (hrow : s.escrow id = some e) (hnamed : call.escrowId = some id)
    (hpart : Step.part id ⟨s, .invoke env call, o, s'⟩ = some part) (hfunded : e.status = .funded)
    (hpositive : 0 < part) (hcovered : part ≤ e.amount)
    (hpost : s' = s.change id e e' [⟨e.token, contract, e.seller, payout⟩] fee records volume)
    (hafter : e' = { e with
      amount := e.amount - part, status := if e.amount - part = 0 then .completed else .funded })
    (hsplit : computeFeeAndPayout part bps = .ok (fee, payout)) :
    Step.Released id bps ⟨s, .invoke env call, o, s'⟩ e part := by
  obtain ⟨_, _, hpayout, hsum⟩ := computeFeeAndPayout_split hsplit
  have hfee : Step.feeAccrued id ⟨s, .invoke env call, o, s'⟩ = fee := by
    rw [Step.feeAccrued, Step.onEscrow_named _ rfl hnamed hrow]
    dsimp only
    rw [hpost, State.change_fees, if_pos rfl]
    omega
  have hpaid : Step.paidTo Escrow.seller id ⟨s, .invoke env call, o, s'⟩ = payout := by
    rw [Step.paidTo, Step.onEscrow_named _ rfl hnamed hrow]
    simp [Step.transfers, hpost, Tokens.paid]
  refine ⟨hpart, hfunded, hpositive, hcovered, ?_, ?_, ?_, ?_⟩
  · rw [hfee, computeFeeAndPayout_fee hsplit]
  · rw [hpaid]
    exact hpayout
  · rw [hpaid, hfee]
    omega
  · rw [← hafter]
    dsimp only
    rw [hpost, State.change_escrow, Function.update_self]

/-- A step that splits an escrow releases a part of it, or leaves it alone. -/
theorem step_part (hs : Proper x.pre) (hopen : Outstanding x.pre)
    (h : (machine contract).step x.pre x.input = .ok (x.output, x.post)) {e : Escrow}
    (hrow : x.pre.escrow id = some e) (hsplits : x.SplitsAt id bps) :
    (∃ part, x.Released id bps e part) ∨
      x.part id = none ∧ x.post.escrow id = some e ∧ x.feeAccrued id = 0 := by
  obtain ⟨s, i, o, s'⟩ := x
  dsimp only at h hs hopen hrow ⊢
  cases i with
  | drift move => exact .inr ⟨rfl, by rw [step_drift h]; exact hrow, rfl⟩
  | invoke env call =>
    cases (step_invoke h).row id with
    | same hsame hother =>
      refine .inr ⟨?_, hsame.trans hrow, Step.onEscrow_other _ rfl hother⟩
      cases call <;> simp_all [Step.part, Call.escrowId]
    | opened _ hnew =>
      rw [hs.fresh hnew] at hrow
      cases hrow
    | @changed _ e' ts fee records volume hold hchange hpost =>
      obtain rfl : _ = e := Option.some.inj (hold.symm.trans hrow)
      obtain ⟨hpart, hrate⟩ := hsplits env call rfl hchange.escrowId_eq
      have hnamed := hchange.escrowId_eq
      left
      cases hchange with
      | release _ _ hfunded _ hsplit =>
        rw [hrate] at hsplit
        refine ⟨_, released_of_change hrow rfl ?_ hfunded ?_ le_rfl hpost ?_ hsplit⟩
        · simp [Step.part, hrow]
        · exact hopen id _ hrow (by simp [hfunded]) (by simp [hfunded])
        · simp
      | partialRelease _ _ hfunded _ hpositive hcovered hsplit =>
        rw [hrate] at hsplit
        refine ⟨_, released_of_change hrow rfl ?_ hfunded hpositive hcovered hpost ?_ hsplit⟩
        · simp [Step.part]
        · rw [hfunded]
      | _ => simp [Step.part] at hpart

end Steps

section Runs

variable {s s' : State} {id bps : Nat} {e : Escrow} {es : List (Step contract)}

theorem parts_snoc (id : Nat) (es : List (Step contract)) (x : Step contract) :
    parts id (es ++ [x]) = parts id es ++ (x.part id).toList := by
  rw [parts, List.filterMap_append]
  cases hpart : x.part id with
  | none => simp [parts, hpart]
  | some part => simp [parts, hpart]

/-- What remains of an escrow of which parts have been released, and the fees on them. -/
structure Parted (id bps : Nat) (e : Escrow) (s : State) (es : List (Step contract)) : Prop where
  proper : Proper s
  outstanding : Outstanding s
  row : ∃ left status, s.escrow id = some { e with amount := left, status } ∧
    left = e.amount - (parts id es).sum ∧ 0 ≤ left ∧ status = if left = 0 then .completed else .funded
  fees : (es.map (Step.feeAccrued id)).sum = ((parts id es).map (floorShare bps 10000)).sum
  paid : ∀ x ∈ es, ∀ part, x.part id = some part →
    0 < part ∧ 0 ≤ x.paidTo Escrow.seller id ∧ x.paidTo Escrow.seller id + x.feeAccrued id = part

theorem parted_start (hs : Proper s) (hopen : Outstanding s) (hrow : s.escrow id = some e)
    (hfunded : e.status = .funded) : Parted id bps e s ([] : List (Step contract)) where
  proper := hs
  outstanding := hopen
  row := by
    have hpositive : 0 < e.amount := hopen id e hrow (by simp [hfunded]) (by simp [hfunded])
    refine ⟨e.amount, e.status, hrow, ?_, hpositive.le, ?_⟩
    · simp [parts]
    · rw [if_neg hpositive.ne', hfunded]
  fees := rfl
  paid x hx := by cases hx

theorem step_parted {i : Input contract} {o : Option Nat} (hs : Parted id bps e s es)
    (hsplits : Step.SplitsAt id bps ⟨s, i, o, s'⟩) (h : (machine contract).step s i = .ok (o, s')) :
    Parted id bps e s' (es ++ [⟨s, i, o, s'⟩]) := by
  obtain ⟨left, status, hrow, hleft, hnonneg, hstatus⟩ := hs.row
  have hstep := step_part (x := ⟨s, i, o, s'⟩) hs.proper hs.outstanding h hrow hsplits
  have hfees : ∀ x : Step contract, ((es ++ [x]).map (Step.feeAccrued id)).sum =
      (es.map (Step.feeAccrued id)).sum + x.feeAccrued id := by
    simp
  refine ⟨step_proper hs.proper h, step_outstanding hs.outstanding h, ?_, ?_, ?_⟩
  · rw [parts_snoc]
    rcases hstep with ⟨part, hreleased⟩ | ⟨hnone, hsame, _⟩
    · have hcovered := hreleased.covered
      refine ⟨left - part, _, hreleased.row, ?_, ?_, rfl⟩
      · rw [hreleased.named, hleft, Option.toList_some, List.sum_append, List.sum_singleton]
        omega
      · exact sub_nonneg.mpr hcovered
    · refine ⟨left, status, hsame, ?_, hnonneg, hstatus⟩
      rw [hnone, Option.toList_none, List.append_nil]
      exact hleft
  · rw [parts_snoc, hfees, hs.fees]
    rcases hstep with ⟨part, hreleased⟩ | ⟨hnone, _, hnothing⟩
    · rw [hreleased.named, hreleased.fee]
      simp
    · rw [hnone, hnothing]
      simp
  · intro x hx part hpart
    rcases List.mem_append.mp hx with hold | hnew
    · exact hs.paid x hold part hpart
    · cases List.mem_singleton.mp hnew
      rcases hstep with ⟨released, hreleased⟩ | ⟨hnone, _⟩
      · cases hreleased.named.symm.trans hpart
        exact ⟨hreleased.positive, hreleased.payout, hreleased.split⟩
      · rw [hnone] at hpart
        cases hpart

/-- A funded escrow of which a run releases parts, at one rate and with nothing else done to it. -/
theorem run_parted (tokens : Tokens) (is js : List (Input contract))
    (hrow : ((machine contract).run (State.empty tokens) is).escrow id = some e)
    (hfunded : e.status = .funded)
    (hsplits : ∀ x ∈ (machine contract).journal ((machine contract).run (State.empty tokens) is) js,
      Step.SplitsAt id bps x) :
    Parted id bps e ((machine contract).run ((machine contract).run (State.empty tokens) is) js)
      ((machine contract).journal ((machine contract).run (State.empty tokens) is) js) := by
  apply Machine.run_journal_invariant_on (A := Step.SplitsAt id bps)
  · exact parted_start (run_proper tokens is) (run_outstanding tokens is) hrow hfunded
  · intro es s i o s' hline hs hstep
    exact step_parted hs hline hstep
  · exact hsplits

/-- However the amount of a funded escrow is split into parts that are released at one rate, each part
is paid out less its fee, the fees together are within one unit for each part of the fee of a
single release, and the parts complete the escrow when they sum to its amount and not before. -/
theorem run_split_release (tokens : Tokens) (is js : List (Input contract)) {id bps : Nat} {e : Escrow}
    (hrow : ((machine contract).run (State.empty tokens) is).escrow id = some e)
    (hfunded : e.status = .funded)
    (hsplits : ∀ x ∈ (machine contract).journal ((machine contract).run (State.empty tokens) is) js,
      Step.SplitsAt id bps x) :
    let m := machine contract
    let s := m.run (State.empty tokens) is
    (∀ x ∈ m.journal s js, ∀ part, Step.part id x = some part → 0 < part ∧
      0 ≤ Step.paidTo Escrow.seller id x ∧
      Step.paidTo Escrow.seller id x + Step.feeAccrued id x = part) ∧
    (∀ fee payout, computeFeeAndPayout e.amount bps = .ok (fee, payout) →
      fee = floorShare bps 10000 e.amount) ∧
    ((parts id (m.journal s js)).sum = e.amount →
      floorShare bps 10000 e.amount - (parts id (m.journal s js)).length <
        m.tally (Step.feeAccrued id) s js ∧
      m.tally (Step.feeAccrued id) s js ≤ floorShare bps 10000 e.amount) ∧
    ∀ ks, ks <+: js → ∃ e', (m.run s ks).escrow id = some e' ∧
      (e'.status = .completed ↔ (parts id (m.journal s ks)).sum = e.amount) := by
  intro m s
  have hparted := run_parted tokens is js hrow hfunded hsplits
  refine ⟨hparted.paid, ?_, ?_, ?_⟩
  · intro fee payout hsplit
    exact computeFeeAndPayout_fee hsplit
  · intro hall
    have hpositive : 0 < e.amount :=
      run_outstanding tokens is id e hrow (by simp [hfunded]) (by simp [hfunded])
    have hparts : parts id (m.journal s js) ≠ [] := by
      intro hnone
      rw [hnone] at hall
      exact hpositive.ne hall
    have hbounds := @floors_bounds bps 10000 _ (by decide) hparts
    rw [hall] at hbounds
    rw [Machine.tally, hparted.fees]
    exact hbounds
  · intro ks hks
    have hbefore : ∀ x ∈ m.journal s ks, Step.SplitsAt id bps x := by
      intro x hx
      obtain ⟨ls, rfl⟩ := hks
      apply hsplits
      rw [m.journal_append]
      exact List.mem_append_left _ hx
    obtain ⟨left, status, hleft, hamount, _, hstatus⟩ :=
      (run_parted tokens is ks hrow hfunded hbefore).row
    change left = e.amount - (parts id (m.journal s ks)).sum at hamount
    refine ⟨_, hleft, ?_⟩
    dsimp only
    rw [hstatus]
    split_ifs with hzero
    · simp only [true_iff]
      omega
    · simp only [false_iff]
      omega

end Runs

/-- The sample escrow of 1000 units released in three parts. -/
def sampleParts : List (Input ⟨0⟩) :=
  [.partialRelease ⟨1⟩ 1 333, .partialRelease ⟨1⟩ 1 333, .releaseEscrow ⟨1⟩ 1].map (.invoke sampleEnv)

theorem sampleParts_fees :
    let m := machine ⟨0⟩
    let s := m.run (State.empty sampleTokens) sampleFunding
    parts 1 (m.journal s sampleParts) = [333, 333, 334] ∧
      m.tally (Step.feeAccrued 1) s sampleParts = 9 ∧
      floorShare 100 10000 1000 - 3 < m.tally (Step.feeAccrued 1) s sampleParts := by
  intro m s
  have hparts : parts 1 (m.journal s sampleParts) = [333, 333, 334] := by decide +kernel
  have hfees : m.tally (Step.feeAccrued 1) s sampleParts = 9 := by decide +kernel
  have hsplits : ∀ x ∈ m.journal s sampleParts,
      (Step.part 1 x).isSome ∧ getProtocolFeeBps x.pre = 100 := by decide +kernel
  have hbounds := (@run_split_release ⟨0⟩ sampleTokens sampleFunding sampleParts 1 100
    ⟨⟨1⟩, ⟨2⟩, ⟨3⟩, 1000, 1000, .funded, 20⟩ (by decide +kernel) rfl
    fun x hx _ _ _ _ => hsplits x hx).2.2.1 (by rw [hparts]; rfl)
  rw [hparts] at hbounds
  exact ⟨hparts, hfees, hbounds.1⟩

end Parts

variable {contract : Address} {env : Env contract} {s s' : State}

section Rates

/-- A call keeps the fee rate, or sets one within the limit. -/
theorem execute_rate {call : Call} {o : Option Nat} (h : execute env s call = .ok (o, s')) :
    s'.protocolFeeBps = s.protocolFeeBps ∨ ∃ bps ≤ maxFeeBps, s'.protocolFeeBps = some bps := by
  cases call with
  | setProtocolFeeBps admin bps =>
    simp only [execute, answerless_eq_ok, setProtocolFeeBps, bind_eq_ok, refuseIf_eq_ok, not_lt,
      exists_unit, pure_eq_ok] at h
    obtain ⟨_, _, hbps, rfl⟩ := h
    exact .inr ⟨bps, hbps, rfl⟩
  | setAdmin admin =>
    left
    simp only [execute, answerless_eq_ok, setAdmin] at h
    obtain ⟨_, h⟩ := h
    split at h <;> simp only [bind_eq_ok, pure_eq_ok] at h <;> obtain ⟨_, _, rfl⟩ := h <;> rfl
  | createEscrow buyer seller token amount expiration =>
    left
    simp [execute, createEscrow, nextEscrowId, saveEscrow, appendToTokenIndex, appendToBuyerIndex,
      appendToSellerIndex] at h
    obtain ⟨_, _, _, _, _, _, _, rfl⟩ := h
    rfl
  | whitelistToken admin token | setArbiter admin arbiter =>
    left
    simp only [execute, answerless_eq_ok, whitelistToken, setArbiter, bind_eq_ok, pure_eq_ok] at h
    obtain ⟨_, _, _, rfl⟩ := h
    rfl
  | withdrawFees caller token recipient amount =>
    left
    cases withdrawFees_effect (answerless_eq_ok.mp h).2 with
    | configure same kind => simp at kind
    | withdraw => rfl
    | change _ _ hchange => cases hchange
  | _ =>
    left
    cases execute_effect h with
    | configure same kind => simp at kind
    | change => rfl

theorem run_rate (tokens : Tokens) (is : List (Input contract)) :
    getProtocolFeeBps ((machine contract).run (State.empty tokens) is) ≤ maxFeeBps := by
  apply @Machine.run_invariant _ _ _ _ _ fun s => getProtocolFeeBps s ≤ maxFeeBps
  · exact (by decide : defaultProtocolFeeBps ≤ maxFeeBps)
  · intro s i o s' hs hstep
    cases i with
    | drift move =>
      rw [step_drift hstep]
      exact hs
    | invoke env call =>
      rcases execute_rate hstep with hsame | ⟨bps, hbps, hset⟩
      · rw [getProtocolFeeBps, hsame]
        exact hs
      · rw [getProtocolFeeBps, hset]
        exact hbps

end Rates

section Exits

variable {id : Nat} {e : Escrow}

/-- At a rate within the limit a fee can be computed when, and only when, the product does not outgrow
128 bits. -/
theorem computeFeeAndPayout_succeeds {amount : Int} {bps : Nat} (hamount : 0 ≤ amount)
    (hbps : bps ≤ maxFeeBps) :
    (∃ fee payout, computeFeeAndPayout amount bps = .ok (fee, payout)) ↔ amount * bps < 2^128 := by
  have hvalue : ((amount.toNat * bps : Nat) : Int) = amount * bps := by
    rw [Nat.cast_mul, Int.toNat_of_nonneg hamount]
  have hfee : amount.toNat * bps / 10000 ≤ amount.toNat := by
    have hrate : bps ≤ 10000 := hbps.trans (by decide)
    have hproduct := Nat.mul_le_mul_left amount.toNat hrate
    omega
  simp only [computeFeeAndPayout, bind_eq_ok, refuseIf_eq_ok, orRefuse_eq_ok, fitsU_eq_some,
    checkedSub_eq_some, pure_eq_ok, exists_unit, Prod.mk.injEq]
  constructor
  · rintro ⟨fee, payout, _, product, ⟨hfits, rfl⟩, _⟩
    omega
  · intro hfits
    exact ⟨_, _, not_lt.mpr hamount, _, ⟨by omega, rfl⟩, _, ⟨hfee, rfl⟩, rfl, rfl⟩

/-- The tokens turn down no transfer out of the contract that its balance covers. -/
def Honours (env : Env contract) (s : State) : Prop :=
  ∀ t : Transfer, t.sender = contract → 0 ≤ t.amount → t.amount ≤ s.tokens.balance t.token contract →
    env.tokenRefuses t = false

theorem Honours.transfer (h : Honours env s) (token recipient : Address) {amount : Int}
    (hamount : 0 ≤ amount) (hcovered : amount ≤ s.tokens.balance token contract) :
    (s.tokens.transfer env ⟨token, contract, recipient, amount⟩ : Outcome Tokens) =
      .ok (s.tokens.move ⟨token, contract, recipient, amount⟩) :=
  Tokens.transfer_eq_ok.mpr ⟨h _ rfl hamount hcovered, hamount, hcovered, rfl⟩

theorem Solvent.funded_covered (hs : Solvent contract s) (hrow : s.escrow id = some e)
    (hfunded : e.status = .funded) :
    0 ≤ e.amount ∧ e.amount + s.protocolFees e.token ≤ s.tokens.balance e.token contract := by
  have hcovered := hs.escrow_covered hrow
  rw [lockedAmount, if_pos (.inl hfunded)] at hcovered
  exact ⟨(hs.records id e hrow).amount_nonneg, hcovered⟩

theorem releaseEscrow_succeeds (hs : Solvent contract s) (hrate : getProtocolFeeBps s ≤ maxFeeBps)
    (hrow : s.escrow id = some e) (hfunded : e.status = .funded) (hsigned : env.signers e.buyer = true)
    (hhonours : Honours env s) (hearly : env.timestamp < e.expiration) :
    (∃ s', releaseEscrow env s e.buyer id = .ok s') ↔
      e.amount * getProtocolFeeBps s < 2^128 ∧
        s.protocolFees e.token + floorShare (getProtocolFeeBps s) 10000 e.amount < 2^127 := by
  obtain ⟨hamount, hcovered⟩ := hs.funded_covered hrow hfunded
  have hfees := hs.fees e.token
  have hopened : releaseEscrow env s e.buyer id = (do
      let split ← computeFeeAndPayout e.amount (getProtocolFeeBps s)
      let tokens ← s.tokens.transfer env ⟨e.token, contract, e.seller, split.2⟩
      let s ← accumulateProtocolFee { s with tokens } e.token split.1
      let s := appendFeeRecord s ⟨id, e.token, split.1, env.timestamp⟩
      pure (saveEscrow s id { e with status := .completed, amount := 0 })) := by
    simp only [releaseEscrow, loadEscrow, hrow, orRefuse, authorizeReleaser, requireAuth, hsigned,
      refuseIf, hfunded, not_le.mpr hearly, ok_bind, reduceCtorEq, ne_eq, not_true_eq_false,
      false_and, if_false]
  rw [hopened, ← computeFeeAndPayout_succeeds hamount hrate]
  constructor
  · rintro ⟨s', h⟩
    simp only [bind_eq_ok, Prod.exists, accumulateProtocolFee, orRefuse_eq_ok, fitsI128_eq_some] at h
    obtain ⟨fee, payout, hsplit, _, _, _, ⟨_, ⟨⟨_, hfits⟩, _⟩, _⟩, _⟩ := h
    rw [← computeFeeAndPayout_fee hsplit]
    exact ⟨⟨fee, payout, hsplit⟩, hfits⟩
  · rintro ⟨⟨fee, payout, hsplit⟩, hfits⟩
    obtain ⟨_, hfee, hpayout, hsum⟩ := computeFeeAndPayout_split hsplit
    rw [← computeFeeAndPayout_fee hsplit] at hfits
    have hpaid := hhonours.transfer e.token e.seller hpayout (by omega)
    have hvalue : fitsI128 (s.protocolFees e.token + fee) = some (s.protocolFees e.token + fee) := by
      rw [fitsI128_eq_some]
      omega
    rw [hsplit, ok_bind]
    dsimp only
    rw [hpaid, ok_bind, accumulateProtocolFee, hvalue]
    exact ⟨_, rfl⟩

theorem refundEscrow_succeeds (hs : Solvent contract s) (hrow : s.escrow id = some e)
    (hfunded : e.status = .funded) (hsigned : env.signers e.buyer = true) (hhonours : Honours env s)
    (hlate : e.expiration ≤ env.timestamp) : ∃ s', refundEscrow env s e.buyer id = .ok s' := by
  obtain ⟨hamount, hcovered⟩ := hs.funded_covered hrow hfunded
  have hfees := hs.fees e.token
  have hpaid := hhonours.transfer e.token e.buyer hamount (by omega)
  simp only [refundEscrow, loadEscrow, hrow, orRefuse, requireAuth, hsigned, refuseIf, hfunded,
    not_lt.mpr hlate, ok_bind, ne_eq, not_true_eq_false, reduceCtorEq, if_false, hpaid]
  exact ⟨_, rfl⟩

/-- A refund at or after the expiration always succeeds; a release before it does when the fee can be
computed and added to the fees accrued, which it can be wherever the contract holds no more of
the token than fits. -/
theorem run_exits {tokens : Tokens} (h : ∀ token, 0 ≤ tokens.balance token contract)
    (is : List (Input contract)) (env : Env contract) {id : Nat} {e : Escrow}
    (hrow : ((machine contract).run (State.empty tokens) is).escrow id = some e)
    (hfunded : e.status = .funded) (hsigned : env.signers e.buyer = true)
    (hhonours : Honours env ((machine contract).run (State.empty tokens) is)) :
    let s := (machine contract).run (State.empty tokens) is
    let fee := floorShare (getProtocolFeeBps s) 10000 e.amount
    (env.timestamp < e.expiration → ((∃ s', releaseEscrow env s e.buyer id = .ok s') ↔
      e.amount * getProtocolFeeBps s < 2^128 ∧ s.protocolFees e.token + fee < 2^127)) ∧
    (e.expiration ≤ env.timestamp → ∃ s', refundEscrow env s e.buyer id = .ok s') ∧
    (s.tokens.balance e.token contract < 2^127 → s.protocolFees e.token + fee < 2^127) := by
  intro s fee
  have hs : Solvent contract s := run_solvent h is
  have hrate : getProtocolFeeBps s ≤ maxFeeBps := run_rate tokens is
  refine ⟨?_, ?_, ?_⟩
  · intro hearly
    exact releaseEscrow_succeeds hs hrate hrow hfunded hsigned hhonours hearly
  · intro hlate
    exact refundEscrow_succeeds hs hrow hfunded hsigned hhonours hlate
  · intro hbalance
    obtain ⟨hamount, hcovered⟩ := hs.funded_covered hrow hfunded
    have hbps : (getProtocolFeeBps s : Int) ≤ 10000 := by
      have hmax : maxFeeBps ≤ 10000 := by decide
      exact_mod_cast hrate.trans hmax
    have hfee : fee ≤ e.amount := by
      have hproduct := Int.mul_le_mul_of_nonneg_left hbps hamount
      have hdivided := Int.ediv_le_ediv (by decide : (0 : Int) < 10000) hproduct
      rw [Int.mul_ediv_cancel _ (by decide)] at hdivided
      exact hdivided
    omega

theorem sampleFunding_exits :
    (∃ s', releaseEscrow sampleEnv ((machine ⟨0⟩).run (State.empty sampleTokens) sampleFunding) ⟨1⟩ 1 =
      .ok s') ↔ (1000 * 100 : Int) < 2^128 ∧ (0 + floorShare 100 10000 1000 : Int) < 2^127 := by
  have hexits := @run_exits ⟨0⟩ sampleTokens (fun token => by simp [sampleTokens]) sampleFunding
    sampleEnv 1 ⟨⟨1⟩, ⟨2⟩, ⟨3⟩, 1000, 1000, .funded, 20⟩ (by decide +kernel) rfl rfl
    fun _ _ _ _ => rfl
  exact hexits.1 (by decide)

end Exits

/-- The largest amount of a token. -/
def maxAmount : Int := 2^127 - 1

/-- A buyer `⟨1⟩` with all there can be of the token `⟨3⟩`. -/
def fullTokens : Tokens where
  balance token holder := if token = ⟨3⟩ ∧ holder = ⟨1⟩ then maxAmount else 0
  transfers := []

/-- The buyer opens and funds an escrow of all of it. -/
def fullFunding : List (Input ⟨0⟩) :=
  [.setAdmin ⟨4⟩, .whitelistToken ⟨4⟩ ⟨3⟩, .createEscrow ⟨1⟩ ⟨2⟩ ⟨3⟩ maxAmount 20,
    .fundEscrow ⟨1⟩ 1].map (.invoke .sample)

/-- Creation and funding accept the amount, and before the expiration the buyer's release fails for
the product of the amount and the rate. -/
theorem full_release_fails :
    let s := (machine ⟨0⟩).run (State.empty fullTokens) fullFunding
    s.escrow 1 = some ⟨⟨1⟩, ⟨2⟩, ⟨3⟩, maxAmount, maxAmount, .funded, 20⟩ ∧
      sampleEnv.signers ⟨1⟩ = true ∧ sampleEnv.timestamp < 20 ∧
      (∀ t, sampleEnv.tokenRefuses t = false) ∧ getProtocolFeeBps s = 100 ∧
      ¬∃ s', releaseEscrow sampleEnv s ⟨1⟩ 1 = .ok s' := by
  intro s
  refine ⟨by decide +kernel, rfl, by decide, fun _ => rfl, by decide +kernel, ?_⟩
  decide +kernel

end ChainVerse.EscrowContract
