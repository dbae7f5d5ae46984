import ChainVerse.Escrow.Releases

namespace ChainVerse.EscrowContract

variable {contract : Address}

/-- What a step on escrow `id` took out of the contract. -/
def Step.sentOut (id : Nat) (x : Step contract) : Int :=
  x.onEscrow id fun _ e =>
    Tokens.outflow e.token contract x.transfers - Tokens.paid e.token contract contract x.transfers

/-- What a step on escrow `id` paid from the contract to the contract. -/
def Step.keptBack (id : Nat) (x : Step contract) : Int :=
  x.onEscrow id fun _ e => Tokens.paid e.token contract contract x.transfers

/-- A call that pays the seller of the escrow it names. -/
def Call.paysSeller : Call → Prop
  | .releaseEscrow _ _ | .partialRelease _ _ _ => True
  | .resolveDispute _ _ _ sellerAmount _ => 0 < sellerAmount
  | _ => False

/-- A step that pays the seller of escrow `id`, where the contract itself is the seller. -/
def Step.PaysItself (id : Nat) (x : Step contract) : Prop :=
  ∃ env call e, x.input = .invoke env call ∧ call.escrowId = some id ∧
    x.pre.escrow id = some e ∧ e.seller = contract ∧ call.paysSeller

/-- What a step on an escrow finds: proper books, something in every escrow that is not settled, buyers
other than the contract, and a fee rate within the limit. -/
structure Payable (contract : Address) (s : State) : Prop where
  proper : Proper s
  outstanding : Outstanding s
  buyers : ∀ id e, s.escrow id = some e → e.buyer ≠ contract
  rate : getProtocolFeeBps s ≤ maxFeeBps

section Steps

variable {env : Env contract} {s s' : State} {call : Call} {id : Nat} {x : Step contract}

/-- The buyer has signed for the escrow, which the contract never does. -/
theorem run_buyers (tokens : Tokens) (is : List (Input contract)) {id : Nat} {e : Escrow}
    (hrow : ((machine contract).run (State.empty tokens) is).escrow id = some e) :
    e.buyer ≠ contract := by
  revert id e
  apply @Machine.run_invariant _ _ _ _ _ fun s : State =>
    ∀ {id : Nat} {e : Escrow}, s.escrow id = some e → e.buyer ≠ contract
  · intro id e hrow
    cases hrow
  · intro s i o s' hs hstep id e hrow
    cases i with
    | drift move =>
      rw [step_drift hstep] at hrow
      exact hs hrow
    | invoke env call =>
      cases step_invoke hstep with
      | configure same =>
        rw [same.1] at hrow
        exact hs hrow
      | create hsigned _ _ _ hrecord =>
        rw [hrecord] at hrow
        rcases eq_or_ne id (s.escrowCount + 1) with rfl | hne
        · rw [Function.update_self] at hrow
          cases hrow
          exact Env.signer_ne_contract hsigned
        · rw [Function.update_of_ne hne] at hrow
          exact hs hrow
      | @change _ _ named _ _ _ _ _ hold hchange =>
        rw [State.change_escrow] at hrow
        rcases eq_or_ne id named with rfl | hne
        · rw [Function.update_self] at hrow
          cases hrow
          rw [hchange.fixed.1]
          exact hs hold
        · rw [Function.update_of_ne hne] at hrow
          exact hs hrow
      | withdraw => exact hs hrow

theorem run_payable (tokens : Tokens) (is : List (Input contract)) :
    Payable contract ((machine contract).run (State.empty tokens) is) where
  proper := run_proper tokens is
  outstanding := run_outstanding tokens is
  buyers _ _ hrow := run_buyers tokens is hrow
  rate := run_rate tokens is

/-- At a rate within the limit, a payout of something is something. -/
theorem payout_pos {amount fee payout : Int} {bps : Nat} (hamount : 0 < amount)
    (hbps : bps ≤ maxFeeBps) (h : computeFeeAndPayout amount bps = .ok (fee, payout)) :
    0 < payout := by
  have hsum := (computeFeeAndPayout_split h).2.2.2
  have hfee := computeFeeAndPayout_fee h
  have hrate : (bps : Int) ≤ 5000 := by exact_mod_cast hbps
  have hproduct : amount * bps ≤ amount * 5000 := Int.mul_le_mul_of_nonneg_left hrate hamount.le
  unfold floorShare at hfee
  omega

/-- A change pays the contract exactly when it pays the contract as the seller. -/
theorem Change.kept {e e' : Escrow} {ts : List Transfer} {fee : Int} {records : List FeeRecord}
    (h : Change env s call id e e' ts fee records) (hs : Payable contract s)
    (hrow : s.escrow id = some e) :
    0 ≤ Tokens.paid e.token contract contract ts ∧
      (Tokens.paid e.token contract contract ts = 0 ↔ ¬(e.seller = contract ∧ call.paysSeller)) := by
  have hbuyer := hs.buyers id e hrow
  have hpositive := hs.outstanding id e hrow
  by_cases hseller : e.seller = contract
  · cases h with
    | fund | refund | dispute => simp [Tokens.paid, Call.paysSeller, hbuyer.symm]
    | release _ _ hstatus _ hsplit =>
      have hpayout := payout_pos (hpositive (by simp [hstatus]) (by simp [hstatus])) hs.rate hsplit
      simp [Tokens.paid, Call.paysSeller, hseller, hpayout.le, hpayout.ne']
    | partialRelease _ _ _ _ hpart _ hsplit =>
      have hpayout := payout_pos hpart hs.rate hsplit
      simp [Tokens.paid, Call.paysSeller, hseller, hpayout.le, hpayout.ne']
    | @resolve _ _ _ toBuyer toSeller _ _ _ _ hparts =>
      have hpaid : Tokens.paid e.token contract contract
          (allocationTransfers contract e.token e.buyer toBuyer ++
            allocationTransfers contract e.token e.seller toSeller) = toSeller := by
        unfold allocationTransfers
        split_ifs <;> simp [Tokens.paid, hseller, hbuyer.symm] <;> omega
      rw [hpaid]
      simp only [hseller, Call.paysSeller, true_and, not_lt]
      omega
  · have hnone : Tokens.paid e.token contract contract ts = 0 := by
      apply List.sum_eq_zero
      intro amount hamount
      obtain ⟨t, ht, rfl⟩ := List.mem_map.mp hamount
      apply if_neg
      rintro ⟨_, hsender, hrecipient⟩
      rcases h.recipients t ht hsender.symm with hto | hto
      · exact hseller (hto.symm.trans hrecipient.symm)
      · exact hbuyer (hto.symm.trans hrecipient.symm)
    simp [hnone, hseller]

/-- What a step pays to the parties leaves the contract or is kept back. -/
theorem sentOut_add_keptBack (hs : Payable contract x.pre)
    (h : (machine contract).step x.pre x.input = .ok (x.output, x.post)) (id : Nat) :
    x.sentOut id + x.keptBack id = x.paidTo Escrow.seller id + x.paidTo Escrow.buyer id := by
  unfold Step.sentOut Step.keptBack Step.paidTo
  rcases hinput : x.input with ⟨env, call⟩ | move
  · rw [hinput] at h
    cases (step_invoke h).row id with
    | same _ hother => simp only [Step.onEscrow_other _ hinput hother, add_zero]
    | opened _ hnew => simp only [Step.onEscrow_none _ (hs.proper.fresh hnew), add_zero]
    | @changed e e' ts _ _ _ hrow hchange hpost =>
      have htransfers : x.transfers = ts := by
        rw [Step.transfers, hpost, State.change_tokens, Tokens.foldl_move_transfers,
          List.drop_left]
      have hparties := (hs.proper.records id e hrow).parties.symm
      have hpaid := Tokens.paid_add_paid (k := e.token) hparties hchange.recipients
      simp only [Step.onEscrow_named _ hinput hchange.escrowId_eq hrow, htransfers]
      omega
  · simp [Step.onEscrow, hinput]

theorem keptBack_zero (hs : Payable contract x.pre)
    (h : (machine contract).step x.pre x.input = .ok (x.output, x.post)) (id : Nat) :
    0 ≤ x.keptBack id ∧ (x.keptBack id = 0 ↔ ¬x.PaysItself id) := by
  unfold Step.keptBack Step.PaysItself
  rcases hinput : x.input with ⟨env, call⟩ | move
  · rw [hinput] at h
    cases (step_invoke h).row id with
    | same _ hother => simp [Step.onEscrow_other _ hinput hother, hother]
    | opened _ hnew => simp [Step.onEscrow_none _ (hs.proper.fresh hnew), hs.proper.fresh hnew]
    | @changed e e' ts _ _ _ hrow hchange hpost =>
      have htransfers : x.transfers = ts := by
        rw [Step.transfers, hpost, State.change_tokens, Tokens.foldl_move_transfers,
          List.drop_left]
      have hnamed := hchange.escrowId_eq
      simpa [Step.onEscrow_named _ hinput hnamed hrow, htransfers, hnamed, hrow] using
        hchange.kept hs hrow
  · simp [Step.onEscrow, hinput]

end Steps

section Runs

variable {tokens : Tokens} {is : List (Input contract)} {id : Nat}

theorem tally_sentOut (tokens : Tokens) (is : List (Input contract)) (id : Nat) :
    let m := machine contract
    m.tally (Step.sentOut id) (State.empty tokens) is + m.tally (Step.keptBack id) (State.empty tokens) is =
      m.tally (Step.paidTo Escrow.seller id) (State.empty tokens) is +
        m.tally (Step.paidTo Escrow.buyer id) (State.empty tokens) is := by
  intro m
  rw [← Machine.tally_add, ← Machine.tally_add, Machine.tally, Machine.tally]
  congr 1
  apply List.map_congr_left
  intro x hx
  exact sentOut_add_keptBack (Machine.journal_found (run_payable tokens) hx)
    (Machine.journal_step hx).1 id

theorem tally_keptBack (tokens : Tokens) (is : List (Input contract)) (id : Nat) :
    (machine contract).tally (Step.keptBack id) (State.empty tokens) is = 0 ↔
      ∀ x ∈ (machine contract).journal (State.empty tokens) is, ¬Step.PaysItself id x := by
  have hzero : ∀ x ∈ (machine contract).journal (State.empty tokens) is,
      0 ≤ Step.keptBack id x ∧ (Step.keptBack id x = 0 ↔ ¬Step.PaysItself id x) := by
    intro x hx
    exact keptBack_zero (Machine.journal_found (run_payable tokens) hx) (Machine.journal_step hx).1 id
  rw [Machine.tally, sum_eq_zero_of_nonneg (List.forall_mem_map.mpr fun x hx => (hzero x hx).1),
    List.forall_mem_map]
  exact forall₂_congr fun x hx => (hzero x hx).2

/-- The amounts locked, paid to the parties and accrued as fees make up the original amount exactly
when no resolution left anything unallocated. -/
theorem run_allocates_iff (tokens : Tokens) (is : List (Input contract)) {id : Nat} {e : Escrow} :
    let m := machine contract
    (m.run (State.empty tokens) is).escrow id = some e → e.status ≠ .created →
    (e.originalAmount = lockedAmount e + m.tally (Step.paidTo Escrow.seller id) (State.empty tokens) is
        + m.tally (Step.paidTo Escrow.buyer id) (State.empty tokens) is
        + m.tally (Step.feeAccrued id) (State.empty tokens) is ↔
      ∀ x ∈ m.journal (State.empty tokens) is, Step.AllocatesAll id x) := by
  intro m hrow hfunded
  have hbalance := Machine.run_balance (m := m) (f := fun s => disbursed (s.escrow id))
    (w := fun x => Step.paidTo Escrow.seller id x + (Step.paidTo Escrow.buyer id x +
      (Step.feeAccrued id x + Step.writtenOff id x)))
    (empty_proper tokens) (fun _ _ _ _ hs h => step_proper hs h)
    (fun s i o s' hs h => step_disbursed (x := ⟨s, i, o, s'⟩) hs h id) is
  have hzero : m.tally (Step.writtenOff id) (State.empty tokens) is = 0 ↔
      ∀ x ∈ m.journal (State.empty tokens) is, Step.AllocatesAll id x := by
    rw [Machine.tally, sum_eq_zero_of_nonneg]
    · simp only [List.forall_mem_map, writtenOff_eq_zero]
    · rw [List.forall_mem_map]
      exact fun x hx => writtenOff_nonneg (Machine.journal_step hx).1 id
  have hstart : disbursed ((State.empty tokens).escrow id) = 0 := rfl
  have hend : disbursed (some e) = e.originalAmount - lockedAmount e := if_neg hfunded
  simp only [Machine.tally_add, hrow, hstart, hend] at hbalance
  rw [← hzero]
  omega

/-- Over every run, the original amount of a funded escrow splits into what is still locked, what its
seller and its buyer were paid and the fees accrued, and once the escrow is closed all of it but the
fees has left the contract, exactly when every resolution of that escrow so far allocated all that
was locked and no payment of a closed escrow went to the contract as its own seller. -/
theorem run_conserves_iff (tokens : Tokens) (is : List (Input contract)) {id : Nat} {e : Escrow} :
    let m := machine contract
    let closed := e.status = .completed ∨ e.status = .cancelled
    (m.run (State.empty tokens) is).escrow id = some e → e.status ≠ .created →
    ((e.originalAmount = lockedAmount e + m.tally (Step.paidTo Escrow.seller id) (State.empty tokens) is
          + m.tally (Step.paidTo Escrow.buyer id) (State.empty tokens) is
          + m.tally (Step.feeAccrued id) (State.empty tokens) is ∧
        (closed → e.originalAmount = m.tally (Step.sentOut id) (State.empty tokens) is +
          m.tally (Step.feeAccrued id) (State.empty tokens) is)) ↔
      (∀ x ∈ m.journal (State.empty tokens) is, Step.AllocatesAll id x) ∧
        (closed → ∀ x ∈ m.journal (State.empty tokens) is, ¬Step.PaysItself id x)) := by
  intro m closed hrow hfunded
  rw [← run_allocates_iff tokens is hrow hfunded]
  apply and_congr_right
  intro hallocated
  apply imp_congr_right
  intro hclosed
  have hlocked : lockedAmount e = 0 := by
    rcases hclosed with hstatus | hstatus <;> simp [lockedAmount, hstatus]
  have hpaid : m.tally (Step.sentOut id) (State.empty tokens) is +
      m.tally (Step.keptBack id) (State.empty tokens) is =
        m.tally (Step.paidTo Escrow.seller id) (State.empty tokens) is +
          m.tally (Step.paidTo Escrow.buyer id) (State.empty tokens) is := tally_sentOut tokens is id
  rw [← tally_keptBack]
  change e.originalAmount = _ ↔ m.tally (Step.keptBack id) (State.empty tokens) is = 0
  omega

end Runs

/-- A full release of the sample escrow: 990 units to the seller and a fee of 10. -/
def sampleRelease : List (Input ⟨0⟩) :=
  sampleFunding ++ [.invoke sampleEnv (.releaseEscrow ⟨1⟩ 1)]

theorem run_conserves_sample :
    let m := machine ⟨0⟩
    let s := State.empty sampleTokens
    1000 = m.tally (Step.paidTo Escrow.seller 1) s sampleRelease +
        m.tally (Step.paidTo Escrow.buyer 1) s sampleRelease +
        m.tally (Step.feeAccrued 1) s sampleRelease ∧
      1000 = m.tally (Step.sentOut 1) s sampleRelease + m.tally (Step.feeAccrued 1) s sampleRelease ↔
      (∀ x ∈ m.journal s sampleRelease, Step.AllocatesAll 1 x) ∧
        ∀ x ∈ m.journal s sampleRelease, ¬Step.PaysItself 1 x := by
  simpa [lockedAmount] using @run_conserves_iff ⟨0⟩ sampleTokens sampleRelease 1
    ⟨⟨1⟩, ⟨2⟩, ⟨3⟩, 0, 1000, .completed, 20⟩ (by decide +kernel) (by decide)

/-- The sample escrow, disputed and resolved with 100 units for the buyer and 200 for the
seller. -/
def sampleShortResolution : List (Input ⟨0⟩) :=
  sampleFunding ++ [.disputeEscrow ⟨1⟩ 1, .resolveDispute ⟨5⟩ 1 100 200 0].map
    (.invoke sampleEnv)

/-- A resolution may allocate less than is locked: the record is closed and 700 units stay behind. -/
theorem short_resolution_strands :
    let m := machine ⟨0⟩
    let s := State.empty sampleTokens
    let e : Escrow := ⟨⟨1⟩, ⟨2⟩, ⟨3⟩, 0, 1000, .completed, 20⟩
    (m.run s sampleShortResolution).escrow 1 = some e ∧
      e.originalAmount ≠ lockedAmount e + m.tally (Step.paidTo Escrow.seller 1) s
          sampleShortResolution + m.tally (Step.paidTo Escrow.buyer 1) s sampleShortResolution +
        m.tally (Step.feeAccrued 1) s sampleShortResolution ∧
      (m.run s sampleShortResolution).tokens.balance ⟨3⟩ ⟨0⟩ = 700 := by
  decide +kernel

/-- An escrow of which the contract itself is the seller, funded and released. -/
def sampleSelfSale : List (Input ⟨0⟩) :=
  [.setAdmin ⟨4⟩, .whitelistToken ⟨4⟩ ⟨3⟩, .createEscrow ⟨1⟩ ⟨0⟩ ⟨3⟩ 1000 20, .fundEscrow ⟨1⟩ 1,
    .releaseEscrow ⟨1⟩ 1].map (.invoke sampleEnv)

-- The record is closed, and all but the fee of 10 has moved from the contract to the contract.
example :
    let m := machine ⟨0⟩
    let s := State.empty sampleTokens
    (m.run s sampleSelfSale).escrow 1 = some ⟨⟨1⟩, ⟨0⟩, ⟨3⟩, 0, 1000, .completed, 20⟩ ∧
      m.tally (Step.sentOut 1) s sampleSelfSale = 0 ∧
      m.tally (Step.keptBack 1) s sampleSelfSale = 990 ∧
      (m.run s sampleSelfSale).tokens.balance ⟨3⟩ ⟨0⟩ = 1000 := by
  decide +kernel

end ChainVerse.EscrowContract
