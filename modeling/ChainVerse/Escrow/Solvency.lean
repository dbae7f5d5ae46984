import ChainVerse.Escrow.Books
import ChainVerse.Framework.Tables

namespace ChainVerse.EscrowContract

variable {contract : Address}

/-- The part of `token` held for one row of the escrow table. -/
def lockedIn (token : Address) : Option Escrow → Int
  | some e => if e.token = token then lockedAmount e else 0
  | none => 0

/-- The principal locked in `token`, over all escrows ever created. -/
def locked (s : State) (token : Address) : Int :=
  ∑ id ∈ Finset.range (s.escrowCount + 1), lockedIn token (s.escrow id)

/-- No fee pool is negative, and each token balance covers the locked principal and the accrued
fees. -/
structure Solvent (contract : Address) (s : State) : Prop extends Proper s where
  fees : ∀ token, 0 ≤ s.protocolFees token
  covered : ∀ token, locked s token + s.protocolFees token ≤ s.tokens.balance token contract

section Locked

variable {s : State}

theorem lockedAmount_nonneg {e : Escrow} (h : 0 ≤ e.amount) : 0 ≤ lockedAmount e := by
  unfold lockedAmount
  split_ifs
  · exact h
  · exact le_rfl

theorem Solvent.lockedIn_nonneg (h : Solvent contract s) (token : Address) (id : Nat) :
    0 ≤ lockedIn token (s.escrow id) := by
  rcases hrow : s.escrow id with _ | e
  · exact le_rfl
  · simp only [lockedIn]
    split_ifs
    · exact lockedAmount_nonneg (h.records id e hrow).amount_nonneg
    · exact le_rfl

/-- The contract can pay out any one escrow and all accrued fees together. -/
theorem Solvent.escrow_covered (h : Solvent contract s) {id : Nat} {e : Escrow}
    (hrow : s.escrow id = some e) :
    lockedAmount e + s.protocolFees e.token ≤ s.tokens.balance e.token contract := by
  have hid : id ∈ Finset.range (s.escrowCount + 1) :=
    Finset.mem_range_succ_iff.mpr (h.ids id e hrow)
  have hone : lockedIn e.token (s.escrow id) ≤ locked s e.token :=
    Finset.single_le_sum (fun x _ => h.lockedIn_nonneg e.token x) hid
  have hself : lockedIn e.token (s.escrow id) = lockedAmount e := by simp [hrow, lockedIn]
  have := h.covered e.token
  omega

theorem Solvent.fees_covered (h : Solvent contract s) (token : Address) :
    s.protocolFees token ≤ s.tokens.balance token contract := by
  have hlocked : 0 ≤ locked s token :=
    Finset.sum_nonneg fun id _ => h.lockedIn_nonneg token id
  have := h.covered token
  omega

/-- A new record is not funded yet, so creating it locks nothing. -/
theorem locked_create {s' : State} {e : Escrow} (hstatus : e.status = .created)
    (hrecord : s'.escrow = Function.update s.escrow (s.escrowCount + 1) (some e))
    (hcount : s'.escrowCount = s.escrowCount + 1) (token : Address) :
    locked s' token = locked s token := by
  have hnew : s.escrowCount + 1 ∉ Finset.range (s.escrowCount + 1) := by simp
  unfold locked
  rw [hcount, hrecord, Finset.sum_range_succ, sum_update_row_of_notMem _ (fun _ => lockedIn token) _
    hnew, Function.update_self]
  simp [lockedIn, lockedAmount, hstatus]

theorem locked_change {id : Nat} {e e' : Escrow} {ts : List Transfer} {fee volume : Int}
    {records : List FeeRecord} (hid : id ≤ s.escrowCount) (hrow : s.escrow id = some e)
    (token : Address) : locked (s.change id e e' ts fee records volume) token =
      locked s token - lockedIn token (some e) + lockedIn token (some e') := by
  unfold locked
  rw [← hrow]
  exact sum_update_row _ (fun _ => lockedIn token) _ (Finset.mem_range_succ_iff.mpr hid) _

end Locked

section Steps

variable {env : Env contract} {s s' : State} {call : Call}

/-- A change takes no more from the contract than it releases from the escrow. -/
theorem Change.covered {id : Nat} {e e' : Escrow} {ts : List Transfer} {fee : Int}
    {records : List FeeRecord} (h : Change env s call id e e' ts fee records)
    (he : 0 ≤ e.amount) (token : Address) :
    lockedIn token (some e') + (if e.token = token then fee else 0) +
        Tokens.outflow token contract ts ≤
      lockedIn token (some e) + Tokens.inflow token contract ts := by
  have htoken : e'.token = e.token := h.fixed.2.2.1
  by_cases hk : e.token = token
  · subst hk
    have hbooks := h.books
    have hleft := h.leftover_nonneg
    have hdeposit := h.deposit_le_inflow he
    simp only [lockedIn, htoken, if_pos]
    omega
  · have hother : ∀ t ∈ ts, t.token ≠ token := fun t ht => h.transfer_token t ht ▸ hk
    simp [lockedIn, htoken, hk, Tokens.outflow_other _ _ hother, Tokens.inflow_other _ _ hother]

theorem Effect.solvent (h : Effect env s call s') (hs : Solvent contract s) :
    Solvent contract s' := by
  refine ⟨h.proper hs.toProper, ?_, ?_⟩
  · intro token
    have hfees := hs.fees token
    cases h with
    | configure same _ => exact same.2.2.1 ▸ hfees
    | create _ _ _ _ _ _ hsame _ _ => exact hsame ▸ hfees
    | change _ _ hchange =>
      have hfee := hchange.fee_nonneg
      rw [State.change_fees]
      split_ifs <;> omega
    | withdraw _ _ _ haccrued =>
      simp only [Function.update_apply]
      split_ifs
      · omega
      · exact hfees
  · intro token
    have hcovered := hs.covered token
    cases h with
    | configure same _ =>
      obtain ⟨hescrow, hcount, hfees, _, htokens⟩ := same
      have hlocked : locked s' token = locked s token := by simp only [locked, hescrow, hcount]
      rwa [hlocked, hfees, htokens]
    | create _ _ _ _ hrecord hcount hfees _ htokens =>
      rwa [locked_create rfl hrecord hcount, hfees, htokens]
    | @change volume _ id e e' ts fee records hrow hchange =>
      have hchanged := hchange.covered (hs.records id e hrow).amount_nonneg token
      have hbalance := Tokens.foldl_move_balance ts s.tokens token contract
      rw [locked_change (hs.ids id e hrow) hrow, State.change_fees, State.change_tokens, hbalance]
      omega
    | withdraw _ _ hpos haccrued =>
      change locked s token + _ ≤ _
      simp only [Function.update_apply, Tokens.move_balance]
      split_ifs <;> simp_all <;> omega

theorem step_solvent {i : Input contract} {o : Option Nat} (hs : Solvent contract s)
    (h : (machine contract).step s i = .ok (o, s')) : Solvent contract s' := by
  cases i with
  | invoke env call => exact (execute_effect h).solvent hs
  | drift move =>
    refine ⟨step_proper hs.toProper h, ?_, fun token => ?_⟩ <;> rw [step_drift h]
    · exact hs.fees
    have hkeeps := move.contract_keeps
    have hcovered := hs.covered token
    change locked s token + s.protocolFees token ≤ _
    simp only [shift]
    split_ifs with hmove
    · have := hkeeps hmove.2.symm
      omega
    · exact hcovered

theorem empty_solvent {tokens : Tokens} (h : ∀ token, 0 ≤ tokens.balance token contract) :
    Solvent contract (State.empty tokens) := by
  refine ⟨empty_proper tokens, fun _ => le_rfl, fun token => ?_⟩
  simpa [locked, lockedIn, State.empty] using h token

theorem run_solvent {tokens : Tokens} (h : ∀ token, 0 ≤ tokens.balance token contract)
    (is : List (Input contract)) :
    Solvent contract ((machine contract).run (State.empty tokens) is) :=
  Machine.run_invariant (empty_solvent h) (fun _ _ _ _ hs hstep => step_solvent hs hstep) is

/-- A transfer out of the contract of no more than its balance is not short of funds. -/
theorem transfer_funded {l : Tokens} {t : Transfer} (h : t.amount ≤ l.balance t.token t.sender) :
    (l.transfer env t : Outcome Tokens) ≠ .error .balance := fun hfail =>
  absurd (Tokens.transfer_eq_balance.mp hfail).2.2 (not_lt.mpr h)

@[simp] theorem computeFeeAndPayout_ne_balance (amount : Int) (bps : Nat) :
    computeFeeAndPayout amount bps ≠ .error .balance := by
  simp [computeFeeAndPayout]

@[simp] theorem authorizeReleaser_ne_balance (caller buyer : Address) :
    authorizeReleaser env s caller buyer ≠ .error .balance := by
  simp [authorizeReleaser]

@[simp] theorem accumulateProtocolFee_ne_balance (token : Address) (fee : Int) :
    accumulateProtocolFee s token fee ≠ .error .balance := by
  simp [accumulateProtocolFee]

@[simp] theorem accrueAllocation_ne_balance (token : Address) (fee : Int) :
    accrueAllocation s token fee ≠ .error .balance := by
  unfold accrueAllocation
  split_ifs <;> simp

@[simp] theorem assertTransitionAllowed_ne_balance (origin target : EscrowStatus) :
    assertTransitionAllowed origin target ≠ .error .balance := by
  cases origin <;> cases target <;> decide

theorem releaseEscrow_funded (hs : Solvent contract s) (caller : Address) (id : Nat) :
    releaseEscrow env s caller id ≠ .error .balance := by
  intro hfail
  simp [releaseEscrow, loadEscrow] at hfail
  obtain ⟨e, hrow, _, _, _, hstatus, fee, payout, hsplit, hfail⟩ := hfail
  have hcovered := hs.escrow_covered hrow
  have hfees := hs.fees e.token
  have hparts := computeFeeAndPayout_split hsplit
  simp only [lockedAmount, hstatus, true_or, if_pos] at hcovered
  exact transfer_funded (show payout ≤ s.tokens.balance e.token contract by omega) hfail

theorem partialRelease_funded (hs : Solvent contract s) (caller : Address) (id : Nat)
    (part : Int) : partialRelease env s caller id part ≠ .error .balance := by
  intro hfail
  simp [partialRelease, loadEscrow] at hfail
  obtain ⟨_, e, hrow, _, hstatus, _, _, hpart, fee, payout, hsplit, hfail⟩ := hfail
  have hcovered := hs.escrow_covered hrow
  have hfees := hs.fees e.token
  have hparts := computeFeeAndPayout_split hsplit
  simp only [lockedAmount, hstatus, true_or, if_pos] at hcovered
  exact transfer_funded (show payout ≤ s.tokens.balance e.token contract by omega) hfail

theorem refundEscrow_funded (hs : Solvent contract s) (caller : Address) (id : Nat) :
    refundEscrow env s caller id ≠ .error .balance := by
  intro hfail
  simp [refundEscrow, loadEscrow] at hfail
  obtain ⟨_, e, hrow, _, hstatus, _, hfail⟩ := hfail
  have hcovered := hs.escrow_covered hrow
  have hfees := hs.fees e.token
  simp only [lockedAmount, hstatus, true_or, if_pos] at hcovered
  exact transfer_funded (show e.amount ≤ s.tokens.balance e.token contract by omega) hfail

theorem withdrawFees_funded (hs : Solvent contract s) (caller token recipient : Address)
    (amount : Int) : withdrawFees env s caller token recipient amount ≠ .error .balance := by
  intro hfail
  simp [withdrawFees, requireAdminAddr, decrementProtocolFee] at hfail
  obtain ⟨_, _, _, haccrued, hfail⟩ := hfail
  exact transfer_funded (haccrued.trans (hs.fees_covered token)) hfail

/-- One side of a resolution is not short of funds when the contract holds that side. -/
theorem payAllocation_funded {tokens : Tokens} {token recipient : Address} {amount : Int}
    (h : amount ≤ tokens.balance token contract) :
    payAllocation env tokens token recipient amount ≠ .error .balance := by
  unfold payAllocation
  split_ifs
  · exact transfer_funded h
  · exact pure_ne_error

/-- Paying one side leaves the contract at least the rest of what it held. -/
theorem payAllocation_rest {tokens tokens' : Tokens} {token recipient : Address} {amount : Int}
    (hamount : 0 ≤ amount)
    (h : payAllocation env tokens token recipient amount = .ok tokens') :
    tokens.balance token contract - amount ≤ tokens'.balance token contract := by
  have hnonneg : ∀ t ∈ allocationTransfers contract token recipient amount, 0 ≤ t.amount := by
    simp only [mem_allocationTransfers]
    rintro t ⟨hpos, rfl⟩
    exact hpos.le
  have hin := Tokens.inflow_nonneg token contract hnonneg
  rw [payAllocation_eq_ok h, Tokens.foldl_move_balance, outflow_allocation _ _ _ hamount]
  omega

theorem resolveDispute_funded (hs : Solvent contract s) (arbiter : Address) (id : Nat)
    (toBuyer toSeller fee : Int) :
    resolveDispute env s arbiter id toBuyer toSeller fee ≠ .error .balance := by
  intro hfail
  simp [resolveDispute, loadEscrow] at hfail
  obtain ⟨_, _, e, hrow, hstatus, _, ⟨hbuyer, hseller, hfee⟩, _, _, htotal, hfail⟩ := hfail
  have hcovered := hs.escrow_covered hrow
  have hfees := hs.fees e.token
  simp only [lockedAmount, hstatus, or_true, if_pos] at hcovered
  rcases hfail with hfail | ⟨tokens', hpaid, hfail⟩
  · exact payAllocation_funded (by omega) hfail
  · have hrest := payAllocation_rest hbuyer hpaid
    exact payAllocation_funded (by omega) hfail

/-- Only funding, which takes from the buyer, can find a balance too low. -/
theorem execute_funded (hs : Solvent contract s) {call : Call}
    (hcall : ∀ caller id, call ≠ .fundEscrow caller id) :
    execute env s call ≠ .error .balance := by
  cases call with
  | fundEscrow caller id => exact absurd rfl (hcall caller id)
  | releaseEscrow caller id => simpa [execute] using releaseEscrow_funded hs caller id
  | partialRelease caller id part => simpa [execute] using partialRelease_funded hs caller id part
  | refundEscrow caller id => simpa [execute] using refundEscrow_funded hs caller id
  | resolveDispute arbiter id toBuyer toSeller fee =>
    simpa [execute] using resolveDispute_funded hs arbiter id toBuyer toSeller fee
  | withdrawFees caller token recipient amount =>
    simpa [execute] using withdrawFees_funded hs caller token recipient amount
  | setAdmin admin => cases hadmin : s.admin <;> simp [execute, setAdmin, hadmin]
  | createEscrow => simp [execute, createEscrow, nextEscrowId]
  | disputeEscrow => simp [execute, dispute]
  | whitelistToken => simp [execute, whitelistToken, requireAdminAddr]
  | setArbiter => simp [execute, setArbiter, requireAdminAddr]
  | setProtocolFeeBps => simp [execute, setProtocolFeeBps, requireAdminAddr]

/-- A fee withdrawal is covered by the accrued fees and leaves every escrow as it was. -/
theorem withdrawFees_spares_principal {caller token recipient : Address} {amount : Int}
    (h : withdrawFees env s caller token recipient amount = .ok s') :
    amount ≤ s.protocolFees token ∧ s'.escrow = s.escrow ∧ ∀ k, locked s' k = locked s k := by
  cases withdrawFees_effect h with
  | withdraw _ _ _ haccrued => exact ⟨haccrued, rfl, fun _ => rfl⟩
  | change _ _ hchange => cases hchange
  | configure _ hkind => simp at hkind

end Steps

/-- Solvency in every reachable state: the balance in each token covers the funded and disputed
escrows and the accrued fees, a fee withdrawal touches no principal, and no accepted payout can
be short of funds. -/
theorem reachable_solvency {tokens : Tokens} (h : ∀ token, 0 ≤ tokens.balance token contract)
    (is : List (Input contract)) :
    let s := (machine contract).run (State.empty tokens) is
    (∀ id e, s.escrow id = some e → id ≤ s.escrowCount) ∧
    (∀ token, locked s token + s.protocolFees token ≤ s.tokens.balance token contract) ∧
    (∀ (env : Env contract) caller token recipient amount s',
      withdrawFees env s caller token recipient amount = .ok s' →
      amount ≤ s.protocolFees token ∧ s'.escrow = s.escrow ∧ ∀ k, locked s' k = locked s k) ∧
    ∀ (env : Env contract) call, (∀ caller id, call ≠ .fundEscrow caller id) →
      execute env s call ≠ .error .balance := by
  have hs := run_solvent h is
  exact ⟨hs.ids, hs.covered, fun _ _ _ _ _ _ hw => withdrawFees_spares_principal hw,
    fun _ _ hcall => execute_funded hs hcall⟩

theorem reachable_solvency_sample :
    let s := (machine ⟨0⟩).run (State.empty sampleTokens) sampleFunding
    locked s ⟨3⟩ = 1000 ∧
    ∀ token, locked s token + s.protocolFees token ≤ s.tokens.balance token ⟨0⟩ :=
  ⟨by decide +kernel, (reachable_solvency (fun token => by simp [sampleTokens]) sampleFunding).2.1⟩

end ChainVerse.EscrowContract
