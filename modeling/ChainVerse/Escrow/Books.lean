import ChainVerse.Escrow.Steps

namespace ChainVerse.EscrowContract

variable {contract : Address}

/-- What holds of every stored escrow: the parties differ, the amount has only come down from
the original one, it is untouched before funding and zero after settlement. -/
structure Escrow.WellFormed (e : Escrow) : Prop where
  parties : e.buyer ≠ e.seller
  amount_nonneg : 0 ≤ e.amount
  amount_le : e.amount ≤ e.originalAmount
  unfunded : e.status = .created → e.amount = e.originalAmount
  settled : e.status = .completed ∨ e.status = .cancelled → e.amount = 0

/-- The escrow table is filled up to the counter, with well-formed records. -/
structure Proper (s : State) : Prop where
  ids : ∀ id e, s.escrow id = some e → id ≤ s.escrowCount
  records : ∀ id e, s.escrow id = some e → e.WellFormed

/-- What the contract still holds for an escrow. -/
def lockedAmount (e : Escrow) : Int :=
  if e.status = .funded ∨ e.status = .disputed then e.amount else 0

/-- What a call brings into the escrow it names. -/
def Call.deposit (e : Escrow) : Call → Int
  | .fundEscrow _ _ => e.amount
  | _ => 0

/-- What a resolution takes out of the record without paying it to anybody. -/
def Call.leftover (e : Escrow) : Call → Int
  | .resolveDispute _ _ buyerAmount sellerAmount feeAmount =>
      e.amount - (buyerAmount + sellerAmount + feeAmount)
  | _ => 0

section Changes

variable {env : Env contract} {s : State} {call : Call} {id : Nat} {e e' : Escrow}
  {ts : List Transfer} {fee : Int} {records : List FeeRecord}

theorem outflow_allocation (contract token recipient : Address) {amount : Int}
    (h : 0 ≤ amount) :
    Tokens.outflow token contract (allocationTransfers contract token recipient amount) =
      amount := by
  unfold allocationTransfers
  split_ifs
  · simp [Tokens.outflow]
  · have hzero : amount = 0 := by omega
    simp [Tokens.outflow, hzero]

/-- Parties, token, original amount and expiration are never rewritten. -/
theorem Change.fixed (h : Change env s call id e e' ts fee records) :
    e'.buyer = e.buyer ∧ e'.seller = e.seller ∧ e'.token = e.token ∧
      e'.originalAmount = e.originalAmount ∧ e'.expiration = e.expiration := by
  cases h <;> exact ⟨rfl, rfl, rfl, rfl, rfl⟩

theorem mem_allocationTransfers {token recipient : Address} {amount : Int} {t : Transfer} :
    t ∈ allocationTransfers contract token recipient amount ↔
      0 < amount ∧ t = ⟨token, contract, recipient, amount⟩ := by
  unfold allocationTransfers
  split_ifs with h <;> simp [h]

/-- Every transfer of a change is in the escrow's token. -/
theorem Change.transfer_token (h : Change env s call id e e' ts fee records) :
    ∀ t ∈ ts, t.token = e.token := by
  cases h with
  | resolve =>
    simp only [List.mem_append, mem_allocationTransfers]
    rintro t (⟨_, rfl⟩ | ⟨_, rfl⟩) <;> rfl
  | _ => simp

theorem Change.wellFormed (h : Change env s call id e e' ts fee records)
    (he : e.WellFormed) : e'.WellFormed := by
  obtain ⟨hparties, hnonneg, hle, hunfunded, hsettled⟩ := he
  cases h with
  | fund _ hstatus _ => exact ⟨hparties, hnonneg, hle, by simp, by simp⟩
  | dispute => exact ⟨hparties, hnonneg, hle, by simp, by simp⟩
  | release | resolve | refund => exact ⟨hparties, le_rfl, hnonneg.trans hle, by simp, by simp⟩
  | @partialRelease _ _ _ part _ _ _ _ hstatus _ hpos hcovered _ =>
    refine ⟨hparties, sub_nonneg.mpr hcovered, (sub_le_self _ hpos.le).trans hle, ?_, ?_⟩
    · dsimp only
      split_ifs <;> simp [hstatus]
    · dsimp only
      split_ifs with hzero
      · exact fun _ => hzero
      · simp [hstatus]

theorem Change.fee_nonneg (h : Change env s call id e e' ts fee records) : 0 ≤ fee := by
  cases h with
  | fund | dispute | refund => exact le_rfl
  | release _ _ _ _ hsplit => exact (computeFeeAndPayout_split hsplit).2.1
  | partialRelease _ _ _ _ _ _ hsplit => exact (computeFeeAndPayout_split hsplit).2.1
  | resolve _ _ _ hparts _ => exact hparts.2.2

theorem Change.leftover_nonneg (h : Change env s call id e e' ts fee records) :
    0 ≤ call.leftover e := by
  cases h with
  | resolve _ _ _ _ hcovered => exact sub_nonneg.mpr hcovered
  | _ => exact le_rfl

/-- What a change takes out of the record is paid out, accrued as a fee, or left over. -/
theorem Change.books (h : Change env s call id e e' ts fee records) :
    lockedAmount e' + fee + Tokens.outflow e.token contract ts + call.leftover e =
      lockedAmount e + call.deposit e := by
  cases h with
  | fund hsigned hstatus _ =>
    have hne := (Env.signer_ne_contract hsigned).symm
    simp [lockedAmount, Tokens.outflow, Call.leftover, Call.deposit, hstatus, hne]
  | release _ _ hstatus _ hsplit =>
    have hsum := computeFeeAndPayout_split hsplit
    simp [lockedAmount, Tokens.outflow, Call.leftover, Call.deposit, hstatus, hsum.2.2.2]
  | partialRelease _ _ hstatus _ _ _ hsplit =>
    have hsum := computeFeeAndPayout_split hsplit
    simp [lockedAmount, Tokens.outflow, Call.leftover, Call.deposit, hstatus]
    split_ifs <;> simp_all <;> omega
  | dispute _ hstatus => simp [lockedAmount, Tokens.outflow, Call.leftover, Call.deposit, hstatus]
  | resolve _ _ hstatus hparts _ =>
    simp only [lockedAmount, Call.leftover, Call.deposit, hstatus, Tokens.outflow_append,
      outflow_allocation contract e.token _ hparts.1, outflow_allocation contract e.token _ hparts.2.1]
    simp
    ring
  | refund _ hstatus _ =>
    simp [lockedAmount, Tokens.outflow, Call.leftover, Call.deposit, hstatus]

theorem Change.transfer_nonneg (h : Change env s call id e e' ts fee records)
    (he : 0 ≤ e.amount) : ∀ t ∈ ts, 0 ≤ t.amount := by
  cases h with
  | fund | refund => simpa using he
  | release _ _ _ _ hsplit => simpa using (computeFeeAndPayout_split hsplit).2.2.1
  | partialRelease _ _ _ _ _ _ hsplit => simpa using (computeFeeAndPayout_split hsplit).2.2.1
  | dispute => simp
  | resolve =>
    simp only [List.mem_append, mem_allocationTransfers]
    rintro t (⟨hpos, rfl⟩ | ⟨hpos, rfl⟩) <;> exact hpos.le

/-- A deposit reaches the contract. -/
theorem Change.deposit_le_inflow (h : Change env s call id e e' ts fee records)
    (he : 0 ≤ e.amount) : call.deposit e ≤ Tokens.inflow e.token contract ts := by
  have hnonneg := Tokens.inflow_nonneg e.token contract (h.transfer_nonneg he)
  cases h with
  | fund => simp [Call.deposit, Tokens.inflow]
  | _ => exact hnonneg

end Changes

section Runs

variable {s s' : State}

/-- The next id is not taken. -/
theorem Proper.fresh (hs : Proper s) {id : Nat} (hid : id = s.escrowCount + 1) :
    s.escrow id = none := by
  rcases hrow : s.escrow id with _ | e
  · rfl
  · have := hs.ids id e hrow
    omega

theorem Effect.proper {env : Env contract} {call : Call} (h : Effect env s call s')
    (hs : Proper s) : Proper s' := by
  have hcount := h.count_le
  constructor
  · intro id e hrow
    cases h.row id with
    | same hsame _ => exact (hs.ids id e (hsame ▸ hrow)).trans hcount
    | opened _ _ _ _ _ _ _ hcount => exact hcount.ge
    | changed hold _ _ => exact (hs.ids id _ hold).trans hcount
  · intro id e hrow
    cases h.row id with
    | same hsame _ => exact hs.records id e (hsame ▸ hrow)
    | opened hopened _ _ hstatus horiginal hpos hparties =>
      rw [hopened, Option.some.injEq] at hrow
      subst hrow
      exact ⟨hparties, hpos.le, horiginal.le, fun _ => horiginal, by simp [hstatus]⟩
    | changed hold hchange hpost =>
      simp only [hpost, State.change, Function.update_self, Option.some.injEq] at hrow
      exact hrow ▸ hchange.wellFormed (hs.records id _ hold)

theorem step_invoke {env : Env contract} {call : Call} {o : Option Nat}
    (h : (machine contract).step s (.invoke env call) = .ok (o, s')) : Effect env s call s' :=
  execute_effect h

/-- Tokens moving around the contract change nothing but balances. -/
theorem step_drift {move : Drift contract} {o : Option Nat}
    (h : (machine contract).step s (.drift move) = .ok (o, s')) :
    s' = { s with tokens := { s.tokens with
      balance := shift s.tokens.balance move.token move.holder move.delta } } := by
  simp only [machine, Except.ok.injEq, Prod.mk.injEq] at h
  exact h.2.symm

theorem step_proper {i : Input contract} {o : Option Nat} (hs : Proper s)
    (h : (machine contract).step s i = .ok (o, s')) : Proper s' := by
  cases i with
  | invoke env call => exact (execute_effect h).proper hs
  | drift move =>
    rw [step_drift h]
    exact ⟨hs.ids, hs.records⟩

theorem empty_proper (tokens : Tokens) : Proper (State.empty tokens) :=
  ⟨by simp [State.empty], by simp [State.empty]⟩

theorem run_proper (tokens : Tokens) (is : List (Input contract)) :
    Proper ((machine contract).run (State.empty tokens) is) :=
  Machine.run_invariant (empty_proper tokens) (fun _ _ _ _ hs h => step_proper hs h) is

end Runs

end ChainVerse.EscrowContract
