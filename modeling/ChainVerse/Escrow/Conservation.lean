import ChainVerse.Escrow.Books
import ChainVerse.Framework.Tables

namespace ChainVerse.EscrowContract

section Conservation

variable {contract : Address}

/-- An accepted step of the contract. -/
abbrev Step (contract : Address) := Entry State (Input contract) (Option Nat)

/-- The transfers a step has made. -/
def Step.transfers (x : Step contract) : List Transfer :=
  x.post.tokens.transfers.drop x.pre.tokens.transfers.length

/-- A quantity of the calls that name escrow `id`; zero for every other step. -/
def Step.onEscrow (id : Nat) (quantity : Call → Escrow → Int) (x : Step contract) : Int :=
  match x.input, x.pre.escrow id with
  | .invoke _ call, some e => if call.escrowId = some id then quantity call e else 0
  | _, _ => 0

/-- What a step on escrow `id` paid to its buyer or seller. -/
def Step.paidTo (party : Escrow → Address) (id : Nat) (x : Step contract) : Int :=
  x.onEscrow id fun _ e => Tokens.paid e.token contract (party e) x.transfers

/-- The protocol fee a step accrued on behalf of escrow `id`. -/
def Step.feeAccrued (id : Nat) (x : Step contract) : Int :=
  x.onEscrow id fun _ e => x.post.protocolFees e.token - x.pre.protocolFees e.token

/-- What a step wrote off in the record of escrow `id` without allocating it. -/
def Step.writtenOff (id : Nat) (x : Step contract) : Int :=
  x.onEscrow id fun call e => call.leftover e

/-- The resolution of escrow `id` in this step, if it is one, allocates all that is locked. -/
def Step.AllocatesAll (id : Nat) (x : Step contract) : Prop :=
  ∀ env arbiter toBuyer toSeller fee e,
    x.input = .invoke env (.resolveDispute arbiter id toBuyer toSeller fee) →
    x.pre.escrow id = some e → toBuyer + toSeller + fee = e.amount

/-- What has left an escrow since it was funded. -/
def disbursed : Option Escrow → Int
  | some e => if e.status = .created then 0 else e.originalAmount - lockedAmount e
  | none => 0

section Quantities

variable {x : Step contract} {env : Env contract} {call : Call} {id : Nat}

theorem Step.onEscrow_other (q : Call → Escrow → Int) (hinput : x.input = .invoke env call)
    (hother : call.escrowId ≠ some id) : x.onEscrow id q = 0 := by
  unfold Step.onEscrow
  rw [hinput]
  cases x.pre.escrow id <;> simp [hother]

theorem Step.onEscrow_none (q : Call → Escrow → Int) (hrow : x.pre.escrow id = none) :
    x.onEscrow id q = 0 := by
  unfold Step.onEscrow
  rw [hrow]
  split <;> simp_all

theorem Step.onEscrow_named (q : Call → Escrow → Int) {e : Escrow}
    (hinput : x.input = .invoke env call) (hnamed : call.escrowId = some id)
    (hrow : x.pre.escrow id = some e) : x.onEscrow id q = q call e := by
  unfold Step.onEscrow
  rw [hinput, hrow]
  exact if_pos hnamed

end Quantities

section Steps

variable {env : Env contract} {s s' : State} {call : Call} {id : Nat}

theorem Change.recipients {e e' : Escrow} {ts : List Transfer} {fee : Int}
    {records : List FeeRecord} (h : Change env s call id e e' ts fee records) :
    ∀ t ∈ ts, t.sender = contract → t.recipient = e.seller ∨ t.recipient = e.buyer := by
  cases h with
  | fund hsigned => simp [Env.signer_ne_contract hsigned]
  | resolve =>
    simp only [List.mem_append, mem_allocationTransfers]
    rintro t (⟨_, rfl⟩ | ⟨_, rfl⟩) _
    · exact .inr rfl
    · exact .inl rfl
  | _ => simp

/-- A change on a proper record moves what it disburses to the parties, to the fees, or nowhere. -/
theorem Change.disbursed {e e' : Escrow} {ts : List Transfer} {fee : Int}
    {records : List FeeRecord} (h : Change env s call id e e' ts fee records)
    (he : e.WellFormed) :
    disbursed (some e') = disbursed (some e) + (Tokens.paid e.token contract e.seller ts +
      (Tokens.paid e.token contract e.buyer ts + (fee + call.leftover e))) := by
  have hbooks := h.books
  have hpaid := Tokens.paid_add_paid (k := e.token) he.parties.symm h.recipients
  have horiginal := h.fixed.2.2.2.1
  have hunfunded := he.unfunded
  have hstatus : e'.status ≠ .created ∧ (e.status = .created → call.deposit e = e.amount) ∧
      (e.status ≠ .created → call.deposit e = 0) := by
    cases h <;> simp_all [Call.deposit]
    split_ifs <;> simp
  simp only [EscrowContract.disbursed, if_neg hstatus.1]
  by_cases hcreated : e.status = .created
  · have := hunfunded hcreated
    have := hstatus.2.1 hcreated
    have : lockedAmount e = 0 := by simp [lockedAmount, hcreated]
    simp only [if_pos hcreated]
    omega
  · have := hstatus.2.2 hcreated
    simp only [if_neg hcreated]
    omega

theorem step_disbursed {x : Step contract} (hs : Proper x.pre)
    (h : (machine contract).step x.pre x.input = .ok (x.output, x.post)) (id : Nat) :
    disbursed (x.post.escrow id) = disbursed (x.pre.escrow id) + (x.paidTo Escrow.seller id +
      (x.paidTo Escrow.buyer id + (x.feeAccrued id + x.writtenOff id))) := by
  unfold Step.paidTo Step.feeAccrued Step.writtenOff
  rcases hinput : x.input with ⟨env, call⟩ | move <;> rw [hinput] at h
  · cases (step_invoke h).row id with
    | same hrow hother => simp [Step.onEscrow_other _ hinput hother, hrow]
    | opened hrow hnew _ hstatus =>
      have hnone := hs.fresh hnew
      simp [Step.onEscrow_none _ hnone, hrow, hnone, disbursed, hstatus]
    | changed hrow hchange hpost =>
      have hmoved := hchange.disbursed (hs.records id _ hrow)
      simp only [Step.onEscrow_named _ hinput hchange.escrowId_eq hrow, hpost, Step.transfers]
      simpa [State.change, Tokens.foldl_move_transfers, hrow] using hmoved
  · simp [Step.onEscrow, hinput, step_drift h]

theorem writtenOff_nonneg {x : Step contract}
    (h : (machine contract).step x.pre x.input = .ok (x.output, x.post)) (id : Nat) :
    0 ≤ x.writtenOff id := by
  rcases hinput : x.input with ⟨env, call⟩ | move
  · rw [hinput] at h
    cases (step_invoke h).row id with
    | same _ hother => exact (Step.onEscrow_other _ hinput hother).ge
    | opened _ _ hkind => exact (Step.onEscrow_other _ hinput (by simp [hkind, Call.escrowId])).ge
    | changed hrow hchange _ =>
      rw [Step.writtenOff, Step.onEscrow_named _ hinput hchange.escrowId_eq hrow]
      exact hchange.leftover_nonneg
  · simp [Step.writtenOff, Step.onEscrow, hinput]

/-- Nothing is written off exactly when a resolution allocates all that is locked. -/
theorem writtenOff_eq_zero {x : Step contract} {id : Nat} :
    x.writtenOff id = 0 ↔ x.AllocatesAll id := by
  unfold Step.writtenOff Step.AllocatesAll
  constructor
  · intro h env arbiter toBuyer toSeller fee e hinput hrow
    rw [Step.onEscrow_named _ hinput rfl hrow] at h
    simp only [Call.leftover] at h
    omega
  · intro h
    rcases hinput : x.input with ⟨env, call⟩ | move
    · rcases hrow : x.pre.escrow id with _ | e
      · exact Step.onEscrow_none _ hrow
      · by_cases hnamed : call.escrowId = some id
        · rw [Step.onEscrow_named _ hinput hnamed hrow]
          cases call with
          | resolveDispute arbiter named toBuyer toSeller fee =>
            obtain rfl : named = id := by simpa [Call.escrowId] using hnamed
            have := h env arbiter toBuyer toSeller fee e hinput hrow
            simp only [Call.leftover]
            omega
          | _ => rfl
        · exact Step.onEscrow_other _ hinput hnamed
    · simp [Step.onEscrow, hinput]

end Steps

end Conservation

variable {contract : Address}

/-- The fees in `token` that a history of records accounts for. -/
def recordedFees (token : Address) (history : List FeeRecord) : Int :=
  (history.map fun r => if r.token = token then r.amount else 0).sum

/-- What a step withdrew from the fees in `token`. -/
def Step.withdrawn (token : Address) (x : Step contract) : Int :=
  match x.input with
  | .invoke _ (.withdrawFees _ k _ amount) => if k = token then amount else 0
  | _ => 0

/-- The fee in `token` that a resolution collected in this step. -/
def Step.resolutionFee (token : Address) (x : Step contract) : Int :=
  match x.input with
  | .invoke _ (.resolveDispute _ id _ _ fee) =>
      match x.pre.escrow id with
      | some e => if e.token = token then fee else 0
      | none => 0
  | _ => 0

/-- This step does not resolve a dispute in `token` with a fee. -/
def Step.NoResolutionFee (token : Address) (x : Step contract) : Prop :=
  ∀ env arbiter id toBuyer toSeller fee e,
    x.input = .invoke env (.resolveDispute arbiter id toBuyer toSeller fee) →
    x.pre.escrow id = some e → e.token = token → fee = 0

section Steps

variable {x : Step contract} {token : Address}

theorem recordedFees_append (history records : List FeeRecord) :
    recordedFees token (history ++ records) =
      recordedFees token history + recordedFees token records := by
  simp [recordedFees]

/-- What a change accrues in fees it also records, unless it is a resolution. -/
theorem Change.recorded {env : Env contract} {s : State} {call : Call} {id : Nat} {e e' : Escrow}
    {ts : List Transfer} {fee : Int} {records : List FeeRecord}
    (h : Change env s call id e e' ts fee records) (hrow : s.escrow id = some e)
    (token : Address) (o : Option Nat) (s' : State) :
    (if e.token = token then fee else 0) =
      recordedFees token records + Step.resolutionFee token ⟨s, .invoke env call, o, s'⟩ := by
  cases h <;> simp [recordedFees, Step.resolutionFee, hrow]

/-- The accrued fees in excess of the recorded ones grow by the fees of resolutions and shrink by
the withdrawals. -/
theorem step_fees
    (h : (machine contract).step x.pre x.input = .ok (x.output, x.post)) :
    x.post.protocolFees token - recordedFees token x.post.feeHistory =
      x.pre.protocolFees token - recordedFees token x.pre.feeHistory +
        (x.resolutionFee token + -x.withdrawn token) := by
  obtain ⟨s, i, o, s'⟩ := x
  dsimp only at h ⊢
  cases i with
  | drift move => simp [Step.resolutionFee, Step.withdrawn, step_drift h]
  | invoke env call =>
    cases execute_effect h with
    | configure same kind =>
      obtain ⟨_, _, hfees, hhistory, _⟩ := same
      rw [hfees, hhistory]
      obtain ⟨a, b, rfl | rfl | rfl | ⟨_, _, rfl⟩⟩ := kind <;>
        simp [Step.resolutionFee, Step.withdrawn]
    | create _ _ _ _ _ _ hfees hhistory _ =>
      simp [Step.resolutionFee, Step.withdrawn, hfees, hhistory]
    | @change volume _ id e e' ts fee records hrow hchange =>
      have hrecorded := hchange.recorded hrow token o (s.change id e e' ts fee records volume)
      have hwithdrawn : Step.withdrawn token
          ⟨s, .invoke env call, o, s.change id e e' ts fee records volume⟩ = 0 := by
        cases hchange <;> rfl
      rw [hwithdrawn, State.change_fees, State.change_feeHistory, recordedFees_append]
      omega
    | @withdraw _ k =>
      rcases eq_or_ne token k with rfl | hne
      · simp only [Step.resolutionFee, Step.withdrawn, Function.update_self, if_pos]
        omega
      · simp [Step.resolutionFee, Step.withdrawn, hne, hne.symm]

theorem resolutionFee_nonneg
    (h : (machine contract).step x.pre x.input = .ok (x.output, x.post)) :
    0 ≤ x.resolutionFee token := by
  obtain ⟨s, i, o, s'⟩ := x
  dsimp only at h
  cases i with
  | drift move => exact le_rfl
  | invoke env call =>
    cases execute_effect h with
    | configure _ kind => obtain ⟨a, b, rfl | rfl | rfl | ⟨_, _, rfl⟩⟩ := kind <;> exact le_rfl
    | create | withdraw => exact le_rfl
    | change _ hrow hchange =>
      cases hchange with
      | resolve _ _ _ hparts _ =>
        simp only [Step.resolutionFee, hrow]
        split_ifs
        · exact hparts.2.2
        · exact le_rfl
      | _ => exact le_rfl

theorem resolutionFee_eq_zero : x.resolutionFee token = 0 ↔ x.NoResolutionFee token := by
  unfold Step.NoResolutionFee
  constructor
  · intro h env arbiter id toBuyer toSeller fee e hinput hrow htoken
    simpa [Step.resolutionFee, hinput, hrow, htoken] using h
  · intro h
    unfold Step.resolutionFee
    split
    · next env arbiter id toBuyer toSeller fee hinput =>
      split
      · next e hrow =>
        split_ifs with htoken
        · exact h env arbiter id toBuyer toSeller fee e hinput hrow htoken
        · rfl
      · rfl
    · rfl

end Steps

/-- Over every run, the accrued fees in a token and the withdrawn ones are together what the fee
history records for that token, exactly when no dispute in that token was resolved with a fee. -/
theorem run_fee_ledger_iff (tokens : Tokens) (is : List (Input contract)) (token : Address) :
    let m := machine contract
    let s := m.run (State.empty tokens) is
    s.protocolFees token + m.tally (Step.withdrawn token) (State.empty tokens) is =
        recordedFees token s.feeHistory ↔
      ∀ x ∈ m.journal (State.empty tokens) is, Step.NoResolutionFee token x := by
  intro m s
  have hbalance := Machine.run_balance (m := m)
    (f := fun s => s.protocolFees token - recordedFees token s.feeHistory)
    (w := fun x => Step.resolutionFee token x + -Step.withdrawn token x)
    (empty_proper tokens) (fun _ _ _ _ hs h => step_proper hs h)
    (fun s i o s' _ h => step_fees (x := ⟨s, i, o, s'⟩) h) is
  have hzero : m.tally (Step.resolutionFee token) (State.empty tokens) is = 0 ↔
      ∀ x ∈ m.journal (State.empty tokens) is, Step.NoResolutionFee token x := by
    rw [Machine.tally, sum_eq_zero_of_nonneg]
    · simp only [List.forall_mem_map, resolutionFee_eq_zero]
    · rw [List.forall_mem_map]
      exact fun x hx => resolutionFee_nonneg (Machine.journal_step hx).1
  rw [Machine.tally_add, Machine.tally_neg] at hbalance
  change s.protocolFees token - recordedFees token s.feeHistory = 0 + _ at hbalance
  rw [← hzero]
  omega

/-- The sample escrow, disputed and resolved with a fee of 100. -/
def sampleFeeResolution : List (Input ⟨0⟩) :=
  sampleFunding ++ [.disputeEscrow ⟨1⟩ 1, .resolveDispute ⟨5⟩ 1 400 500 100].map
    (.invoke sampleEnv)

/-- The fee of a resolution is accrued but no record of it is kept. -/
theorem resolution_fee_unrecorded :
    let m := machine ⟨0⟩
    let s := m.run (State.empty sampleTokens) sampleFeeResolution
    s.protocolFees ⟨3⟩ + m.tally (Step.withdrawn ⟨3⟩) (State.empty sampleTokens)
        sampleFeeResolution = 100 ∧
      s.feeHistory = [] ∧ recordedFees ⟨3⟩ s.feeHistory = 0 := by
  decide +kernel

end ChainVerse.EscrowContract
