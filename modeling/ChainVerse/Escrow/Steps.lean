import ChainVerse.Escrow.Contract
import Mathlib.Algebra.Order.Ring.Int

namespace ChainVerse.EscrowContract

variable {contract : Address} {env : Env contract} {s s' : State}

/-- The transfers a resolution makes, one for each positive part. -/
def allocationTransfers (contract token recipient : Address) (amount : Int) : List Transfer :=
  if 0 < amount then [⟨token, contract, recipient, amount⟩] else []

/-- What a call does to the escrow it names: the record before and after, the transfers it asks
of the token, the fee it accrues and the fee records it appends. Each case carries the checks
the call has passed. -/
inductive Change (env : Env contract) (s : State) :
    Call → Nat → Escrow → Escrow → List Transfer → Int → List FeeRecord → Prop where
  | fund {id : Nat} {e : Escrow} (signed : env.signers e.buyer = true)
      (status : e.status = .created) (early : env.timestamp < e.expiration) :
      Change env s (.fundEscrow e.buyer id) id e { e with status := .funded }
        [⟨e.token, e.buyer, contract, e.amount⟩] 0 []
  | release {caller : Address} {id : Nat} {e : Escrow} {fee payout : Int}
      (signed : env.signers caller = true) (role : caller = e.buyer ∨ s.admin = some caller)
      (status : e.status = .funded) (early : env.timestamp < e.expiration)
      (split : computeFeeAndPayout e.amount (getProtocolFeeBps s) = .ok (fee, payout)) :
      Change env s (.releaseEscrow caller id) id e { e with status := .completed, amount := 0 }
        [⟨e.token, contract, e.seller, payout⟩] fee [⟨id, e.token, fee, env.timestamp⟩]
  | partialRelease {caller : Address} {id : Nat} {e : Escrow} {part fee payout : Int}
      (signed : env.signers caller = true) (role : caller = e.buyer ∨ s.admin = some caller)
      (status : e.status = .funded) (early : env.timestamp < e.expiration)
      (positive : 0 < part) (covered : part ≤ e.amount)
      (split : computeFeeAndPayout part (getProtocolFeeBps s) = .ok (fee, payout)) :
      Change env s (.partialRelease caller id part) id e
        { e with
          amount := e.amount - part
          status := if e.amount - part = 0 then .completed else e.status }
        [⟨e.token, contract, e.seller, payout⟩] fee [⟨id, e.token, fee, env.timestamp⟩]
  | dispute {id : Nat} {e : Escrow} (signed : env.signers e.buyer = true)
      (status : e.status = .funded) :
      Change env s (.disputeEscrow e.buyer id) id e { e with status := .disputed } [] 0 []
  | resolve {arbiter : Address} {id : Nat} {e : Escrow} {toBuyer toSeller fee : Int}
      (signed : env.signers arbiter = true) (role : s.arbiter = some arbiter)
      (status : e.status = .disputed) (parts : 0 ≤ toBuyer ∧ 0 ≤ toSeller ∧ 0 ≤ fee)
      (covered : toBuyer + toSeller + fee ≤ e.amount) :
      Change env s (.resolveDispute arbiter id toBuyer toSeller fee) id e
        { e with status := .completed, amount := 0 }
        (allocationTransfers contract e.token e.buyer toBuyer ++
          allocationTransfers contract e.token e.seller toSeller) fee []
  | refund {id : Nat} {e : Escrow} (signed : env.signers e.buyer = true)
      (status : e.status = .funded) (late : e.expiration ≤ env.timestamp) :
      Change env s (.refundEscrow e.buyer id) id e { e with status := .cancelled, amount := 0 }
        [⟨e.token, contract, e.buyer, e.amount⟩] 0 []

/-- The state after a change; the running volume is the only other field that may move. -/
def State.change (s : State) (id : Nat) (e e' : Escrow) (transfers : List Transfer) (fee : Int)
    (records : List FeeRecord) (volume : Int) : State :=
  { s with
    escrow := Function.update s.escrow id (some e')
    protocolFees := Function.update s.protocolFees e.token (s.protocolFees e.token + fee)
    feeHistory := s.feeHistory ++ records
    totalVolume := volume
    tokens := transfers.foldl Tokens.move s.tokens }

section Changed

variable {id : Nat} {e e' : Escrow} {ts : List Transfer} {fee volume : Int}
  {records : List FeeRecord}

@[simp] theorem State.change_escrow : (s.change id e e' ts fee records volume).escrow =
    Function.update s.escrow id (some e') := rfl

@[simp] theorem State.change_escrowCount :
    (s.change id e e' ts fee records volume).escrowCount = s.escrowCount := rfl

@[simp] theorem State.change_feeHistory :
    (s.change id e e' ts fee records volume).feeHistory = s.feeHistory ++ records := rfl

@[simp] theorem State.change_tokens :
    (s.change id e e' ts fee records volume).tokens = ts.foldl Tokens.move s.tokens := rfl

theorem State.change_fees (token : Address) :
    (s.change id e e' ts fee records volume).protocolFees token =
      s.protocolFees token + if e.token = token then fee else 0 := by
  rcases eq_or_ne token e.token with rfl | hne
  · simp [State.change]
  · simp [State.change, hne, hne.symm]

end Changed

/-- The parts of the state that hold escrows and money. -/
def State.SameBooks (s s' : State) : Prop :=
  s'.escrow = s.escrow ∧ s'.escrowCount = s.escrowCount ∧ s'.protocolFees = s.protocolFees ∧
    s'.feeHistory = s.feeHistory ∧ s'.tokens = s.tokens

/-- Everything an accepted call can have done. -/
inductive Effect (env : Env contract) (s : State) : Call → State → Prop where
  | configure {call : Call} {s' : State} (same : s.SameBooks s')
      (kind : ∃ a b, call = .setAdmin a ∨ call = .whitelistToken a b ∨ call = .setArbiter a b ∨
        ∃ bps ≤ maxFeeBps, call = .setProtocolFeeBps a bps) : Effect env s call s'
  | create {buyer seller token : Address} {amount : Int} {expiration : Nat} {s' : State}
      (signed : env.signers buyer = true) (positive : 0 < amount) (parties : buyer ≠ seller)
      (later : env.timestamp < expiration)
      (record : s'.escrow = Function.update s.escrow (s.escrowCount + 1) (some
        ⟨buyer, seller, token, amount, amount, .created, expiration⟩))
      (count : s'.escrowCount = s.escrowCount + 1) (fees : s'.protocolFees = s.protocolFees)
      (history : s'.feeHistory = s.feeHistory) (tokens : s'.tokens = s.tokens) :
      Effect env s (.createEscrow buyer seller token amount expiration) s'
  | change (volume : Int) {call : Call} {id : Nat} {e e' : Escrow} {transfers : List Transfer}
      {fee : Int} {records : List FeeRecord} (stored : s.escrow id = some e)
      (change : Change env s call id e e' transfers fee records) :
      Effect env s call (s.change id e e' transfers fee records volume)
  | withdraw {caller token recipient : Address} {amount : Int}
      (signed : env.signers caller = true) (role : s.admin = some caller)
      (positive : 0 < amount) (accrued : amount ≤ s.protocolFees token) :
      Effect env s (.withdrawFees caller token recipient amount)
        { s with
          tokens := s.tokens.move ⟨token, contract, recipient, amount⟩
          protocolFees :=
            Function.update s.protocolFees token (s.protocolFees token - amount) }

/-- The split of an amount into fee and payout loses nothing and neither part is negative. -/
theorem computeFeeAndPayout_split {amount fee payout : Int} {bps : Nat}
    (h : computeFeeAndPayout amount bps = .ok (fee, payout)) :
    0 ≤ amount ∧ 0 ≤ fee ∧ 0 ≤ payout ∧ fee + payout = amount := by
  simp only [computeFeeAndPayout, bind_eq_ok, refuseIf_eq_ok, orRefuse_eq_ok, fitsU_eq_some,
    checkedSub_eq_some, pure_eq_ok, exists_unit, Prod.mk.injEq] at h
  obtain ⟨hneg, product, ⟨_, rfl⟩, left, ⟨hle, rfl⟩, rfl, rfl⟩ := h
  omega

/-- An entry point without a return value succeeds when its body does. -/
theorem answerless_eq_ok {x : Outcome State} {o : Option Nat} :
    (none, ·) <$> x = .ok (o, s') ↔ none = o ∧ x = .ok s' := by
  simp [and_comm]

theorem requireAdminAddr_eq_ok {admin : Address} :
    requireAdminAddr env s admin = .ok () ↔ s.admin = some admin ∧ env.signers admin = true := by
  simp [requireAdminAddr]

theorem authorizeReleaser_eq_ok {caller buyer : Address} :
    authorizeReleaser env s caller buyer = .ok () ↔
      env.signers caller = true ∧ (caller = buyer ∨ s.admin = some caller) := by
  simp only [authorizeReleaser, bind_eq_ok, requireAuth_eq_ok, refuseIf_eq_ok, exists_unit]
  tauto

theorem payAllocation_eq_ok {tokens tokens' : Tokens} {token recipient : Address} {amount : Int}
    (h : payAllocation env tokens token recipient amount = .ok tokens') :
    tokens' = (allocationTransfers contract token recipient amount).foldl Tokens.move tokens := by
  unfold payAllocation at h
  unfold allocationTransfers
  split_ifs at h ⊢
  · exact (Tokens.transfer_eq_ok.mp h).2.2.2.symm
  · exact (pure_eq_ok.mp h).symm

/-- A zero fee leaves the accrued fees unwritten, which is the same as adding zero. -/
theorem accrueAllocation_eq_ok {token : Address} {amount : Int} (hamount : 0 ≤ amount)
    (h : accrueAllocation s token amount = .ok s') :
    s' = { s with
      protocolFees := Function.update s.protocolFees token (s.protocolFees token + amount) } := by
  unfold accrueAllocation at h
  split_ifs at h with hpos
  · simp only [accumulateProtocolFee, bind_eq_ok, orRefuse_eq_ok, fitsI128_eq_some,
      pure_eq_ok] at h
    obtain ⟨total, ⟨_, rfl⟩, rfl⟩ := h
    rfl
  · have hzero : amount = 0 := by omega
    rw [← pure_eq_ok.mp h, hzero, add_zero, Function.update_eq_self]

theorem createEscrow_effect {buyer seller token : Address} {amount : Int} {expiration id : Nat}
    (h : createEscrow env s buyer seller token amount expiration = .ok (id, s')) :
    id = s.escrowCount + 1 ∧ s.escrowCount + 1 < 2^64 ∧
      Effect env s (.createEscrow buyer seller token amount expiration) s' := by
  simp [createEscrow, nextEscrowId, saveEscrow, appendToTokenIndex, appendToBuyerIndex,
    appendToSellerIndex] at h
  obtain ⟨hpos, hlater, hparties, hsigned, _, hcount, rfl, rfl⟩ := h
  exact ⟨rfl, hcount, .create hsigned hpos hparties hlater rfl rfl rfl rfl rfl⟩

theorem fundEscrow_effect {caller : Address} {id : Nat}
    (h : fundEscrow env s caller id = .ok s') : Effect env s (.fundEscrow caller id) s' := by
  simp [fundEscrow, loadEscrow, addToTotalVolume, saveEscrow, Tokens.transfer_eq_ok] at h
  obtain ⟨hsigned, e, hstored, rfl, hstatus, hearly, _, _, rfl⟩ := h
  have : Effect env s (.fundEscrow e.buyer id) _ :=
    .change (s.totalVolume + e.amount) hstored (.fund hsigned hstatus hearly)
  simpa [State.change] using this

theorem releaseEscrow_effect {caller : Address} {id : Nat}
    (h : releaseEscrow env s caller id = .ok s') : Effect env s (.releaseEscrow caller id) s' := by
  simp only [releaseEscrow, loadEscrow, accumulateProtocolFee, appendFeeRecord, saveEscrow,
    bind_eq_ok, orRefuse_eq_ok, authorizeReleaser_eq_ok, refuseIf_eq_ok, exists_unit, not_le,
    not_not, Prod.exists, Tokens.transfer_eq_ok, fitsI128_eq_some, pure_eq_ok] at h
  obtain ⟨e, hstored, ⟨hsigned, hrole⟩, hearly, _, hstatus, fee, payout, hsplit, tokens,
    ⟨_, _, _, rfl⟩, _, ⟨total, ⟨_, rfl⟩, rfl⟩, rfl⟩ := h
  exact .change s.totalVolume hstored (.release hsigned hrole hstatus hearly hsplit)

theorem partialRelease_effect {caller : Address} {id : Nat} {part : Int}
    (h : partialRelease env s caller id part = .ok s') :
    Effect env s (.partialRelease caller id part) s' := by
  simp only [partialRelease, loadEscrow, accumulateProtocolFee, appendFeeRecord, saveEscrow,
    bind_eq_ok, orRefuse_eq_ok, authorizeReleaser_eq_ok, refuseIf_eq_ok, exists_unit, not_le,
    not_lt, not_not, Prod.exists, Tokens.transfer_eq_ok, fitsI128_eq_some, pure_eq_ok] at h
  obtain ⟨hpos, e, hstored, _, hstatus, ⟨hsigned, hrole⟩, hearly, hcovered, fee, payout, hsplit,
    tokens, ⟨_, _, _, rfl⟩, _, ⟨total, ⟨_, rfl⟩, rfl⟩, rfl⟩ := h
  exact .change s.totalVolume hstored
    (.partialRelease hsigned hrole hstatus hearly hpos hcovered hsplit)

theorem dispute_effect {caller : Address} {id : Nat} (h : dispute env s caller id = .ok s') :
    Effect env s (.disputeEscrow caller id) s' := by
  simp [dispute, loadEscrow, saveEscrow] at h
  obtain ⟨hsigned, e, hstored, rfl, _, hstatus, _, rfl⟩ := h
  have : Effect env s (.disputeEscrow e.buyer id) _ :=
    .change s.totalVolume hstored (.dispute hsigned hstatus)
  simpa [State.change] using this

theorem resolveDispute_effect {arbiter : Address} {id : Nat} {toBuyer toSeller fee : Int}
    (h : resolveDispute env s arbiter id toBuyer toSeller fee = .ok s') :
    Effect env s (.resolveDispute arbiter id toBuyer toSeller fee) s' := by
  simp only [resolveDispute, loadEscrow, saveEscrow, bind_eq_ok, orRefuse_eq_ok, refuseIf_eq_ok,
    exists_unit, not_or, not_lt, not_not, requireAuth_eq_ok, fitsI128_eq_some, pure_eq_ok] at h
  obtain ⟨_, hrole, rfl, hsigned, e, hstored, hstatus, _, hparts, paid, ⟨_, rfl⟩, total, ⟨_, rfl⟩,
    hcovered, tokens₁, hbuyer, tokens₂, hseller, s₁, hfee, rfl⟩ := h
  have htokens : tokens₂ = (allocationTransfers contract e.token e.buyer toBuyer ++
      allocationTransfers contract e.token e.seller toSeller).foldl Tokens.move s.tokens := by
    rw [List.foldl_append, ← payAllocation_eq_ok hbuyer, ← payAllocation_eq_ok hseller]
  have : Effect env s (.resolveDispute _ id toBuyer toSeller fee) _ :=
    .change s.totalVolume hstored (.resolve hsigned hrole hstatus hparts hcovered)
  rw [accrueAllocation_eq_ok hparts.2.2 hfee, htokens]
  simpa [State.change] using this

theorem refundEscrow_effect {caller : Address} {id : Nat}
    (h : refundEscrow env s caller id = .ok s') : Effect env s (.refundEscrow caller id) s' := by
  simp [refundEscrow, loadEscrow, saveEscrow, Tokens.transfer_eq_ok] at h
  obtain ⟨hsigned, e, hstored, rfl, hstatus, hlate, _, _, rfl⟩ := h
  have : Effect env s (.refundEscrow e.buyer id) _ :=
    .change s.totalVolume hstored (.refund hsigned hstatus hlate)
  simpa [State.change] using this

theorem withdrawFees_effect {caller token recipient : Address} {amount : Int}
    (h : withdrawFees env s caller token recipient amount = .ok s') :
    Effect env s (.withdrawFees caller token recipient amount) s' := by
  simp [withdrawFees, decrementProtocolFee, requireAdminAddr_eq_ok, Tokens.transfer_eq_ok] at h
  obtain ⟨⟨hrole, hsigned⟩, hpos, haccrued, _, _, rfl⟩ := h
  exact .withdraw hsigned hrole hpos haccrued

/-- What an accepted entry point has done. -/
theorem execute_effect {call : Call} {o : Option Nat} (h : execute env s call = .ok (o, s')) :
    Effect env s call s' := by
  cases call with
  | createEscrow buyer seller token amount expiration =>
    simp only [execute, bind_eq_ok, Prod.exists, pure_eq_ok, Prod.mk.injEq] at h
    obtain ⟨id, _, hcreate, _, rfl⟩ := h
    exact (createEscrow_effect hcreate).2.2
  | setAdmin admin =>
    simp only [execute, answerless_eq_ok, setAdmin] at h
    refine .configure ?_ ⟨admin, admin, .inl rfl⟩
    obtain ⟨_, h⟩ := h
    split at h <;> simp only [bind_eq_ok, pure_eq_ok] at h <;>
      obtain ⟨_, _, rfl⟩ := h <;> exact ⟨rfl, rfl, rfl, rfl, rfl⟩
  | whitelistToken admin token =>
    simp only [execute, answerless_eq_ok, whitelistToken, bind_eq_ok, pure_eq_ok] at h
    obtain ⟨_, _, _, rfl⟩ := h
    exact .configure ⟨rfl, rfl, rfl, rfl, rfl⟩ ⟨admin, token, .inr (.inl rfl)⟩
  | setArbiter admin arbiter =>
    simp only [execute, answerless_eq_ok, setArbiter, bind_eq_ok, pure_eq_ok] at h
    obtain ⟨_, _, _, rfl⟩ := h
    exact .configure ⟨rfl, rfl, rfl, rfl, rfl⟩ ⟨admin, arbiter, .inr (.inr (.inl rfl))⟩
  | setProtocolFeeBps admin bps =>
    simp only [execute, answerless_eq_ok, setProtocolFeeBps, bind_eq_ok, refuseIf_eq_ok, not_lt,
      pure_eq_ok] at h
    obtain ⟨_, _, _, _, hbps, rfl⟩ := h
    exact .configure ⟨rfl, rfl, rfl, rfl, rfl⟩
      ⟨admin, admin, .inr (.inr (.inr ⟨bps, hbps, rfl⟩))⟩
  | fundEscrow caller id => exact fundEscrow_effect (answerless_eq_ok.mp h).2
  | releaseEscrow caller id => exact releaseEscrow_effect (answerless_eq_ok.mp h).2
  | partialRelease caller id part => exact partialRelease_effect (answerless_eq_ok.mp h).2
  | disputeEscrow caller id => exact dispute_effect (answerless_eq_ok.mp h).2
  | resolveDispute arbiter id toBuyer toSeller fee =>
    exact resolveDispute_effect (answerless_eq_ok.mp h).2
  | refundEscrow caller id => exact refundEscrow_effect (answerless_eq_ok.mp h).2
  | withdrawFees caller token recipient amount =>
    exact withdrawFees_effect (answerless_eq_ok.mp h).2

/-- The escrow a call names. -/
def Call.escrowId : Call → Option Nat
  | .fundEscrow _ id | .releaseEscrow _ id | .partialRelease _ id _ | .disputeEscrow _ id
  | .resolveDispute _ id _ _ _ | .refundEscrow _ id => some id
  | _ => none

/-- What an accepted call has done to one row of the escrow table. -/
inductive RowEffect (env : Env contract) (s : State) (call : Call) (s' : State) (id : Nat) :
    Prop where
  | same (row : s'.escrow id = s.escrow id) (other : call.escrowId ≠ some id)
  | opened {e : Escrow} (row : s'.escrow id = some e) (new : id = s.escrowCount + 1)
      (kind : call = .createEscrow e.buyer e.seller e.token e.amount e.expiration)
      (status : e.status = .created) (original : e.amount = e.originalAmount)
      (positive : 0 < e.amount) (parties : e.buyer ≠ e.seller) (count : s'.escrowCount = id)
  | changed {e e' : Escrow} {transfers : List Transfer} {fee : Int} {records : List FeeRecord}
      {volume : Int} (row : s.escrow id = some e)
      (change : Change env s call id e e' transfers fee records)
      (post : s' = s.change id e e' transfers fee records volume)

theorem Change.escrowId_eq {call : Call} {id : Nat} {e e' : Escrow} {ts : List Transfer}
    {fee : Int} {records : List FeeRecord} (h : Change env s call id e e' ts fee records) :
    call.escrowId = some id := by
  cases h <;> rfl

theorem Effect.row {call : Call} (h : Effect env s call s') (id : Nat) :
    RowEffect env s call s' id := by
  cases h with
  | configure same kind =>
    refine .same (by rw [same.1]) ?_
    obtain ⟨a, b, rfl | rfl | rfl | ⟨_, _, rfl⟩⟩ := kind <;> simp [Call.escrowId]
  | create _ hpos hparties _ hrecord hcount _ _ _ =>
    rcases eq_or_ne id (s.escrowCount + 1) with rfl | hne
    · exact .opened (by rw [hrecord, Function.update_self]) rfl rfl rfl rfl hpos hparties hcount
    · exact .same (by rw [hrecord, Function.update_of_ne hne]) (by simp [Call.escrowId])
  | @change _ _ named _ _ _ _ _ hrow hchange =>
    rcases eq_or_ne id named with rfl | hne
    · exact .changed hrow hchange rfl
    · refine .same (Function.update_of_ne hne _ _) ?_
      rw [hchange.escrowId_eq]
      simpa using hne.symm
  | withdraw => exact .same rfl (by simp [Call.escrowId])

/-- A call never lowers the escrow counter. -/
theorem Effect.count_le {call : Call} (h : Effect env s call s') :
    s.escrowCount ≤ s'.escrowCount := by
  cases h with
  | configure same _ => exact same.2.1.ge
  | create _ _ _ _ _ hcount _ _ _ => omega
  | change | withdraw => exact le_rfl

end ChainVerse.EscrowContract
