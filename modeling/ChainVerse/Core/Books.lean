import ChainVerse.Core.Contract
import ChainVerse.Framework.Registers

namespace ChainVerse.ChainverseCore

section Steps

variable {contract : Address} {env : Env contract} {s s' : State} {call : Call} {o : Option Nat}

/-- The escrow that a call takes out of `pending`. -/
def Call.exits : Call → Option Nat
  | .releaseEscrow _ id => some id
  | .cancelEscrow _ id => some id
  | .buyerCancelEscrow _ id => some id
  | .refundExpiredEscrow id => some id
  | _ => none

/-- The event that is counted when an escrow ends. -/
def EscrowStatus.event : EscrowStatus → Symbol
  | .completed => evtEscrowReleased
  | _ => evtEscrowCancelled

/-- A call that ends an escrow: who is paid, and what becomes of the record. Each case has the checks
that the call has passed. -/
inductive Closing (env : Env contract) (id : Nat) (r : EscrowRecord) :
    Call → Address → EscrowStatus → Prop where
  | release (signed : env.signers r.depositor = true) :
      Closing env id r (.releaseEscrow r.depositor id) r.recipient .completed
  | cancel (signed : env.signers r.depositor = true) :
      Closing env id r (.cancelEscrow r.depositor id) r.depositor .cancelled
  | buyerCancel (signed : env.signers r.depositor = true) :
      Closing env id r (.buyerCancelEscrow r.depositor id) r.depositor .cancelled
  | refundExpired (expires : r.expiresAt ≠ 0) (late : r.expiresAt ≤ env.timestamp) :
      Closing env id r (.refundExpiredEscrow id) r.depositor .expired

/-- The state after a new escrow. -/
def State.opened (s : State) (contract : Address) (r : EscrowRecord) : State :=
  { s with
    nextId := s.nextId + 1
    record := Function.update s.record s.nextId (some r)
    buyerIndex := Function.update s.buyerIndex r.depositor (s.buyerIndex r.depositor ++ [s.nextId])
    sellerIndex := Function.update s.sellerIndex r.recipient
      (s.sellerIndex r.recipient ++ [s.nextId])
    eventCount := Function.update s.eventCount evtEscrowCreated (s.eventCount evtEscrowCreated + 1)
    tokens := s.tokens.move ⟨r.token, r.depositor, contract, r.amount⟩ }

/-- The state after an escrow has been paid to `payee`. -/
def State.closed (s : State) (contract : Address) (r : EscrowRecord) (payee : Address)
    (status : EscrowStatus) : State :=
  { s with
    record := Function.update s.record r.id (some { r with status })
    eventCount := Function.update s.eventCount status.event (s.eventCount status.event + 1)
    tokens := s.tokens.move ⟨r.token, contract, payee, r.amount⟩ }

/-- The parts of the state that tell of escrows stay. -/
structure SameBooks (s s' : State) : Prop where
  nextId : s'.nextId = s.nextId
  record : s'.record = s.record
  buyerIndex : s'.buyerIndex = s.buyerIndex
  sellerIndex : s'.sellerIndex = s.sellerIndex
  created : s'.eventCount evtEscrowCreated = s.eventCount evtEscrowCreated
  released : s'.eventCount evtEscrowReleased = s.eventCount evtEscrowReleased
  cancelled : s'.eventCount evtEscrowCancelled = s.eventCount evtEscrowCancelled

/-- Everything that an accepted call can have done. -/
inductive Effect (env : Env contract) (s : State) : Call → State → Prop where
  | configure {call : Call} {s' : State} (kind : call.exits = none) (same : SameBooks s s')
      (tokens : s'.tokens = s.tokens) : Effect env s call s'
  | opened {r : EscrowRecord} (signed : env.signers r.depositor = true) (id : r.id = s.nextId)
      (pending : r.status = .pending) :
      Effect env s (.createEscrow r.depositor r.recipient r.token r.amount r.expiresAt)
        (s.opened contract r)
  | closed {call : Call} {id : Nat} {r : EscrowRecord} {payee : Address} {status : EscrowStatus}
      (stored : s.record id = some r) (pending : r.status = .pending) (sent : 0 ≤ r.amount)
      (closing : Closing env id r call payee status) :
      Effect env s call (s.closed contract r payee status)

section Inversion

theorem answerless_eq_ok {x : Outcome State} : (none, ·) <$> x = .ok (o, s') ↔ none = o ∧ x = .ok s' := by
  simp [and_comm]

theorem recordEvent_eq_ok {event : Symbol} : recordEvent s event = .ok s' ↔
    s.eventCount event + 1 < 2^64 ∧
      { s with eventCount := Function.update s.eventCount event (s.eventCount event + 1) } = s' := by
  simp only [recordEvent, count, bind_eq_ok, orRefuse_eq_ok, fitsU_eq_some, pure_eq_ok]
  constructor
  · intro h
    obtain ⟨_, ⟨hfits, rfl⟩, hs'⟩ := h
    exact ⟨hfits, hs'⟩
  · intro h
    exact ⟨_, ⟨h.1, rfl⟩, h.2⟩

theorem payOut_eq_ok {r : EscrowRecord} {payee : Address} {status : EscrowStatus}
    (h : payOut env s r payee status = .ok s') :
    0 ≤ r.amount ∧ s' = { s with
      record := Function.update s.record r.id (some { r with status })
      tokens := s.tokens.move ⟨r.token, contract, payee, r.amount⟩ } := by
  simp only [payOut, save, bind_eq_ok, Tokens.transfer_eq_ok, pure_eq_ok] at h
  obtain ⟨_, ⟨_, hsent, _, rfl⟩, rfl⟩ := h
  exact ⟨hsent, rfl⟩

/-- An entry point that ends an escrow counts what the escrow module has done. -/
theorem closed_of_recorded {x : Outcome State} {id : Nat} {event : Symbol}
    (h : (do assertNotPaused s; let s ← x; recordEvent s event) = .ok s')
    (hexit : ∀ middle, x = .ok middle → ∃ r payee status, s.record id = some r ∧ r.status = .pending ∧
      payOut env s r payee status = .ok middle ∧ status.event = event ∧
      Closing env id r call payee status) : Effect env s call s' := by
  simp only [bind_eq_ok] at h
  obtain ⟨_, _, middle, hx, hrecorded⟩ := h
  obtain ⟨r, payee, status, hstored, hpending, hpaid, rfl, hclosing⟩ := hexit middle hx
  obtain ⟨_, rfl⟩ := recordEvent_eq_ok.mp hrecorded
  obtain ⟨hsent, rfl⟩ := payOut_eq_ok hpaid
  exact .closed hstored hpending hsent hclosing

theorem releaseEscrow_effect {caller : Address} {id : Nat}
    (h : releaseEscrow env s caller id = .ok s') : Effect env s (.releaseEscrow caller id) s' := by
  apply closed_of_recorded h
  intro middle hmiddle
  simp only [release, load, bind_eq_ok, requireAuth_eq_ok, orRefuse_eq_ok, refuseIf_eq_ok, not_not,
    exists_unit] at hmiddle
  obtain ⟨hsigned, r, hstored, hpending, rfl, hpaid⟩ := hmiddle
  exact ⟨r, r.recipient, .completed, hstored, hpending, hpaid, rfl, .release hsigned⟩

theorem cancelEscrow_effect {caller : Address} {id : Nat}
    (h : cancelEscrow env s caller id = .ok s') : Effect env s (.cancelEscrow caller id) s' := by
  apply closed_of_recorded h
  intro middle hmiddle
  simp only [cancel, load, bind_eq_ok, requireAuth_eq_ok, orRefuse_eq_ok, refuseIf_eq_ok, not_not,
    exists_unit] at hmiddle
  obtain ⟨hsigned, r, hstored, hpending, rfl, hpaid⟩ := hmiddle
  exact ⟨r, r.depositor, .cancelled, hstored, hpending, hpaid, rfl, .cancel hsigned⟩

theorem buyerCancelEscrow_effect {buyer : Address} {id : Nat}
    (h : buyerCancelEscrow env s buyer id = .ok s') :
    Effect env s (.buyerCancelEscrow buyer id) s' := by
  apply closed_of_recorded h
  intro middle hmiddle
  simp only [buyerCancel, load, bind_eq_ok, requireAuth_eq_ok, orRefuse_eq_ok, refuseIf_eq_ok, not_not,
    exists_unit] at hmiddle
  obtain ⟨hsigned, r, hstored, rfl, hpending, hpaid⟩ := hmiddle
  exact ⟨r, r.depositor, .cancelled, hstored, hpending, hpaid, rfl, .buyerCancel hsigned⟩

theorem refundExpiredEscrow_effect {id : Nat}
    (h : refundExpiredEscrow env s id = .ok s') : Effect env s (.refundExpiredEscrow id) s' := by
  apply closed_of_recorded h
  intro middle hmiddle
  simp only [refundExpired, load, bind_eq_ok, orRefuse_eq_ok, refuseIf_eq_ok, not_not, not_lt,
    exists_unit] at hmiddle
  obtain ⟨r, hstored, hexpires, hlate, hpending, hpaid⟩ := hmiddle
  exact ⟨r, r.depositor, .expired, hstored, hpending, hpaid, rfl, .refundExpired hexpires hlate⟩

theorem createEscrow_effect {depositor recipient token : Address} {amount : Int}
    {expiresAt id : Nat}
    (h : createEscrow env s depositor recipient token amount expiresAt = .ok (id, s')) :
    Effect env s (.createEscrow depositor recipient token amount expiresAt) s' := by
  simp only [createEscrow, create, nextId, save, addToBuyerIndex, addToSellerIndex, bind_eq_ok,
    requireAuth_eq_ok, Tokens.transfer_eq_ok, orRefuse_eq_ok, fitsU_eq_some, pure_eq_ok, Prod.exists,
    Prod.mk.injEq, exists_unit, recordEvent_eq_ok] at h
  obtain ⟨_, _, _, ⟨hsigned, _, _, _, ⟨_, _, _, rfl⟩, _, _, ⟨_, ⟨_, rfl⟩, rfl, rfl⟩, rfl, rfl⟩,
    _, ⟨_, rfl⟩, _, rfl⟩ := h
  exact .opened (r := ⟨s.nextId, depositor, recipient, token, amount, .pending, env.timestamp,
    expiresAt⟩) hsigned rfl rfl

theorem configured {event : Symbol} {config : Option Config}
    (hcreated : event ≠ evtEscrowCreated) (hreleased : event ≠ evtEscrowReleased)
    (hcancelled : event ≠ evtEscrowCancelled) (hkind : call.exits = none)
    (h : recordEvent { s with config } event = .ok s') : Effect env s call s' := by
  obtain ⟨_, rfl⟩ := recordEvent_eq_ok.mp h
  exact .configure hkind ⟨rfl, rfl, rfl, rfl, Function.update_of_ne hcreated.symm _ _,
    Function.update_of_ne hreleased.symm _ _, Function.update_of_ne hcancelled.symm _ _⟩ rfl

/-- What an accepted entry point has done. -/
theorem execute_effect (h : execute env s call = .ok (o, s')) : Effect env s call s' := by
  cases call with
  | createEscrow depositor recipient token amount expiresAt =>
    simp only [execute, bind_eq_ok, Prod.exists, pure_eq_ok, Prod.mk.injEq] at h
    obtain ⟨id, _, hcreated, _, rfl⟩ := h
    exact createEscrow_effect hcreated
  | releaseEscrow caller id => exact releaseEscrow_effect (answerless_eq_ok.mp h).2
  | cancelEscrow caller id => exact cancelEscrow_effect (answerless_eq_ok.mp h).2
  | buyerCancelEscrow buyer id => exact buyerCancelEscrow_effect (answerless_eq_ok.mp h).2
  | refundExpiredEscrow id => exact refundExpiredEscrow_effect (answerless_eq_ok.mp h).2
  | initializeContract admin protocolFee supportedTokens =>
    have hdone := (answerless_eq_ok.mp h).2
    simp only [initializeContract, bind_eq_ok, pure_eq_ok] at hdone
    obtain ⟨_, _, _, _, rfl⟩ := hdone
    exact .configure rfl ⟨rfl, rfl, rfl, rfl, rfl, rfl, rfl⟩ rfl
  | pause caller =>
    have hdone := (answerless_eq_ok.mp h).2
    simp only [pause, bind_eq_ok, pure_eq_ok] at hdone
    obtain ⟨_, _, rfl⟩ := hdone
    exact .configure rfl ⟨rfl, rfl, rfl, rfl, rfl, rfl, rfl⟩ rfl
  | unpause caller =>
    have hdone := (answerless_eq_ok.mp h).2
    simp only [unpause, bind_eq_ok, pure_eq_ok] at hdone
    obtain ⟨_, _, rfl⟩ := hdone
    exact .configure rfl ⟨rfl, rfl, rfl, rfl, rfl, rfl, rfl⟩ rfl
  | updateConfig caller newProtocolFee newSupportedTokens =>
    have hdone := (answerless_eq_ok.mp h).2
    simp only [updateConfig, bind_eq_ok] at hdone
    obtain ⟨_, _, _, _, _, _, hrecorded⟩ := hdone
    exact configured (by decide) (by decide) (by decide) rfl hrecorded
  | transferAdmin caller newAdmin =>
    have hdone := (answerless_eq_ok.mp h).2
    simp only [transferAdmin, bind_eq_ok] at hdone
    obtain ⟨_, _, _, _, hrecorded⟩ := hdone
    exact configured (by decide) (by decide) (by decide) rfl hrecorded

end Inversion

theorem step_invoke (h : (machine contract).step s (.invoke env call) = .ok (o, s')) :
    Effect env s call s' := execute_effect h

theorem step_drift {move : Drift contract}
    (h : (machine contract).step s (.drift move) = .ok (o, s')) :
    s' = { s with tokens := { s.tokens with
      balance := shift s.tokens.balance move.token move.holder move.delta } } := by
  simp only [machine, Except.ok.injEq, Prod.mk.injEq] at h
  exact h.2.symm

end Steps

variable {contract : Address} {env : Env contract} {s s' : State} {call : Call} {o : Option Nat}

/-- What the contract holds of a token for the escrows that are pending. -/
def held (s : State) (token : Address) : Int :=
  weighed s.record s.nextId fun r => if r.status = .pending ∧ r.token = token then r.amount else 0

/-- The number of escrows with a status. -/
def withStatus (s : State) (status : EscrowStatus) : Nat :=
  tallied s.record s.nextId fun r => r.status = status

/-- The ids of the escrows of a depositor. -/
def depositedBy (s : State) (buyer : Address) : List Nat :=
  having s.record s.nextId fun r => r.depositor = buyer

/-- The ids of the escrows for a recipient. -/
def destinedTo (s : State) (seller : Address) : List Nat :=
  having s.record s.nextId fun r => r.recipient = seller

/-- The records, the counters, the indexes and the token balance tell of the same escrows. -/
structure Books (contract : Address) (s : State) : Prop where
  contiguous : Contiguous s.record s.nextId
  named : ∀ id r, s.record id = some r → r.id = id
  created : s.eventCount evtEscrowCreated = s.nextId
  released : s.eventCount evtEscrowReleased = withStatus s .completed
  ended : withStatus s .pending + s.eventCount evtEscrowReleased + s.eventCount evtEscrowCancelled =
    s.nextId
  buyers : ∀ buyer, s.buyerIndex buyer = depositedBy s buyer
  sellers : ∀ seller, s.sellerIndex seller = destinedTo s seller
  covered : ∀ token, held s token ≤ s.tokens.balance token contract

theorem books_empty {tokens : Tokens} (h : ∀ token, 0 ≤ tokens.balance token contract) :
    Books contract (State.empty tokens) where
  contiguous := contiguous_empty
  named _ _ hrow := nomatch hrow
  created := rfl
  released := rfl
  ended := rfl
  buyers _ := rfl
  sellers _ := rfl
  covered := h

section Frames

theorem SameBooks.books (h : SameBooks s s') (hs : Books contract s)
    (hcovered : ∀ token, held s token ≤ s'.tokens.balance token contract) : Books contract s' := by
  obtain ⟨hnext, hrecord, hbuyer, hseller, hcreated, hreleased, hcancelled⟩ := h
  refine ⟨?_, ?_, ?_, ?_, ?_, ?_, ?_, ?_⟩
  · rw [hrecord, hnext]
    exact hs.contiguous
  · rw [hrecord]
    exact hs.named
  · rw [hcreated, hnext]
    exact hs.created
  · rw [hreleased, hs.released, withStatus, withStatus, hrecord, hnext]
  · rw [hreleased, hcancelled, hnext, withStatus, hrecord, hnext]
    exact hs.ended
  · intro buyer
    rw [hbuyer, hs.buyers, depositedBy, depositedBy, hrecord, hnext]
  · intro seller
    rw [hseller, hs.sellers, destinedTo, destinedTo, hrecord, hnext]
  · intro token
    unfold held
    rw [hrecord, hnext]
    exact hcovered token

end Frames

section Opening

variable {r : EscrowRecord}

theorem held_opened (hpending : r.status = .pending) (token : Address) :
    held (s.opened contract r) token = held s token + if r.token = token then r.amount else 0 := by
  have hnew := weighed_append s.record s.nextId
    (fun r => if r.status = .pending ∧ r.token = token then r.amount else 0) r
  simp only [hpending, true_and] at hnew
  exact hnew

theorem withStatus_opened (hpending : r.status = .pending) (status : EscrowStatus) :
    withStatus (s.opened contract r) status =
      withStatus s status + if status = .pending then 1 else 0 := by
  have hnew := tallied_append s.record s.nextId (fun r => r.status = status) r
  rw [hpending] at hnew
  simp only [decide_eq_true_eq, eq_comm (a := EscrowStatus.pending)] at hnew
  exact hnew

theorem opened_count {event : Symbol} (h : event ≠ evtEscrowCreated) :
    (s.opened contract r).eventCount event = s.eventCount event := by
  unfold State.opened
  exact Function.update_of_ne h _ _

/-- A list of ids for each account gets the new id where the new record belongs. -/
theorem index_opened {index : Address → List Nat} {key : EscrowRecord → Address} {next : Nat}
    {row : Nat → Option EscrowRecord}
    (h : ∀ a, index a = having row next fun r => key r = a) (a : Address) :
    Function.update index (key r) (index (key r) ++ [next]) a =
      having (Function.update row next (some r)) (next + 1) fun r => key r = a := by
  rw [having_append, ← h]
  by_cases ha : a = key r
  · rw [ha, Function.update_self]
    simp
  · rw [Function.update_of_ne ha]
    simp [Ne.symm ha]

theorem Books.opened (hs : Books contract s) (hsigned : env.signers r.depositor = true)
    (hid : r.id = s.nextId) (hpending : r.status = .pending) :
    Books contract (s.opened contract r) where
  contiguous := hs.contiguous.append r
  named id row hrow := by
    rcases update_row_cases hrow with ⟨rfl, rfl⟩ | ⟨_, hold⟩
    · exact hid
    · exact hs.named id row hold
  created := by
    have hcount := hs.created
    simp [State.opened, hcount]
  released := by
    rw [opened_count (by decide), hs.released, withStatus_opened hpending]
    simp
  ended := by
    have hcount := hs.ended
    rw [opened_count (by decide), opened_count (by decide), withStatus_opened hpending, if_pos rfl]
    change _ = s.nextId + 1
    omega
  buyers := index_opened hs.buyers
  sellers := index_opened hs.sellers
  covered token := by
    have hcovered := hs.covered token
    have hpayer : contract ≠ r.depositor := (Env.signer_ne_contract hsigned).symm
    rw [held_opened hpending]
    change _ ≤ (s.tokens.move ⟨r.token, r.depositor, contract, r.amount⟩).balance token contract
    rw [Tokens.move_balance]
    simp only [hpayer, and_false, if_false, and_true, eq_comm (a := token)]
    omega

end Opening

section Closing

variable {r : EscrowRecord} {id : Nat} {payee : Address} {status : EscrowStatus}

theorem Closing.final (h : Closing env id r call payee status) :
    status = .completed ∨ status = .cancelled ∨ status = .expired := by
  cases h with
  | release => exact .inl rfl
  | cancel | buyerCancel => exact .inr (.inl rfl)
  | refundExpired => exact .inr (.inr rfl)

theorem Closing.not_pending (h : Closing env id r call payee status) : status ≠ .pending := by
  rcases h.final with rfl | rfl | rfl <;> decide

theorem held_closed (hs : Books contract s) (hstored : s.record id = some r)
    (hpending : r.status = .pending) (hstatus : status ≠ .pending) (token : Address) :
    held (s.closed contract r payee status) token =
      held s token - if r.token = token then r.amount else 0 := by
  have hmoved := weighed_replace (hs.contiguous.lt hstored) hstored
    (fun r => if r.status = .pending ∧ r.token = token then r.amount else 0) { r with status }
  have hid := hs.named id r hstored
  subst hid
  simp only [hpending, hstatus, true_and, false_and, if_false, Int.add_zero] at hmoved
  exact hmoved

theorem withStatus_closed (hs : Books contract s) (hstored : s.record id = some r)
    (hpending : r.status = .pending) (payee : Address) (status tallying : EscrowStatus) :
    withStatus (s.closed contract r payee status) tallying +
        (if tallying = .pending then 1 else 0) =
      withStatus s tallying + if status = tallying then 1 else 0 := by
  have hmoved := tallied_replace (hs.contiguous.lt hstored) hstored
    (fun r => r.status = tallying) { r with status }
  have hid := hs.named id r hstored
  subst hid
  rw [hpending] at hmoved
  simp only [decide_eq_true_eq, eq_comm (a := EscrowStatus.pending)] at hmoved
  exact hmoved

theorem Books.closed (hs : Books contract s) (hstored : s.record id = some r)
    (hpending : r.status = .pending) (hsent : 0 ≤ r.amount)
    (hclosing : Closing env id r call payee status) :
    Books contract (s.closed contract r payee status) := by
  have hid : r.id = id := hs.named id r hstored
  have hne := hclosing.not_pending
  have hcreated : (s.closed contract r payee status).eventCount evtEscrowCreated =
      s.eventCount evtEscrowCreated := by
    apply Function.update_of_ne
    rcases hclosing.final with rfl | rfl | rfl <;> decide
  have hpendings := withStatus_closed hs hstored hpending payee status .pending
  have hcompleted := withStatus_closed hs hstored hpending payee status .completed
  have hcounts : (s.closed contract r payee status).eventCount evtEscrowReleased =
        s.eventCount evtEscrowReleased + (if status = .completed then 1 else 0) ∧
      (s.closed contract r payee status).eventCount evtEscrowCancelled =
        s.eventCount evtEscrowCancelled + if status = .completed then 0 else 1 := by
    rcases hclosing.final with rfl | rfl | rfl <;> exact ⟨rfl, rfl⟩
  refine ⟨?_, ?_, hcreated.trans hs.created, ?_, ?_, ?_, ?_, ?_⟩
  · rw [State.closed, hid]
    exact hs.contiguous.replace hstored _
  · intro id' row hrow
    rcases update_row_cases hrow with ⟨rfl, rfl⟩ | ⟨_, hold⟩
    · rfl
    · exact hs.named id' row hold
  · have hbefore := hs.released
    rw [hcounts.1]
    simp only [reduceCtorEq, if_false] at hcompleted
    omega
  · have hbefore := hs.ended
    rw [hcounts.1, hcounts.2]
    simp only [if_true, hne, if_false] at hpendings
    change _ = s.nextId
    split_ifs <;> omega
  · intro buyer
    have hsame := having_replace s.nextId (fun r => r.depositor = buyer) hstored { r with status } rfl
    subst hid
    exact (hs.buyers buyer).trans hsame.symm
  · intro seller
    have hsame := having_replace s.nextId (fun r => r.recipient = seller) hstored { r with status } rfl
    subst hid
    exact (hs.sellers seller).trans hsame.symm
  · intro token
    have hcovered := hs.covered token
    rw [held_closed hs hstored hpending hne]
    change _ ≤ (s.tokens.move ⟨r.token, contract, payee, r.amount⟩).balance token contract
    rw [Tokens.move_balance]
    simp only [and_true, eq_comm (a := token)]
    split_ifs <;> omega

end Closing

theorem Effect.books (h : Effect env s call s') (hs : Books contract s) : Books contract s' := by
  cases h with
  | configure kind same tokens =>
    apply same.books hs
    intro token
    rw [tokens]
    exact hs.covered token
  | opened signed id pending => exact hs.opened signed id pending
  | closed stored pending sent closing => exact hs.closed stored pending sent closing

theorem step_books {i : Input contract} (hs : Books contract s)
    (h : (machine contract).step s i = .ok (o, s')) : Books contract s' := by
  cases i with
  | invoke env call => exact (step_invoke h).books hs
  | drift move =>
    rw [step_drift h]
    refine SameBooks.books (s := s) ⟨rfl, rfl, rfl, rfl, rfl, rfl, rfl⟩ hs ?_
    intro token
    have hcovered := hs.covered token
    have hkeeps := move.contract_keeps
    simp only [shift]
    split_ifs with hmoved
    · have hgrown := hkeeps hmoved.2.symm
      omega
    · exact hcovered

theorem run_books {tokens : Tokens} (h : ∀ token, 0 ≤ tokens.balance token contract)
    (is : List (Input contract)) :
    Books contract ((machine contract).run (State.empty tokens) is) :=
  Machine.run_invariant (books_empty h) (fun _ _ _ _ hs hstep => step_books hs hstep) is

/-- The subtractions of the statistics never trap, and count the records. -/
theorem Books.getStats (hs : Books contract s) :
    getStats s = .ok ⟨s.nextId, withStatus s .pending, withStatus s .completed⟩ := by
  have hcreated := hs.created
  have hreleased := hs.released
  have hended := hs.ended
  simp only [ChainverseCore.getStats, count, bind_eq_ok, orRefuse_eq_ok, checkedSub_eq_some, pure_eq_ok,
    Stats.mk.injEq]
  exact ⟨_, ⟨by omega, rfl⟩, _, ⟨by omega, rfl⟩, hcreated, by omega, hreleased⟩

end ChainVerse.ChainverseCore
