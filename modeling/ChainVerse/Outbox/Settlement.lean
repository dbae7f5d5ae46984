import ChainVerse.Outbox.Steps
import ChainVerse.Framework.Tables

namespace ChainVerse.ScholarshipOutbox

variable {contract : Address} {env : Env contract} {s s' : State}

/-- The intent that a settlement call is about. -/
def Call.intentId : Call → Option Bytes32
  | .openSettlement _ intentId _ _ _ _ | .observeSettlement _ intentId _ _
  | .reconcileSettlement _ intentId _ | .expireSettlement _ intentId
  | .resolveSettlement _ intentId _ | .archiveSettlement _ intentId => some intentId
  | _ => none

/-- The finality window of an observed transaction has passed. -/
structure Final (env : Env contract) (x : SettlementIntent) : Prop where
  observed : x.observedLedger ≠ 0
  passed : x.observedLedger + x.requiredFinality ≤ env.sequence

/-- The record after an adjudication. -/
def SettlementIntent.adjudicated (x : SettlementIntent) (now : Nat) (observedAmount : Int)
    (state : SettlementState) : SettlementIntent :=
  { x with
    attempts := x.attempts + 1, observedAmount := observedAmount, reconciledAt := now
    state := state }

/-- The lifecycle of one intent: what an accepted call about it does to its record, with the checks
that the call has passed. -/
inductive Move (env : Env contract) (id : Bytes32) :
    Call → Answer → Option SettlementIntent → Option SettlementIntent → Prop where
  | opened {operator source : Address} {correlationId : Bytes32} {expectedAmount : Int}
      {requiredFinality : Nat} (finality : 0 < requiredFinality ∧ requiredFinality ≤ maxFinality)
      (amount : 0 < expectedAmount) : Move env id
        (.openSettlement operator id source correlationId expectedAmount requiredFinality) .done
        none (some ⟨id, source, correlationId, expectedAmount, .pending, env.timestamp,
          requiredFinality, 0, 0, 0, 0, 0, 0⟩)
  | observedAgain {operator : Address} {x : SettlementIntent} (pending : x.state = .pending)
      (observed : x.observedLedger ≠ 0) : Move env id
        (.observeSettlement operator id x.observedTxHash x.observedLedger) .done (some x) (some x)
  | observed {operator : Address} {txHash : Bytes32} {txLedger : Nat} {x : SettlementIntent}
      (pending : x.state = .pending) (unobserved : x.observedLedger = 0)
      (past : txLedger ≠ 0 ∧ txLedger ≤ env.sequence) : Move env id
        (.observeSettlement operator id txHash txLedger) .done (some x)
        (some { x with observedTxHash := txHash, observedLedger := txLedger })
  | decidedAgain {operator : Address} {amount : Int} {x : SettlementIntent}
      (decided : x.state ≠ .pending) : Move env id
        (.reconcileSettlement operator id amount) (.settlement x.state) (some x) (some x)
  | reconciled {operator : Address} {x : SettlementIntent} (pending : x.state = .pending)
      (final : Final env x) : Move env id (.reconcileSettlement operator id x.expectedAmount)
        (.settlement .reconciled) (some x)
        (some (x.adjudicated env.timestamp x.expectedAmount .reconciled))
  | mismatched {operator : Address} {amount : Int} {x : SettlementIntent}
      (pending : x.state = .pending) (final : Final env x) (differs : amount ≠ x.expectedAmount) :
      Move env id (.reconcileSettlement operator id amount) (.settlement .mismatched) (some x)
        (some (x.adjudicated env.timestamp amount .mismatched))
  | expired {operator : Address} {x : SettlementIntent} (pending : x.state = .pending) :
      Move env id (.expireSettlement operator id) .done (some x)
        (some { x with state := .expired, reconciledAt := env.timestamp })
  | resolved {operator : Address} {resolutionHash : Bytes32} {x : SettlementIntent}
      (alerting : x.state.isAlerting = true) (noted : resolutionHash ≠ 0) : Move env id
        (.resolveSettlement operator id resolutionHash) .done (some x)
        (some { x with
          state := .reconciled, reconciledAt := env.timestamp, resolutionHash := resolutionHash })
  | archived {operator : Address} {x : SettlementIntent} (reconciled : x.state = .reconciled) :
      Move env id (.archiveSettlement operator id) .done (some x) none

/-- One for an intent that is stored. -/
def tracked (x : Option SettlementIntent) : Nat := if x ≠ none then 1 else 0

/-- An intent that waits for an operator. -/
def Alarming (x : Option SettlementIntent) : Prop := ∃ y, x = some y ∧ y.state.isAlerting = true

instance decidableAlarming (x : Option SettlementIntent) : Decidable (Alarming x) :=
  match x with
  | none => isFalse fun ⟨_, h, _⟩ => nomatch h
  | some y => decidable_of_iff (y.state.isAlerting = true)
      ⟨fun h => ⟨y, rfl, h⟩, fun ⟨_, h, ha⟩ => Option.some.inj h ▸ ha⟩

/-- One for an intent that waits for an operator. -/
def alarm (x : Option SettlementIntent) : Nat := if Alarming x then 1 else 0

/-- What a settlement call does to the book: one record moves, the tracked counter follows it, and
the alert counter is raised when the record starts to wait for an operator. -/
structure Settled (env : Env contract) (s s' : State) (call : Call) (answer : Answer)
    (id : Bytes32) : Prop where
  move : Move env id call answer (s.intent id) (s'.intent id)
  others : s'.intent = Function.update s.intent id (s'.intent id)
  counted : s'.trackedIntents = s.trackedIntents + tracked (s'.intent id) - tracked (s.intent id)
  alerted : s'.alertedIntents = s.alertedIntents + (alarm (s'.intent id) - alarm (s.intent id))

/-- The settlement book is untouched. -/
structure SameIntents (s s' : State) : Prop where
  intent : s'.intent = s.intent
  tracked : s'.trackedIntents = s.trackedIntents
  alerted : s'.alertedIntents = s.alertedIntents

/-- Every record is stored under its own id. -/
def Named (s : State) : Prop := ∀ id x, s.intent id = some x → x.intentId = id

section Steps

theorem tracked_none : tracked none = 0 := rfl
theorem tracked_some (x : SettlementIntent) : tracked (some x) = 1 := rfl

theorem alarm_none : alarm none = 0 := rfl

theorem alarm_some (x : SettlementIntent) :
    alarm (some x) = if x.state.isAlerting = true then 1 else 0 := by
  simp [alarm, Alarming]

theorem alarm_pending {x : SettlementIntent} (h : x.state = .pending) : alarm (some x) = 0 := by
  simp [alarm_some, h, SettlementState.isAlerting]

theorem settled_write {call : Call} {answer : Answer} {id : Bytes32}
    {x : Option SettlementIntent} (hintent : s'.intent = Function.update s.intent id x)
    (hmove : Move env id call answer (s.intent id) x)
    (hcounted : s'.trackedIntents = s.trackedIntents + tracked x - tracked (s.intent id))
    (halerted : s'.alertedIntents = s.alertedIntents + (alarm x - alarm (s.intent id))) :
    Settled env s s' call answer id := by
  have hnew : s'.intent id = x := by rw [hintent, Function.update_self]
  exact ⟨by rwa [hnew], by rwa [hnew], by rwa [hnew], by rwa [hnew]⟩

/-- A call that rewrites a stored record. -/
theorem settled_rewrite {call : Call} {answer : Answer} {id : Bytes32} {x y : SettlementIntent}
    (hstored : s.intent id = some x) (hintent : s'.intent = Function.update s.intent id (some y))
    (hmove : Move env id call answer (some x) (some y))
    (hcounted : s'.trackedIntents = s.trackedIntents)
    (halerted : s'.alertedIntents = s.alertedIntents + (alarm (some y) - alarm (some x))) :
    Settled env s s' call answer id := by
  apply settled_write hintent
  · rwa [hstored]
  · rw [hstored, tracked_some, tracked_some, hcounted, Nat.add_sub_cancel]
  · rw [hstored, halerted]

/-- A call that leaves the record it is about as it is. -/
theorem settled_again {call : Call} {answer : Answer} {id : Bytes32}
    (hmove : Move env id call answer (s.intent id) (s.intent id)) :
    Settled env s s call answer id := by
  refine ⟨hmove, (Function.update_eq_self _ _).symm, ?_, ?_⟩
  · rw [Nat.add_sub_cancel]
  · rw [Nat.sub_self, Nat.add_zero]

variable {operator : Address} {id : Bytes32}

theorem openSettlement_settled {source : Address} {correlationId : Bytes32} {expectedAmount : Int}
    {requiredFinality : Nat} (h : openSettlement env s operator id source correlationId
      expectedAmount requiredFinality = .ok s') :
    Settled env s s'
      (.openSettlement operator id source correlationId expectedAmount requiredFinality) .done
      id := by
  simp only [openSettlement, saveIntent, bind_eq_ok, exists_unit, refuseIf_eq_ok, not_or, not_lt,
    not_le, Bool.not_eq_true, Option.isSome_eq_false_iff, Option.isNone_iff_eq_none,
    orRefuse_eq_ok, fitsU_eq_some, pure_eq_ok] at h
  obtain ⟨_, _, hfinality, hamount, habsent, _, count, ⟨_, rfl⟩, rfl⟩ := h
  have hpos : 0 < requiredFinality := Nat.pos_of_ne_zero hfinality.1
  apply settled_write rfl
  · rw [habsent]
    exact .opened ⟨hpos, hfinality.2⟩ hamount
  · rw [habsent, tracked_none, tracked_some, Nat.sub_zero]
  · rw [habsent, alarm_some]
    rfl

theorem observeSettlement_settled {txHash : Bytes32} {txLedger : Nat} (hs : Named s)
    (h : observeSettlement env s operator id txHash txLedger = .ok s') :
    Settled env s s' (.observeSettlement operator id txHash txLedger) .done id := by
  simp only [observeSettlement, loadIntent, bind_eq_ok, exists_unit, refuseIf_eq_ok,
    orRefuse_eq_ok, not_not] at h
  obtain ⟨_, _, x, hstored, hpending, h⟩ := h
  obtain rfl := hs id x hstored
  by_cases hobserved : x.observedLedger = 0
  · rw [if_neg (not_not.mpr hobserved)] at h
    simp only [bind_eq_ok, exists_unit, refuseIf_eq_ok, not_or, not_lt, saveIntent,
      pure_eq_ok] at h
    obtain ⟨hpast, rfl⟩ := h
    refine settled_rewrite hstored rfl (.observed hpending hobserved hpast) rfl ?_
    rw [alarm_some, alarm_some, Nat.sub_self]
    rfl
  · rw [if_pos hobserved] at h
    simp only [bind_eq_ok, exists_unit, refuseIf_eq_ok, not_not, pure_eq_ok] at h
    obtain ⟨⟨rfl, rfl⟩, rfl⟩ := h
    apply settled_again
    rw [hstored]
    exact .observedAgain hpending hobserved

theorem reconcileSettlement_settled {amount : Int} {state : SettlementState} (hs : Named s)
    (h : reconcileSettlement env s operator id amount = .ok (state, s')) :
    Settled env s s' (.reconcileSettlement operator id amount) (.settlement state) id := by
  simp only [reconcileSettlement, loadIntent, bind_eq_ok, exists_unit, orRefuse_eq_ok] at h
  obtain ⟨_, _, x, hstored, h⟩ := h
  obtain rfl := hs id x hstored
  by_cases hdecided : x.state ≠ .pending
  · rw [if_pos hdecided] at h
    simp only [pure_eq_ok, Prod.mk.injEq] at h
    obtain ⟨rfl, rfl⟩ := h
    apply settled_again
    rw [hstored]
    exact .decidedAgain hdecided
  · rw [if_neg hdecided] at h
    have hpending := not_not.mp hdecided
    simp only [bind_eq_ok, exists_unit, refuseIf_eq_ok, orRefuse_eq_ok, checkedSub_eq_some,
      fitsU_eq_some, not_lt] at h
    obtain ⟨hobserved, _, ⟨hle, rfl⟩, hpassed, _, ⟨_, rfl⟩, h⟩ := h
    have hfinal : Final env x := ⟨hobserved, by omega⟩
    have hquiet := alarm_pending hpending
    unfold adjudicate at h
    by_cases hequal : amount = x.expectedAmount
    · rw [if_pos hequal] at h
      simp only [saveIntent, pure_eq_ok, Prod.mk.injEq] at h
      obtain ⟨rfl, rfl⟩ := h
      subst hequal
      refine settled_rewrite hstored rfl (.reconciled hpending hfinal) rfl ?_
      rw [hquiet, alarm_some]
      rfl
    · rw [if_neg hequal] at h
      simp only [raiseAlert, saveIntent, bind_eq_ok, orRefuse_eq_ok, fitsU_eq_some,
        pure_eq_ok, Prod.mk.injEq] at h
      obtain ⟨_, ⟨_, ⟨_, rfl⟩, rfl⟩, rfl, rfl⟩ := h
      refine settled_rewrite hstored rfl (.mismatched hpending hfinal hequal) rfl ?_
      rw [hquiet, alarm_some]
      rfl

theorem expireSettlement_settled (hs : Named s)
    (h : expireSettlement env s operator id = .ok s') :
    Settled env s s' (.expireSettlement operator id) .done id := by
  simp only [expireSettlement, loadIntent, raiseAlert, bind_eq_ok, exists_unit, refuseIf_eq_ok,
    orRefuse_eq_ok, fitsU_eq_some, not_not, pure_eq_ok] at h
  obtain ⟨_, _, x, hstored, hpending, _, ⟨_, rfl⟩, rfl⟩ := h
  obtain rfl := hs id x hstored
  refine settled_rewrite hstored rfl (.expired hpending) rfl ?_
  rw [alarm_pending hpending, alarm_some]
  rfl

theorem resolveSettlement_settled {resolutionHash : Bytes32} (hs : Named s)
    (h : resolveSettlement env s operator id resolutionHash = .ok s') :
    Settled env s s' (.resolveSettlement operator id resolutionHash) .done id := by
  simp only [resolveSettlement, loadIntent, requireCommitment, bind_eq_ok, exists_unit,
    refuseIf_eq_ok, orRefuse_eq_ok, Bool.not_eq_false, pure_eq_ok] at h
  obtain ⟨_, _, hnoted, x, hstored, halerting, rfl⟩ := h
  obtain rfl := hs id x hstored
  refine settled_rewrite hstored rfl (.resolved halerting hnoted) rfl ?_
  rw [alarm_some]
  simp [saveIntent, SettlementState.isAlerting]

theorem archiveSettlement_settled (h : archiveSettlement env s operator id = .ok s') :
    Settled env s s' (.archiveSettlement operator id) .done id := by
  simp only [archiveSettlement, loadIntent, bind_eq_ok, exists_unit, refuseIf_eq_ok,
    orRefuse_eq_ok, not_not, pure_eq_ok] at h
  obtain ⟨_, _, x, hstored, hreconciled, rfl⟩ := h
  apply settled_write rfl
  · rw [hstored]
    exact .archived hreconciled
  · rw [hstored]
    rfl
  · rw [alarm_none, Nat.zero_sub]
    rfl

theorem SameIntents.of_advanced {record : DeliveryRecord} {endpoint : WebhookEndpoint}
    {advanced : State} {endpointId sequence : Nat}
    (h : advanceHistory (s.attempted record) endpointId sequence = .ok advanced) :
    SameIntents s (saveEndpoint advanced endpoint) := by
  rcases advanceHistory_cases h with ⟨_, rfl⟩ | ⟨_, rfl⟩ | ⟨_, _, rfl⟩ <;> exact ⟨rfl, rfl, rfl⟩

/-- An accepted call either is about an intent and moves its record, or leaves the settlement book
alone. -/
theorem execute_settled {call : Call} {answer : Answer} (hs : Named s)
    (h : execute env s call = .ok (answer, s')) :
    call.intentId = none ∧ SameIntents s s' ∨
      ∃ id, call.intentId = some id ∧ Settled env s s' call answer id := by
  by_cases hkind : call.isSettlement = true
  · right
    cases call with
    | openSettlement operator id =>
      obtain ⟨rfl, hcall⟩ := quiet_eq_ok.mp h
      exact ⟨id, rfl, openSettlement_settled hcall⟩
    | observeSettlement operator id =>
      obtain ⟨rfl, hcall⟩ := quiet_eq_ok.mp h
      exact ⟨id, rfl, observeSettlement_settled hs hcall⟩
    | reconcileSettlement operator id =>
      simp only [execute, map_eq_ok, Prod.exists, Prod.mk.injEq] at h
      obtain ⟨state, _, hcall, rfl, rfl⟩ := h
      exact ⟨id, rfl, reconcileSettlement_settled hs hcall⟩
    | expireSettlement operator id =>
      obtain ⟨rfl, hcall⟩ := quiet_eq_ok.mp h
      exact ⟨id, rfl, expireSettlement_settled hs hcall⟩
    | resolveSettlement operator id =>
      obtain ⟨rfl, hcall⟩ := quiet_eq_ok.mp h
      exact ⟨id, rfl, resolveSettlement_settled hs hcall⟩
    | archiveSettlement operator id =>
      obtain ⟨rfl, hcall⟩ := quiet_eq_ok.mp h
      exact ⟨id, rfl, archiveSettlement_settled hcall⟩
    | _ => simp [Call.isSettlement] at hkind
  · left
    cases execute_effect h with
    | settle kind => exact absurd kind hkind
    | record _ _ _ _ _ _ _ _ _ hhistory => exact ⟨rfl, .of_advanced hhistory⟩
    | start | enqueueAgain | enqueue | publish | acknowledgeAgain | acknowledge | prune
    | register | rotate | activate | acknowledgeDelivery => exact ⟨rfl, rfl, rfl, rfl⟩

end Steps

end ChainVerse.ScholarshipOutbox
