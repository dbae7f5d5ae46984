import ChainVerse.Outbox.Types
import ChainVerse.Framework.Machine

namespace ChainVerse.ScholarshipOutbox

variable {contract : Address}

section Events

def initializeContract (env : Env contract) (s : State) (admin : Address) : Outcome State := do
  refuseIf (s.admin.isSome = true) (.err .alreadyInitialized)
  requireAuth env admin
  pure { s with
    admin := some admin
    nextEventId := some 1
    pending := 0
    pruneFloor := 1
    nextEndpointId := some 1
    enrolledEndpoints := 0 }

/-- The part of `enqueue` that a new dedup key reaches. -/
def appendEvent (env : Env contract) (s : State) (source : Address) (topic : Topic)
    (schemaVersion : Nat) (correlationId dedupKey payloadHash : Bytes32) :
    Outcome (Nat × State) := do
  refuseIf (maxPendingEvents ≤ s.pending) (.err .backlogFull)
  let id ← orRefuse s.nextEventId (.err .idOverflow)
  let next ← orRefuse (fitsU 64 (id + 1)) (.err .idOverflow)
  let event : OutboxEvent :=
    ⟨id, topic, schemaVersion, correlationId, payloadHash, source, env.timestamp, 0⟩
  let pending ← orRefuse (fitsU 64 (s.pending + 1)) (.err .idOverflow)
  pure (id, { s with
    event := Function.update s.event id (some event)
    dedup := Function.update s.dedup dedupKey (some id)
    nextEventId := some next
    pending := pending })

/-- Records a domain event; a dedup key that was used before returns the first id and writes
nothing. -/
def enqueue (env : Env contract) (s : State) (operator source : Address) (topic : Topic)
    (schemaVersion : Nat) (correlationId dedupKey payloadHash : Bytes32) :
    Outcome (Nat × State) := do
  requireAuth env operator
  requireAdmin s operator
  refuseIf (schemaVersion = 0) (.err .invalidSchemaVersion)
  match s.dedup dedupKey with
  | some existing => pure (existing, s)
  | none => appendEvent env s source topic schemaVersion correlationId dedupKey payloadHash

def markPublished (env : Env contract) (s : State) (relay : Address) (eventId : Nat) :
    Outcome State := do
  requireAuth env relay
  requireAdmin s relay
  let event ← orRefuse (s.event eventId) (.err .eventNotFound)
  refuseIf (event.publishedAt ≠ 0) (.err .alreadyPublished)
  pure { s with
    event := Function.update s.event eventId (some { event with publishedAt := env.timestamp })
    pending := s.pending - 1 }

/-- Moves a consumer's cursor forward to an event that exists. -/
def acknowledge (env : Env contract) (s : State) (consumer : Address) (eventId : Nat) :
    Outcome (Nat × State) := do
  requireAuth env consumer
  refuseIf (s.event eventId = none) (.err .eventNotFound)
  refuseIf (eventId < s.cursor consumer) (.err .cursorRegression)
  if eventId = s.cursor consumer ∧ s.cursor consumer ≠ 0 then pure (s.cursor consumer, s)
  else pure (eventId, { s with cursor := Function.update s.cursor consumer eventId })

/-- An entry the sweep may step over: gone already, or published before the horizon. -/
def removable (horizon : Nat) : Option OutboxEvent → Bool
  | none => true
  | some event => event.publishedAt ≠ 0 ∧ event.publishedAt < horizon

/-- The loop of `prune`, with at most `left` more entries to sweep. -/
def sweep (horizon next : Nat) : Nat → Nat → State → Outcome (Nat × State)
  | 0, pruned, s => pure (pruned, s)
  | left + 1, pruned, s =>
    if s.pruneFloor < next then
      if removable horizon (s.event s.pruneFloor) = true then do
        let floor ← orRefuse (fitsU 64 (s.pruneFloor + 1)) (.err .idOverflow)
        let pruned ← orRefuse (fitsU 32 (pruned + 1)) (.err .idOverflow)
        sweep horizon next left pruned
          { s with event := Function.update s.event s.pruneFloor none, pruneFloor := floor }
      else pure (pruned, s)
    else pure (pruned, s)

/-- Drops published entries older than `horizon` from the front; the number dropped. -/
def prune (env : Env contract) (s : State) (admin : Address) (horizon limit : Nat) :
    Outcome (Nat × State) := do
  requireAdmin s admin
  refuseIf (env.timestamp < horizon) (.err .invalidRetentionHorizon)
  refuseIf (limit = 0 ∨ maxPrunePerCall < limit) (.err .invalidPruneLimit)
  sweep horizon (s.nextEventId.getD 1) limit 0 s

end Events

section Webhooks

/-- Enrolls an endpoint under the operator's and the owner's authorization, who may be one. -/
def registerEndpoint (env : Env contract) (s : State) (operator owner : Address)
    (urlHash secretHash : Bytes32) (topics : List Topic) : Outcome (Nat × State) := do
  requireAuth env operator
  requireAuthAfter env operator owner
  requireAdmin s operator
  requireCommitment urlHash
  requireCommitment secretHash
  refuseIf (topics = []) (.err .noTopics)
  refuseIf (maxEndpointTopics < topics.length) (.err .tooManyTopics)
  refuseIf (maxEndpoints ≤ s.enrolledEndpoints) (.err .tooManyEndpoints)
  let id ← orRefuse s.nextEndpointId (.err .notInitialized)
  let now := env.timestamp
  let s := saveEndpoint s ⟨id, owner, urlHash, secretHash, topics, true, 1, 0, now, now⟩
  let next ← orRefuse (fitsU 64 (id + 1)) (.err .idOverflow)
  let enrolled ← orRefuse (fitsU 64 (s.enrolledEndpoints + 1)) (.err .idOverflow)
  pure (id, { s with nextEndpointId := some next, enrolledEndpoints := enrolled })

def rotateSecret (env : Env contract) (s : State) (operator : Address) (endpointId : Nat)
    (newSecretHash : Bytes32) : Outcome (Nat × State) := do
  requireAuth env operator
  requireAdmin s operator
  requireCommitment newSecretHash
  let endpoint ← loadEndpoint s endpointId
  let epoch ← orRefuse (fitsU 32 (endpoint.secretEpoch + 1)) (.err .idOverflow)
  pure (epoch, saveEndpoint s { endpoint with
    secretHash := newSecretHash, secretEpoch := epoch, updatedAt := env.timestamp })

def setEndpointActive (env : Env contract) (s : State) (operator : Address) (endpointId : Nat)
    (active : Bool) : Outcome State := do
  requireAuth env operator
  requireAdmin s operator
  let endpoint ← loadEndpoint s endpointId
  pure (saveEndpoint s { endpoint with active := active, updatedAt := env.timestamp })

/-- The digest that a relay signs and a sponsor verifies. -/
def deliveryPayload (env : Env contract) (crypto : Crypto) (s : State)
    (endpointId eventId sequence expiresAt : Nat) : Outcome Bytes32 := do
  let endpoint ← loadEndpoint s endpointId
  refuseIf (endpoint.active = false) (.err .endpointInactive)
  let next ← nextSequence endpoint
  refuseIf (sequence ≠ next) (.err .sequenceRegression)
  checkExpiry env.timestamp expiresAt
  let event ← orRefuse (s.event eventId) (.err .eventNotFound)
  pure (signingPayload crypto ⟨envelopeVersion, crypto.networkId, contract, endpointId,
    endpoint.secretEpoch, eventId, sequence, expiresAt⟩ event.payloadHash)

def deliverable (s : State) (endpointId eventId : Nat) : Outcome Bool := do
  let endpoint ← loadEndpoint s endpointId
  if endpoint.active = false then pure false
  else do
    let event ← orRefuse (s.event eventId) (.err .eventNotFound)
    pure (endpoint.topics.contains event.topic)

/-- Makes room for one more delivery record of an endpoint: below the cap the count grows, at the
cap the oldest record goes. -/
def advanceHistory (s : State) (endpointId sequence : Nat) : Outcome State :=
  let count := s.deliveryCount endpointId
  if maxDeliveryHistory ≤ count then do
    let floor := (s.deliveryFloor endpointId).getD 1
    let next ← orRefuse (fitsU 64 (floor + 1)) (.err .idOverflow)
    pure { s with
      delivery := Function.update s.delivery endpointId
        (Function.update (s.delivery endpointId) floor none)
      deliveryFloor := Function.update s.deliveryFloor endpointId (some next) }
  else do
    let next ← orRefuse (fitsU 32 (count + 1)) (.err .idOverflow)
    pure { s with
      deliveryFloor := if count = 0 then
        Function.update s.deliveryFloor endpointId (some sequence) else s.deliveryFloor
      deliveryCount := Function.update s.deliveryCount endpointId next }

/-- Records one delivery attempt; the number of the attempt for this event. -/
def recordDelivery (env : Env contract) (s : State) (operator : Address)
    (endpointId eventId sequence expiresAt : Nat) (outcome : DeliveryOutcome) :
    Outcome (Nat × State) := do
  requireAuth env operator
  requireAdmin s operator
  let endpoint ← loadEndpoint s endpointId
  refuseIf (endpoint.active = false) (.err .endpointInactive)
  let next ← nextSequence endpoint
  refuseIf (sequence ≠ next) (.err .sequenceRegression)
  let now := env.timestamp
  refuseIf (expiresAt ≤ now) (.err .expiredDelivery)
  let event ← orRefuse (s.event eventId) (.err .eventNotFound)
  refuseIf (outcome ≠ .skipped ∧ event.topic ∉ endpoint.topics) (.err .notSubscribed)
  let attempt ← orRefuse (fitsU 32 (s.attempts endpointId eventId + 1)) (.err .idOverflow)
  let record : DeliveryRecord := ⟨endpointId, eventId, sequence, endpoint.secretEpoch, expiresAt,
    attempt, now, outcome, 0⟩
  let s := { s with
    attempts := Function.update s.attempts endpointId
      (Function.update (s.attempts endpointId) eventId attempt)
    delivery := Function.update s.delivery endpointId
      (Function.update (s.delivery endpointId) sequence (some record)) }
  let s ← advanceHistory s endpointId sequence
  pure (attempt, saveEndpoint s { endpoint with lastSequence := sequence, updatedAt := now })

/-- The sponsor's own confirmation of a delivery. -/
def acknowledgeDelivery (env : Env contract) (s : State) (owner : Address)
    (endpointId sequence : Nat) : Outcome State := do
  requireAuth env owner
  let endpoint ← loadEndpoint s endpointId
  refuseIf (endpoint.owner ≠ owner) (.err .notEndpointOwner)
  refuseIf (sequence = 0 ∨ endpoint.lastSequence < sequence) (.err .deliveryNotFound)
  refuseIf (sequence ≤ s.endpointAck endpointId) (.err .replayDetected)
  let record ← orRefuse (s.delivery endpointId sequence) (.err .deliveryNotFound)
  pure { s with
    delivery := Function.update s.delivery endpointId (Function.update (s.delivery endpointId)
      sequence (some { record with ackedAt := env.timestamp }))
    endpointAck := Function.update s.endpointAck endpointId sequence }

end Webhooks

section Settlements

def openSettlement (env : Env contract) (s : State) (operator : Address) (intentId : Bytes32)
    (source : Address) (correlationId : Bytes32) (expectedAmount : Int)
    (requiredFinality : Nat) : Outcome State := do
  requireAuth env operator
  requireAdmin s operator
  refuseIf (requiredFinality = 0 ∨ maxFinality < requiredFinality) (.err .invalidFinality)
  refuseIf (expectedAmount ≤ 0) (.err .invalidAmount)
  refuseIf ((s.intent intentId).isSome = true) (.err .intentExists)
  refuseIf (maxTrackedIntents ≤ s.trackedIntents) (.err .tooManyIntents)
  let tracked ← orRefuse (fitsU 64 (s.trackedIntents + 1)) (.err .idOverflow)
  let s := saveIntent s ⟨intentId, source, correlationId, expectedAmount, .pending, env.timestamp,
    requiredFinality, 0, 0, 0, 0, 0, 0⟩
  pure { s with trackedIntents := tracked }

/-- Reports the transaction of an intent: the same one again is a no-op, another is refused. -/
def observeSettlement (env : Env contract) (s : State) (operator : Address) (intentId : Bytes32)
    (txHash : Bytes32) (txLedger : Nat) : Outcome State := do
  requireAuth env operator
  requireAdmin s operator
  let intent ← loadIntent s intentId
  refuseIf (intent.state ≠ .pending) (.err .invalidState)
  if intent.observedLedger ≠ 0 then do
    refuseIf (¬ (intent.observedTxHash = txHash ∧ intent.observedLedger = txLedger))
      (.err .alreadyObserved)
    pure s
  else do
    refuseIf (txLedger = 0 ∨ env.sequence < txLedger) (.err .notFinal)
    pure (saveIntent s { intent with observedTxHash := txHash, observedLedger := txLedger })

/-- The verdict on an observed amount. -/
def adjudicate (s : State) (intent : SettlementIntent) : Outcome (SettlementState × State) :=
  if intent.observedAmount = intent.expectedAmount then
    pure (.reconciled, saveIntent s { intent with state := .reconciled })
  else do
    let s ← raiseAlert s
    pure (.mismatched, saveIntent s { intent with state := .mismatched })

/-- Compares an intent with what the chain settled, once the observation is final. -/
def reconcileSettlement (env : Env contract) (s : State) (operator : Address)
    (intentId : Bytes32) (observedAmount : Int) : Outcome (SettlementState × State) := do
  requireAuth env operator
  requireAdmin s operator
  let intent ← loadIntent s intentId
  if intent.state ≠ .pending then pure (intent.state, s)
  else do
    refuseIf (intent.observedLedger = 0) (.err .notFinal)
    let passed ← orRefuse (checkedSub env.sequence intent.observedLedger) (.err .notFinal)
    refuseIf (passed < intent.requiredFinality) (.err .notFinal)
    let attempts ← orRefuse (fitsU 32 (intent.attempts + 1)) (.err .idOverflow)
    adjudicate s { intent with
      attempts := attempts, observedAmount := observedAmount, reconciledAt := env.timestamp }

def expireSettlement (env : Env contract) (s : State) (operator : Address)
    (intentId : Bytes32) : Outcome State := do
  requireAuth env operator
  requireAdmin s operator
  let intent ← loadIntent s intentId
  refuseIf (intent.state ≠ .pending) (.err .invalidState)
  raiseAlert (saveIntent s { intent with state := .expired, reconciledAt := env.timestamp })

def resolveSettlement (env : Env contract) (s : State) (operator : Address)
    (intentId resolutionHash : Bytes32) : Outcome State := do
  requireAuth env operator
  requireAdmin s operator
  requireCommitment resolutionHash
  let intent ← loadIntent s intentId
  refuseIf (intent.state.isAlerting = false) (.err .invalidState)
  pure (saveIntent s { intent with
    state := .reconciled, reconciledAt := env.timestamp, resolutionHash := resolutionHash })

def archiveSettlement (env : Env contract) (s : State) (operator : Address)
    (intentId : Bytes32) : Outcome State := do
  requireAuth env operator
  requireAdmin s operator
  let intent ← loadIntent s intentId
  refuseIf (intent.state ≠ .reconciled) (.err .invalidState)
  pure { s with
    intent := Function.update s.intent intentId none
    trackedIntents := s.trackedIntents - 1 }

end Settlements

/-- The state-changing entry points. -/
inductive Call where
  | initializeContract (admin : Address)
  | enqueue (operator source : Address) (topic : Topic) (schemaVersion : Nat)
      (correlationId dedupKey payloadHash : Bytes32)
  | markPublished (relay : Address) (eventId : Nat)
  | acknowledge (consumer : Address) (eventId : Nat)
  | prune (admin : Address) (horizon limit : Nat)
  | registerEndpoint (operator owner : Address) (urlHash secretHash : Bytes32)
      (topics : List Topic)
  | rotateSecret (operator : Address) (endpointId : Nat) (newSecretHash : Bytes32)
  | setEndpointActive (operator : Address) (endpointId : Nat) (active : Bool)
  | recordDelivery (operator : Address) (endpointId eventId sequence expiresAt : Nat)
      (outcome : DeliveryOutcome)
  | acknowledgeDelivery (owner : Address) (endpointId sequence : Nat)
  | openSettlement (operator : Address) (intentId : Bytes32) (source : Address)
      (correlationId : Bytes32) (expectedAmount : Int) (requiredFinality : Nat)
  | observeSettlement (operator : Address) (intentId txHash : Bytes32) (txLedger : Nat)
  | reconcileSettlement (operator : Address) (intentId : Bytes32) (observedAmount : Int)
  | expireSettlement (operator : Address) (intentId : Bytes32)
  | resolveSettlement (operator : Address) (intentId resolutionHash : Bytes32)
  | archiveSettlement (operator : Address) (intentId : Bytes32)
  deriving DecidableEq, Repr

/-- What an entry point returns. -/
inductive Answer where
  | done
  | number (n : Nat)
  | settlement (state : SettlementState)
  deriving DecidableEq, Repr

structure Input (contract : Address) where
  env : Env contract
  call : Call

def quiet (x : Outcome State) : Outcome (Answer × State) := (Answer.done, ·) <$> x

def counted (x : Outcome (Nat × State)) : Outcome (Answer × State) :=
  (fun p => (Answer.number p.1, p.2)) <$> x

/-- One entry point applied to the state. -/
def execute (env : Env contract) (s : State) : Call → Outcome (Answer × State)
  | .initializeContract admin => quiet (initializeContract env s admin)
  | .enqueue operator source topic schemaVersion correlationId dedupKey payloadHash =>
      counted (enqueue env s operator source topic schemaVersion correlationId dedupKey payloadHash)
  | .markPublished relay eventId => quiet (markPublished env s relay eventId)
  | .acknowledge consumer eventId => counted (acknowledge env s consumer eventId)
  | .prune admin horizon limit => counted (prune env s admin horizon limit)
  | .registerEndpoint operator owner urlHash secretHash topics =>
      counted (registerEndpoint env s operator owner urlHash secretHash topics)
  | .rotateSecret operator endpointId newSecretHash =>
      counted (rotateSecret env s operator endpointId newSecretHash)
  | .setEndpointActive operator endpointId active =>
      quiet (setEndpointActive env s operator endpointId active)
  | .recordDelivery operator endpointId eventId sequence expiresAt outcome =>
      counted (recordDelivery env s operator endpointId eventId sequence expiresAt outcome)
  | .acknowledgeDelivery owner endpointId sequence =>
      quiet (acknowledgeDelivery env s owner endpointId sequence)
  | .openSettlement operator intentId source correlationId expectedAmount requiredFinality =>
      quiet (openSettlement env s operator intentId source correlationId expectedAmount
        requiredFinality)
  | .observeSettlement operator intentId txHash txLedger =>
      quiet (observeSettlement env s operator intentId txHash txLedger)
  | .reconcileSettlement operator intentId observedAmount =>
      (fun p => (.settlement p.1, p.2)) <$>
        reconcileSettlement env s operator intentId observedAmount
  | .expireSettlement operator intentId => quiet (expireSettlement env s operator intentId)
  | .resolveSettlement operator intentId resolutionHash =>
      quiet (resolveSettlement env s operator intentId resolutionHash)
  | .archiveSettlement operator intentId => quiet (archiveSettlement env s operator intentId)

def machine (contract : Address) :
    Machine State (Input contract) Answer (Abort ContractError) where
  step s i := execute i.env s i.call

/-- The admin `⟨1⟩` enqueues two events and publishes the first. -/
def sampleCalls : List (Input ⟨0⟩) :=
  [.initializeContract ⟨1⟩, .enqueue ⟨1⟩ ⟨2⟩ "award" 1 7 1 9, .enqueue ⟨1⟩ ⟨2⟩ "refund" 1 7 2 9,
    .markPublished ⟨1⟩ 1].map (⟨.sample, ·⟩)

end ChainVerse.ScholarshipOutbox
