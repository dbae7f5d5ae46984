import ChainVerse.Host.Environment
import ChainVerse.Host.Bytes
import Mathlib.Logic.Function.Basic

namespace ChainVerse.ScholarshipOutbox

section Types

def maxPendingEvents : Nat := 10000
def maxPrunePerCall : Nat := 200
def maxEndpoints : Nat := 100
def maxEndpointTopics : Nat := 16
def maxDeliveryHistory : Nat := 256
def maxSignatureTtl : Nat := 86400
def maxTrackedIntents : Nat := 5000
def maxFinality : Nat := 100

inductive ContractError where
  | notInitialized
  | alreadyInitialized
  | notAdmin
  | idOverflow
  | eventNotFound
  | alreadyPublished
  | notPublished
  | backlogFull
  | cursorRegression
  | cursorTooHigh
  | invalidSchemaVersion
  | invalidRetentionHorizon
  | invalidPruneLimit
  | emptyCommitment
  | noTopics
  | tooManyTopics
  | endpointNotFound
  | sequenceRegression
  | tooManyEndpoints
  | invalidExpiry
  | endpointInactive
  | notSubscribed
  | expiredDelivery
  | deliveryNotFound
  | replayDetected
  | notEndpointOwner
  | intentNotFound
  | intentExists
  | tooManyIntents
  | invalidFinality
  | invalidAmount
  | notFinal
  | alreadyObserved
  | invalidState
  deriving DecidableEq, Repr

abbrev Outcome (α : Type) := Except (Abort ContractError) α

/-- A host symbol. -/
abbrev Topic := String

structure OutboxEvent where
  id : Nat
  topic : Topic
  schemaVersion : Nat
  correlationId : Bytes32
  payloadHash : Bytes32
  source : Address
  createdAt : Nat
  publishedAt : Nat
  deriving DecidableEq, Repr

structure WebhookEndpoint where
  id : Nat
  owner : Address
  urlHash : Bytes32
  secretHash : Bytes32
  topics : List Topic
  active : Bool
  secretEpoch : Nat
  lastSequence : Nat
  createdAt : Nat
  updatedAt : Nat
  deriving DecidableEq, Repr

inductive DeliveryOutcome where
  | delivered
  | failed
  | skipped
  deriving DecidableEq, Repr

structure DeliveryRecord where
  endpointId : Nat
  eventId : Nat
  sequence : Nat
  secretEpoch : Nat
  expiresAt : Nat
  attempt : Nat
  recordedAt : Nat
  outcome : DeliveryOutcome
  /-- Zero until the sponsor acknowledges. -/
  ackedAt : Nat
  deriving DecidableEq, Repr

inductive SettlementState where
  | pending
  | reconciled
  | mismatched
  | expired
  deriving DecidableEq, Repr

def SettlementState.isAlerting (state : SettlementState) : Bool :=
  state = .mismatched ∨ state = .expired

structure SettlementIntent where
  intentId : Bytes32
  source : Address
  correlationId : Bytes32
  expectedAmount : Int
  state : SettlementState
  openedAt : Nat
  requiredFinality : Nat
  observedTxHash : Bytes32
  observedLedger : Nat
  observedAmount : Int
  attempts : Nat
  reconciledAt : Nat
  resolutionHash : Bytes32
  deriving DecidableEq, Repr

/-- The contract's storage. A default stands where every read uses the same `unwrap_or`. -/
structure State where
  admin : Option Address
  nextEventId : Option Nat
  pending : Nat
  pruneFloor : Nat
  event : Nat → Option OutboxEvent
  dedup : Bytes32 → Option Nat
  cursor : Address → Nat
  nextEndpointId : Option Nat
  enrolledEndpoints : Nat
  endpoint : Nat → Option WebhookEndpoint
  delivery : Nat → Nat → Option DeliveryRecord
  deliveryFloor : Nat → Option Nat
  deliveryCount : Nat → Nat
  attempts : Nat → Nat → Nat
  endpointAck : Nat → Nat
  trackedIntents : Nat
  intent : Bytes32 → Option SettlementIntent
  alertedIntents : Nat

def State.empty : State where
  admin := none
  nextEventId := none
  pending := 0
  pruneFloor := 1
  event := fun _ => none
  dedup := fun _ => none
  cursor := fun _ => 0
  nextEndpointId := none
  enrolledEndpoints := 0
  endpoint := fun _ => none
  delivery := fun _ _ => none
  deliveryFloor := fun _ => none
  deliveryCount := fun _ => 0
  attempts := fun _ _ => 0
  endpointAck := fun _ => 0
  trackedIntents := 0
  intent := fun _ => none
  alertedIntents := 0

/-- Compares with the stored admin; whether `account` signed is the caller's check. -/
def requireAdmin (s : State) (account : Address) : Outcome Unit :=
  refuseIf (s.admin ≠ some account) (.err .notAdmin)

@[simp] theorem requireAdmin_eq_ok {s : State} {account : Address} {u : Unit} :
    requireAdmin s account = .ok u ↔ s.admin = some account := by
  simp [requireAdmin]

def loadEndpoint (s : State) (id : Nat) : Outcome WebhookEndpoint :=
  orRefuse (s.endpoint id) (.err .endpointNotFound)

def saveEndpoint (s : State) (endpoint : WebhookEndpoint) : State :=
  { s with endpoint := Function.update s.endpoint endpoint.id (some endpoint) }

def requireCommitment (commitment : Bytes32) : Outcome Unit :=
  refuseIf (commitment = 0) (.err .emptyCommitment)

/-- The sequence the next delivery must carry. -/
def nextSequence (endpoint : WebhookEndpoint) : Outcome Nat :=
  orRefuse (fitsU 64 (endpoint.lastSequence + 1)) (.err .idOverflow)

def loadIntent (s : State) (intentId : Bytes32) : Outcome SettlementIntent :=
  orRefuse (s.intent intentId) (.err .intentNotFound)

def saveIntent (s : State) (intent : SettlementIntent) : State :=
  { s with intent := Function.update s.intent intent.intentId (some intent) }

def raiseAlert (s : State) : Outcome State := do
  let alerts ← orRefuse (fitsU 64 (s.alertedIntents + 1)) (.err .idOverflow)
  pure { s with alertedIntents := alerts }

def checkExpiry (now expiresAt : Nat) : Outcome Unit := do
  let ttl ← orRefuse (checkedSub expiresAt now) (.err .invalidExpiry)
  refuseIf (maxSignatureTtl < ttl) (.err .invalidExpiry)

end Types

/-- The host functions that a digest depends on. -/
structure Crypto where
  sha256 : List Byte → Bytes32
  /-- The XDR encoding of an address. -/
  addressXdr : Address → List Byte
  networkId : Bytes32

def domainTag : List Byte :=
  "ChainVerse.ScholarWebhook".toList.map fun c => BitVec.ofNat 8 c.toNat

def envelopeVersion : Nat := 1

structure WebhookEnvelope where
  version : Nat
  networkId : Bytes32
  contract : Address
  endpointId : Nat
  secretEpoch : Nat
  eventId : Nat
  sequence : Nat
  expiresAt : Nat
  deriving DecidableEq, Repr

/-- The bytes that are hashed, every field at a fixed offset. -/
def canonicalPreimage (crypto : Crypto) (envelope : WebhookEnvelope) (payloadHash : Bytes32) :
    List Byte :=
  domainTag ++ beBytes 4 envelope.version ++ bytes32 envelope.networkId ++
    bytes32 (crypto.sha256 (crypto.addressXdr envelope.contract)) ++
    beBytes 8 envelope.endpointId ++ beBytes 4 envelope.secretEpoch ++
    beBytes 8 envelope.eventId ++ beBytes 8 envelope.sequence ++ beBytes 8 envelope.expiresAt ++
    bytes32 payloadHash

def signingPayload (crypto : Crypto) (envelope : WebhookEnvelope) (payloadHash : Bytes32) :
    Bytes32 :=
  crypto.sha256 (canonicalPreimage crypto envelope payloadHash)

end ChainVerse.ScholarshipOutbox
