import ChainVerse.Framework.Machine
import ChainVerse.Host.Environment
import Mathlib.Logic.Function.Basic

namespace ChainVerse.ScholarshipIdempotency

def maxKeyTtlSeconds : Nat := 7776000

def defaultKeyTtlSeconds : Nat := 86400

def maxPendingPerActorOp : Nat := 32

inductive ContractError where
  | notInitialized
  | alreadyInitialized
  | notAdmin
  | keyActorMismatch
  | keyInFlight
  | keyNotFound
  | keyAlreadyCompleted
  | ttlTooLong
  | invalidTtl
  | pendingLimitExceeded
  | overflow
  deriving DecidableEq, Repr

abbrev Outcome (α : Type) := Except (Abort ContractError) α

inductive Operation where
  | submission
  | decision
  | acceptance
  | milestone
  | payout
  | refund
  | notification
  deriving DecidableEq, Repr

def Operation.asSymbol : Operation → Symbol
  | .submission => "submission"
  | .decision => "decision"
  | .acceptance => "acceptance"
  | .milestone => "milestone"
  | .payout => "payout"
  | .refund => "refund"
  | .notification => "notification"

inductive KeyStatus where
  | pending
  | succeeded
  | failed
  deriving DecidableEq, Repr

structure IdempotencyRecord where
  key : Bytes32
  actor : Address
  operation : Symbol
  status : KeyStatus
  createdAt : Nat
  expiresAt : Nat
  completedAt : Nat
  resultHash : Bytes32
  deriving DecidableEq

/-- An actor and the symbol of an operation. -/
abbrev Owner := Address × Symbol

/-- The contract's storage. -/
structure State where
  admin : Option Address
  record : Owner × Bytes32 → Option IdempotencyRecord
  /-- Zero where nothing is stored. -/
  pendingCount : Owner → Nat

def State.empty : State where
  admin := none
  record := fun _ => none
  pendingCount := fun _ => 0

variable {contract : Address}

section Helpers

def requireAdmin (env : Env contract) (s : State) (caller : Address) : Outcome Unit := do
  let admin ← orRefuse s.admin (.err .notInitialized)
  refuseIf (caller ≠ admin) (.err .notAdmin)
  requireAuth env caller

/-- Zero asks for the default. -/
def effectiveTtl (ttlSeconds : Nat) : Outcome Nat :=
  if ttlSeconds = 0 then pure defaultKeyTtlSeconds
  else do
    refuseIf (maxKeyTtlSeconds < ttlSeconds) (.err .ttlTooLong)
    pure ttlSeconds

/-- Refuses a key that is in the way of a new one. -/
def refuseExisting (actor : Address) (existing : Option IdempotencyRecord) : Outcome Unit :=
  match existing with
  | none => pure ()
  | some existing => do
    refuseIf (existing.actor ≠ actor) (.err .keyActorMismatch)
    match existing.status with
    | .pending => .error (.err .keyInFlight)
    | .succeeded | .failed => .error (.err .keyAlreadyCompleted)

def transition (env : Env contract) (s : State) (actor : Address) (opSym : Symbol) (key : Bytes32)
    (newStatus : KeyStatus) (resultHash : Bytes32) : Outcome State := do
  let record ← orRefuse (s.record ((actor, opSym), key)) (.err .keyNotFound)
  refuseIf (record.actor ≠ actor) (.err .keyActorMismatch)
  refuseIf (record.status ≠ .pending) (.err .keyAlreadyCompleted)
  let record := { record with
    status := newStatus
    completedAt := env.timestamp
    resultHash := resultHash }
  let s := { s with record := Function.update s.record ((actor, opSym), key) (some record) }
  let count := s.pendingCount (actor, opSym)
  if 0 < count then
    pure { s with pendingCount := Function.update s.pendingCount (actor, opSym) (count - 1) }
  else pure s

end Helpers

section EntryPoints

def initializeContract (env : Env contract) (s : State) (admin : Address) : Outcome State := do
  refuseIf (s.admin ≠ none) (.err .alreadyInitialized)
  requireAuth env admin
  pure { s with admin := some admin }

def transferAdmin (env : Env contract) (s : State) (admin newAdmin : Address) : Outcome State := do
  requireAdmin env s admin
  pure { s with admin := some newAdmin }

def createKey (env : Env contract) (s : State) (actor : Address) (operation : Operation)
    (key : Bytes32) (ttlSeconds : Nat) : Outcome (IdempotencyRecord × State) := do
  requireAuth env actor
  let opSym := operation.asSymbol
  let effectiveTtl ← effectiveTtl ttlSeconds
  refuseExisting actor (s.record ((actor, opSym), key))
  let count := s.pendingCount (actor, opSym)
  refuseIf (maxPendingPerActorOp ≤ count) (.err .pendingLimitExceeded)
  let expiresAt ← orRefuse (fitsU 64 (env.timestamp + effectiveTtl)) (.err .overflow)
  let record : IdempotencyRecord :=
    { key, actor, operation := opSym, status := .pending, createdAt := env.timestamp, expiresAt,
      completedAt := 0, resultHash := 0 }
  let newCount ← orRefuse (fitsU 32 (count + 1)) (.err .overflow)
  pure (record, { s with
    record := Function.update s.record ((actor, opSym), key) (some record)
    pendingCount := Function.update s.pendingCount (actor, opSym) newCount })

def completeSuccess (env : Env contract) (s : State) (actor : Address) (operation : Operation)
    (key resultHash : Bytes32) : Outcome State := do
  requireAuth env actor
  transition env s actor operation.asSymbol key .succeeded resultHash

def completeFailure (env : Env contract) (s : State) (actor : Address) (operation : Operation)
    (key resultHash : Bytes32) : Outcome State := do
  requireAuth env actor
  transition env s actor operation.asSymbol key .failed resultHash

end EntryPoints

/-- The state-changing entry points. -/
inductive Call where
  | initializeContract (admin : Address)
  | transferAdmin (admin newAdmin : Address)
  | createKey (actor : Address) (operation : Operation) (key : Bytes32) (ttlSeconds : Nat)
  | completeSuccess (actor : Address) (operation : Operation) (key resultHash : Bytes32)
  | completeFailure (actor : Address) (operation : Operation) (key resultHash : Bytes32)
  deriving DecidableEq

structure Input (contract : Address) where
  env : Env contract
  call : Call

/-- What an entry point returns. -/
inductive Answer where
  | done
  | created (record : IdempotencyRecord)
  deriving DecidableEq

/-- One entry point applied to the state. -/
def execute (env : Env contract) (s : State) : Call → Outcome (Answer × State)
  | .initializeContract admin => (.done, ·) <$> initializeContract env s admin
  | .transferAdmin admin newAdmin => (.done, ·) <$> transferAdmin env s admin newAdmin
  | .createKey actor operation key ttlSeconds =>
    Prod.map .created id <$> createKey env s actor operation key ttlSeconds
  | .completeSuccess actor operation key resultHash =>
    (.done, ·) <$> completeSuccess env s actor operation key resultHash
  | .completeFailure actor operation key resultHash =>
    (.done, ·) <$> completeFailure env s actor operation key resultHash

def machine (contract : Address) :
    Machine State (Input contract) Answer (Abort ContractError) where
  step s i := execute i.env s i.call

end ChainVerse.ScholarshipIdempotency
