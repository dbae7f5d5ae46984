import ChainVerse.Framework.Machine
import ChainVerse.Host.Bytes
import Mathlib.Logic.Function.Basic

namespace ChainVerse.ScholarshipRateLimits

def maxBuckets : Nat := 500000

def defaultWindowSeconds : U64 := 3600

def defaultMaxCount : U32 := 100

inductive ContractError where
  | notInitialized
  | alreadyInitialized
  | notAdmin
  | rateLimitExceeded
  | serviceAuthRequired
  | invalidWindow
  | invalidMaxCount
  | bucketLimitExceeded
  | overflow
  deriving DecidableEq, Repr

abbrev Outcome (α : Type) := Except (Abort ContractError) α

inductive Action where
  | discovery
  | application
  | upload
  | invitation
  | messaging
  | payout
  deriving DecidableEq, Repr

inductive RiskTier where
  | low
  | medium
  | high
  | critical
  deriving DecidableEq, Repr

structure ActionConfig where
  riskTier : RiskTier
  windowSeconds : U64
  maxCount : U32
  deriving DecidableEq

/-- An actor with an action, and the index of a window. -/
abbrev BucketKey := (Address × Action) × Nat

/-- The contract's storage. -/
structure State where
  admin : Option Address
  actionConfig : Action → Option ActionConfig
  serviceAuth : Address → Option Bool
  /-- Zero where nothing is stored. -/
  bucket : BucketKey → Nat
  bucketCount : Nat

def State.empty : State where
  admin := none
  actionConfig := fun _ => none
  serviceAuth := fun _ => none
  bucket := fun _ => 0
  bucketCount := 0

variable {contract : Address}

section Queries

def getActionConfig (s : State) (action : Action) : ActionConfig :=
  (s.actionConfig action).getD
    { riskTier := .medium, windowSeconds := defaultWindowSeconds, maxCount := defaultMaxCount }

def hasServiceAuth (s : State) (service : Address) : Bool := (s.serviceAuth service).getD false

/-- `now / window_seconds`, which traps on zero. -/
def windowId (env : Env contract) (config : ActionConfig) : Outcome Nat := do
  refuseIf ((config.windowSeconds : Nat) = 0) .panicked
  pure (env.timestamp / config.windowSeconds)

/-- What is used and what remains in the current window, and when it ends. -/
def currentUsage (env : Env contract) (s : State) (actor : Address) (action : Action) :
    Outcome (Nat × Nat × Nat) := do
  let config := getActionConfig s action
  let windowId ← windowId env config
  let next ← orRefuse (fitsU 64 (windowId + 1)) .overflow
  let windowReset ← orRefuse (fitsU 64 (next * config.windowSeconds)) .overflow
  let used := s.bucket ((actor, action), windowId)
  pure (used, config.maxCount - used, windowReset)

end Queries

section Helpers

def requireAdmin (env : Env contract) (s : State) (caller : Address) : Outcome Unit := do
  let admin ← orRefuse s.admin (.err .notInitialized)
  refuseIf (caller ≠ admin) (.err .notAdmin)
  requireAuth env caller

def seedDefaults : Action → Option ActionConfig
  | .discovery => some { riskTier := .low, windowSeconds := 3600, maxCount := 300 }
  | .application => some { riskTier := .medium, windowSeconds := 86400, maxCount := 10 }
  | .upload => some { riskTier := .medium, windowSeconds := 86400, maxCount := 20 }
  | .invitation => some { riskTier := .medium, windowSeconds := 86400, maxCount := 50 }
  | .messaging => some { riskTier := .medium, windowSeconds := 3600, maxCount := 100 }
  | .payout => some { riskTier := .high, windowSeconds := 86400, maxCount := 5 }

/-- Only a service may take the actions of the two upper tiers. -/
def requireTier (s : State) (actor : Address) (config : ActionConfig) : Outcome Unit :=
  match config.riskTier with
  | .high | .critical => refuseIf (hasServiceAuth s actor = false) (.err .serviceAuthRequired)
  | .low | .medium => pure ()

/-- The number of buckets, once there is one for `current` more. -/
def countBucket (s : State) (current : Nat) : Outcome Nat :=
  if current = 0 then do
    refuseIf (maxBuckets ≤ s.bucketCount) (.err .bucketLimitExceeded)
    orRefuse (fitsU 64 (s.bucketCount + 1)) (.err .overflow)
  else pure s.bucketCount

end Helpers

section EntryPoints

def initializeContract (env : Env contract) (s : State) (admin : Address) : Outcome State := do
  refuseIf (s.admin ≠ none) (.err .alreadyInitialized)
  requireAuth env admin
  pure { s with admin := some admin, actionConfig := seedDefaults }

def setActionConfig (env : Env contract) (s : State) (admin : Address) (action : Action)
    (riskTier : RiskTier) (windowSeconds : U64) (maxCount : U32) : Outcome State := do
  requireAdmin env s admin
  refuseIf ((windowSeconds : Nat) = 0) (.err .invalidWindow)
  refuseIf ((maxCount : Nat) = 0) (.err .invalidMaxCount)
  pure { s with
    actionConfig := Function.update s.actionConfig action
      (some { riskTier, windowSeconds, maxCount }) }

def setServiceAuth (env : Env contract) (s : State) (admin service : Address) (granted : Bool) :
    Outcome State := do
  requireAdmin env s admin
  pure { s with serviceAuth := Function.update s.serviceAuth service (some granted) }

def grantServiceAuth (env : Env contract) (s : State) (admin service : Address) : Outcome State :=
  setServiceAuth env s admin service true

def revokeServiceAuth (env : Env contract) (s : State) (admin service : Address) : Outcome State :=
  setServiceAuth env s admin service false

def checkAndRecord (env : Env contract) (s : State) (actor : Address) (action : Action) :
    Outcome (Nat × State) := do
  requireAuth env actor
  let config := getActionConfig s action
  let windowId ← windowId env config
  let next ← orRefuse (fitsU 64 (windowId + 1)) (.err .overflow)
  let _ ← orRefuse (fitsU 64 (next * config.windowSeconds)) (.err .overflow)
  requireTier s actor config
  let bucketKey := ((actor, action), windowId)
  let current := s.bucket bucketKey
  refuseIf (config.maxCount ≤ current) (.err .rateLimitExceeded)
  let next ← orRefuse (fitsU 32 (current + 1)) (.err .overflow)
  let bucketCount ← countBucket s current
  pure (config.maxCount - next, { s with
    bucket := Function.update s.bucket bucketKey next
    bucketCount := bucketCount })

end EntryPoints

/-- The state-changing entry points. -/
inductive Call where
  | initializeContract (admin : Address)
  | setActionConfig (admin : Address) (action : Action) (riskTier : RiskTier) (windowSeconds : U64)
      (maxCount : U32)
  | grantServiceAuth (admin service : Address)
  | revokeServiceAuth (admin service : Address)
  | checkAndRecord (actor : Address) (action : Action)
  deriving DecidableEq

structure Input (contract : Address) where
  env : Env contract
  call : Call

/-- What an entry point returns. -/
inductive Answer where
  | done
  | remaining (count : Nat)
  deriving DecidableEq, Repr

/-- One entry point applied to the state. -/
def execute (env : Env contract) (s : State) : Call → Outcome (Answer × State)
  | .initializeContract admin => (.done, ·) <$> initializeContract env s admin
  | .setActionConfig admin action riskTier windowSeconds maxCount =>
    (.done, ·) <$> setActionConfig env s admin action riskTier windowSeconds maxCount
  | .grantServiceAuth admin service => (.done, ·) <$> grantServiceAuth env s admin service
  | .revokeServiceAuth admin service => (.done, ·) <$> revokeServiceAuth env s admin service
  | .checkAndRecord actor action =>
    Prod.map .remaining id <$> checkAndRecord env s actor action

def machine (contract : Address) :
    Machine State (Input contract) Answer (Abort ContractError) where
  step s i := execute i.env s i.call

end ChainVerse.ScholarshipRateLimits
