import ChainVerse.Framework.Machine
import ChainVerse.Host.Environment
import Mathlib.Logic.Function.Basic

namespace ChainVerse.PaymentAnomaly

inductive ContractError where
  | alreadyInitialized
  | notInitialized
  | unauthorized
  | contractPaused
  | alertNotFound
  | alertAlreadyExists
  | paymentRefTooLong
  | descriptionTooLong
  | evidenceRefTooLong
  | notesTooLong
  | alertAlreadyResolved
  | pauseWindowExpired
  | arithmeticOverflow
  | invalidAmount
  | invalidVelocity
  deriving DecidableEq, Repr

abbrev Outcome (α : Type) := Except (Abort ContractError) α

inductive AnomalyCategory where
  | unusualDestination
  | rapidWalletChange
  | duplicateLedgerReference
  | suspiciousSplit
  | repeatedFailure
  | other
  deriving DecidableEq, Repr

inductive AlertStatus where
  | pausedPendingReview
  | confirmed
  | cleared
  | superseded
  deriving DecidableEq, Repr

structure PaymentAlert where
  paymentRef : String
  category : AnomalyCategory
  status : AlertStatus
  description : String
  evidenceRef : String
  amount : Int
  destination : Address
  paymentPaused : Bool
  /-- Zero when the pause does not expire. -/
  pauseExpiresAt : Nat
  raisedBy : Address
  raisedAt : Nat
  resolvedBy : Option Address
  resolutionNotes : String
  resolvedAt : Nat
  walletChangeVelocity : Nat
  retryCount : Nat
  deriving DecidableEq, Repr

structure State where
  admin : Option Address
  paused : Bool
  detector : Option Address
  resolver : Option Address
  alert : String → Option PaymentAlert
  totalAlerts : Nat
  totalPausedAmount : Int

def State.empty : State where
  admin := none
  paused := false
  detector := none
  resolver := none
  alert := fun _ => none
  totalAlerts := 0
  totalPausedAmount := 0

variable {contract : Address}

def maxPaymentRefBytes : Nat := 64
def maxDescriptionBytes : Nat := 512
def maxEvidenceRefBytes : Nat := 256
def maxNotesBytes : Nat := 1024

/-- 72 hours. -/
def defaultPauseWindowSecs : Nat := 259200

section Storage

/-- The three roles are checked alike: the caller signs, and holds the role. -/
def requireRole (env : Env contract) (role : Option Address) (caller : Address) : Outcome Unit := do
  requireAuth env caller
  let holder ← orRefuse role (.err .notInitialized)
  refuseIf (holder ≠ caller) (.err .unauthorized)

def requireAdmin (env : Env contract) (s : State) (caller : Address) : Outcome Unit :=
  requireRole env s.admin caller

def requireDetector (env : Env contract) (s : State) (caller : Address) : Outcome Unit :=
  requireRole env s.detector caller

def requireResolver (env : Env contract) (s : State) (caller : Address) : Outcome Unit :=
  requireRole env s.resolver caller

def assertNotPaused (s : State) : Outcome Unit := refuseIf (s.paused = true) (.err .contractPaused)

def saveAlert (s : State) (alert : PaymentAlert) : State :=
  { s with alert := Function.update s.alert alert.paymentRef (some alert) }

def incrementTotalAlerts (s : State) : State :=
  { s with totalAlerts := saturatingAdd s.totalAlerts 1 }

def addPausedAmount (s : State) (amount : Int) : Outcome State := do
  let newTotal ← orRefuse (fitsI128 (s.totalPausedAmount + amount)) (.err .arithmeticOverflow)
  pure { s with totalPausedAmount := newTotal }

/-- Where the difference does not fit, the total is put to zero. -/
def subPausedAmount (s : State) (amount : Int) : State :=
  { s with totalPausedAmount := (fitsI128 (s.totalPausedAmount - amount)).getD 0 }

end Storage

section EntryPoints

def initContract (env : Env contract) (s : State) (admin detector resolver : Address) :
    Outcome State := do
  refuseIf (s.admin.isSome = true) (.err .alreadyInitialized)
  requireAuth env admin
  pure { s with
    admin := some admin, detector := some detector, resolver := some resolver, paused := false }

/-- When a pause that starts now ends. -/
def pauseEnd (now pauseDurationSecs : Nat) (pausePayment : Bool) : Nat :=
  if pausePayment = true then
    saturatingAdd now
      (if pauseDurationSecs = 0 then defaultPauseWindowSecs else pauseDurationSecs)
  else 0

def raiseAlert (env : Env contract) (s : State) (caller : Address) (paymentRef : String)
    (category : AnomalyCategory) (description evidenceRef : String) (amount : Int)
    (destination : Address) (pausePayment : Bool)
    (pauseDurationSecs walletChangeVelocity retryCount : Nat) : Outcome State := do
  assertNotPaused s
  requireDetector env s caller
  refuseIf (maxPaymentRefBytes < paymentRef.utf8ByteSize) (.err .paymentRefTooLong)
  refuseIf (maxDescriptionBytes < description.utf8ByteSize) (.err .descriptionTooLong)
  refuseIf (maxEvidenceRefBytes < evidenceRef.utf8ByteSize) (.err .evidenceRefTooLong)
  refuseIf (amount < 0) (.err .invalidAmount)
  refuseIf ((s.alert paymentRef).isSome = true) (.err .alertAlreadyExists)
  let alert : PaymentAlert :=
    { paymentRef, category, status := .pausedPendingReview, description, evidenceRef, amount
      destination, paymentPaused := pausePayment
      pauseExpiresAt := pauseEnd env.timestamp pauseDurationSecs pausePayment
      raisedBy := caller, raisedAt := env.timestamp, resolvedBy := none, resolutionNotes := ""
      resolvedAt := 0, walletChangeVelocity, retryCount }
  let s ← (if pausePayment = true then addPausedAmount s amount else pure s)
  pure (incrementTotalAlerts (saveAlert s alert))

def PaymentAlert.resolved (alert : PaymentAlert) (paymentPaused : Bool) (resolution : AlertStatus)
    (caller : Address) (notes : String) (now : Nat) : PaymentAlert :=
  { alert with
    paymentPaused := paymentPaused, status := resolution, resolvedBy := some caller
    resolutionNotes := notes, resolvedAt := now }

/-- Only an alert that is cleared gives up its flag and its amount. -/
def resolveAlert (env : Env contract) (s : State) (caller : Address) (paymentRef : String)
    (resolution : AlertStatus) (notes : String) : Outcome State := do
  assertNotPaused s
  requireResolver env s caller
  refuseIf (maxNotesBytes < notes.utf8ByteSize) (.err .notesTooLong)
  let alert ← orRefuse (s.alert paymentRef) (.err .alertNotFound)
  refuseIf (alert.status = .confirmed ∨ alert.status = .cleared) (.err .alertAlreadyResolved)
  refuseIf (resolution ≠ .cleared ∧ resolution ≠ .confirmed) (.err .unauthorized)
  if resolution = .cleared ∧ alert.paymentPaused = true then
    pure (saveAlert (subPausedAmount s alert.amount)
      (alert.resolved false resolution caller notes env.timestamp))
  else
    pure (saveAlert s
      (alert.resolved alert.paymentPaused resolution caller notes env.timestamp))

/-- Only an alert under review pauses its payment. -/
def isPaymentPaused (env : Env contract) (s : State) (paymentRef : String) : Bool :=
  match s.alert paymentRef with
  | none => false
  | some alert =>
    if alert.paymentPaused = false then false
    else if alert.status ≠ .pausedPendingReview then false
    else if 0 < alert.pauseExpiresAt ∧ alert.pauseExpiresAt < env.timestamp then false
    else true

def getTotalPausedAmount (s : State) : Int := s.totalPausedAmount

def setPaused (env : Env contract) (s : State) (caller : Address) (value : Bool) :
    Outcome State := do
  requireAdmin env s caller
  pure { s with paused := value }

def pause (env : Env contract) (s : State) (caller : Address) : Outcome State :=
  setPaused env s caller true

def unpause (env : Env contract) (s : State) (caller : Address) : Outcome State :=
  setPaused env s caller false

def setDetector (env : Env contract) (s : State) (caller newDetector : Address) :
    Outcome State := do
  requireAdmin env s caller
  pure { s with detector := some newDetector }

def setResolver (env : Env contract) (s : State) (caller newResolver : Address) :
    Outcome State := do
  requireAdmin env s caller
  pure { s with resolver := some newResolver }

end EntryPoints

/-- The state-changing entry points. -/
inductive Call where
  | initContract (admin detector resolver : Address)
  | raiseAlert (caller : Address) (paymentRef : String) (category : AnomalyCategory)
      (description evidenceRef : String) (amount : Int) (destination : Address)
      (pausePayment : Bool) (pauseDurationSecs walletChangeVelocity retryCount : Nat)
  | resolveAlert (caller : Address) (paymentRef : String) (resolution : AlertStatus)
      (notes : String)
  | pause (caller : Address)
  | unpause (caller : Address)
  | setDetector (caller newDetector : Address)
  | setResolver (caller newResolver : Address)
  deriving DecidableEq, Repr

structure Input (contract : Address) where
  env : Env contract
  call : Call

def execute (env : Env contract) (s : State) : Call → Outcome State
  | .initContract admin detector resolver => initContract env s admin detector resolver
  | .raiseAlert caller paymentRef category description evidenceRef amount destination pausePayment
      pauseDurationSecs walletChangeVelocity retryCount =>
    raiseAlert env s caller paymentRef category description evidenceRef amount destination
      pausePayment pauseDurationSecs walletChangeVelocity retryCount
  | .resolveAlert caller paymentRef resolution notes =>
    resolveAlert env s caller paymentRef resolution notes
  | .pause caller => pause env s caller
  | .unpause caller => unpause env s caller
  | .setDetector caller newDetector => setDetector env s caller newDetector
  | .setResolver caller newResolver => setResolver env s caller newResolver

def machine (contract : Address) :
    Machine State (Input contract) Unit (Abort ContractError) where
  step s i := ((), ·) <$> execute i.env s i.call

end ChainVerse.PaymentAnomaly
