import ChainVerse.Framework.Machine
import ChainVerse.Host.Issuance

namespace ChainVerse.MentorshipApplications

def maxDecisionsPerApplication : Nat := 32
def maxActiveApplications : Nat := 10000

inductive ApplicationError where
  | notInitialized
  | alreadyInitialized
  | unauthorized
  | policyNotFound
  | applicationNotFound
  | invalidConsent
  | invalidReasonCode
  | invalidEffectiveTime
  | decisionWindowClosed
  | invalidTransition
  | decisionHistoryFull
  | withdrawalWindowClosed
  | withdrawalNotAcknowledged
  | withdrawalNotAllowed
  | reapplicationNotAllowed
  | reapplicationTooSoon
  | reapplicationLimitReached
  | staleConsent
  | capacityExceeded
  | counterOverflow
  | internalReasonRequired
  | invalidPolicy
  | withdrawalIsApplicantAction
  deriving DecidableEq, Repr

abbrev Outcome (α : Type) := Except (Abort ApplicationError) α

inductive ApplicationStatus where
  | submitted
  | underReview
  | infoRequested
  | waitlisted
  | accepted
  | rejected
  | withdrawn
  deriving DecidableEq, Repr

/-- A status that no longer accepts decisions or withdrawals. -/
def ApplicationStatus.isFinal : ApplicationStatus → Bool
  | .accepted | .rejected | .withdrawn => true
  | _ => false

inductive DecisionAction where
  | review
  | requestInfo
  | waitlist
  | accept
  | reject
  | withdraw
  deriving DecidableEq, Repr

namespace DecisionAction

def targetStatus : DecisionAction → ApplicationStatus
  | .review => .underReview
  | .requestInfo => .infoRequested
  | .waitlist => .waitlisted
  | .accept => .accepted
  | .reject => .rejected
  | .withdraw => .withdrawn

def requiresInternalReason : DecisionAction → Bool
  | .waitlist | .reject => true
  | _ => false

def isWithdrawal (action : DecisionAction) : Bool := action = .withdraw

end DecisionAction

inductive CommunicationPolicy where
  | notifyImmediately
  | notifyAtEffectiveTime
  | internalOnly
  deriving DecidableEq, Repr

structure ProgramPolicy where
  decisionCutoff : Nat
  withdrawalCutoff : Nat
  allowReapplication : Bool
  reapplyCooldown : Nat
  maxAttempts : Nat
  maxActiveApplications : Nat
  deriving DecidableEq, Repr

structure Application where
  id : Bytes32
  programId : Bytes32
  applicant : Address
  attempt : Nat
  status : ApplicationStatus
  consentVersion : Nat
  consentAffirmedAt : Nat
  previousApplication : Option Bytes32
  submittedAt : Nat
  closedAt : Nat
  decisionCount : Nat
  lastDecisionSeq : Nat
  deriving DecidableEq, Repr

structure DecisionInput where
  publicReason : Nat
  internalReasonHash : Bytes32
  effectiveAt : Nat
  communication : CommunicationPolicy
  deriving DecidableEq, Repr

structure WithdrawalInput where
  publicReason : Nat
  effectiveAt : Nat
  communication : CommunicationPolicy
  acknowledgeConsequences : Bool
  deriving DecidableEq, Repr

structure DecisionRecord where
  applicationId : Bytes32
  seq : Nat
  actor : Address
  action : DecisionAction
  resultingStatus : ApplicationStatus
  publicReason : Nat
  internalReasonHash : Bytes32
  effectiveAt : Nat
  communication : CommunicationPolicy
  recordedAt : Nat
  deriving DecidableEq, Repr

structure State where
  admin : Option Address
  coordinator : Address → Bool
  policy : Bytes32 → Option ProgramPolicy
  application : Bytes32 → Option Application
  /-- Zero where nothing is stored. -/
  applicationCount : Nat
  /-- By application and sequence number. -/
  decision : Bytes32 × Nat → Option DecisionRecord
  /-- Zero where nothing is stored. -/
  activeCount : Bytes32 → Nat
  /-- The reapplication that replaces a previous application. -/
  reappliedFrom : Bytes32 → Option Bytes32

/-- A freshly deployed contract. -/
def State.empty : State where
  admin := none
  coordinator := fun _ => false
  policy := fun _ => none
  application := fun _ => none
  applicationCount := 0
  decision := fun _ => none
  activeCount := fun _ => 0
  reappliedFrom := fun _ => none

variable {contract : Address}

section Helpers

def requireAdmin (env : Env contract) (s : State) (caller : Address) : Outcome Unit := do
  let admin ← orRefuse s.admin (.err .notInitialized)
  refuseIf (caller ≠ admin) (.err .unauthorized)
  requireAuth env caller

def requireCoordinator (env : Env contract) (s : State) (caller : Address) : Outcome Unit := do
  let admin ← orRefuse s.admin (.err .notInitialized)
  refuseIf (caller ≠ admin ∧ s.coordinator caller = false) (.err .unauthorized)
  requireAuth env caller

/-- The bytes that an application id is the hash of; `salt` is what follows the nonce and the time. -/
def applicationPreimage (next timestamp : Nat) (salt : List Byte) : List Byte :=
  beBytes 8 next ++ beBytes 8 timestamp ++ salt

def deriveId (env : Env contract) (crypto : Crypto) (s : State) (salt : List Byte) :
    Outcome (Bytes32 × State) := do
  let next ← orRefuse (fitsU 64 (s.applicationCount + 1)) (.err .counterOverflow)
  pure (crypto.sha256 (applicationPreimage next env.timestamp salt), { s with applicationCount := next })

def getPolicy (s : State) (programId : Bytes32) : Outcome ProgramPolicy :=
  orRefuse (s.policy programId) (.err .policyNotFound)

def loadApplication (s : State) (applicationId : Bytes32) : Outcome Application :=
  orRefuse (s.application applicationId) (.err .applicationNotFound)

def storeApplication (s : State) (application : Application) : State :=
  { s with application := Function.update s.application application.id (some application) }

def loadDecision (s : State) (applicationId : Bytes32) (seq : Nat) : Outcome DecisionRecord :=
  orRefuse (s.decision (applicationId, seq)) (.err .applicationNotFound)

def reserveSlot (s : State) (programId : Bytes32) (limit : Nat) : Outcome State := do
  let current := s.activeCount programId
  refuseIf (limit ≤ current) (.err .capacityExceeded)
  let next ← orRefuse (fitsU 32 (current + 1)) .overflow
  pure { s with activeCount := Function.update s.activeCount programId next }

/-- Gives a slot back, if there is one to give back. -/
def releaseSlot (s : State) (programId : Bytes32) : State :=
  let current := s.activeCount programId
  if 0 < current then { s with activeCount := Function.update s.activeCount programId (current - 1) }
  else s

def effectiveLimit (policy : ProgramPolicy) : Nat :=
  if policy.maxActiveApplications = 0 then maxActiveApplications
  else if policy.maxActiveApplications < maxActiveApplications then policy.maxActiveApplications
  else maxActiveApplications

def validateReapplicationConsent (previous : Application) (consentVersion : Nat) : Outcome Unit := do
  refuseIf (consentVersion = 0) (.err .invalidConsent)
  refuseIf (consentVersion < previous.consentVersion) (.err .staleConsent)

/-- The cooldown check of `reapply`. -/
def checkCooldown (env : Env contract) (policy : ProgramPolicy) (previous : Application) :
    Outcome Unit :=
  if 0 < policy.reapplyCooldown then do
    let eligibleAt ← orRefuse (fitsU 64 (previous.closedAt + policy.reapplyCooldown))
      (.err .counterOverflow)
    refuseIf (env.timestamp < eligibleAt) (.err .reapplicationTooSoon)
  else pure ()

/-- An application as it is handed in. -/
def newApplication (id programId : Bytes32) (applicant : Address) (attempt consentVersion : Nat)
    (previousApplication : Option Bytes32) (now : Nat) : Application where
  id := id
  programId := programId
  applicant := applicant
  attempt := attempt
  status := .submitted
  consentVersion := consentVersion
  consentAffirmedAt := now
  previousApplication := previousApplication
  submittedAt := now
  closedAt := 0
  decisionCount := 0
  lastDecisionSeq := 0

def applicationSalt (crypto : Crypto) (programId : Bytes32) (applicant : Address) (attempt : Nat) :
    List Byte := bytes32 programId ++ crypto.addressXdr applicant ++ beBytes 4 attempt

def createApplication (env : Env contract) (crypto : Crypto) (s : State) (applicant : Address)
    (programId : Bytes32) (attempt consentVersion : Nat) (previousApplication : Option Bytes32) :
    Outcome (Bytes32 × State) := do
  let (id, s) ← deriveId env crypto s (applicationSalt crypto programId applicant attempt)
  pure (id, storeApplication s
    (newApplication id programId applicant attempt consentVersion previousApplication env.timestamp))

/-- Zero means now, and the past is refused. -/
def effectiveTime (env : Env contract) (effectiveAt : Nat) : Outcome Nat :=
  if effectiveAt = 0 then pure env.timestamp
  else do
    refuseIf (effectiveAt < env.timestamp) (.err .invalidEffectiveTime)
    pure effectiveAt

/-- The latest decision on an application, `none` before the first one. -/
def lastDecision (s : State) (applicationId : Bytes32) (application : Application) :
    Outcome (Option DecisionRecord) :=
  if 0 < application.lastDecisionSeq then
    some <$> loadDecision s applicationId application.lastDecisionSeq
  else pure none

end Helpers

section EntryPoints

def initializeContract (env : Env contract) (s : State) (admin : Address) : Outcome State := do
  refuseIf (s.admin.isSome = true) (.err .alreadyInitialized)
  requireAuth env admin
  pure { s with admin := some admin }

def setCoordinator (env : Env contract) (s : State) (caller coordinator : Address)
    (allowed : Bool) : Outcome State := do
  requireAdmin env s caller
  pure { s with coordinator := Function.update s.coordinator coordinator allowed }

def setProgramPolicy (env : Env contract) (s : State) (caller : Address) (programId : Bytes32)
    (policy : ProgramPolicy) : Outcome State := do
  requireAdmin env s caller
  refuseIf (0 < policy.maxAttempts ∧ policy.allowReapplication = false) (.err .invalidPolicy)
  pure { s with policy := Function.update s.policy programId (some policy) }

def openApplication (env : Env contract) (crypto : Crypto) (s : State) (applicant : Address)
    (programId : Bytes32) (consentVersion : Nat) : Outcome (Bytes32 × State) := do
  requireAuth env applicant
  refuseIf (consentVersion = 0) (.err .invalidConsent)
  let policy ← getPolicy s programId
  let s ← reserveSlot s programId (effectiveLimit policy)
  createApplication env crypto s applicant programId 1 consentVersion none

def recordDecision (env : Env contract) (s : State) (coordinator : Address)
    (applicationId : Bytes32) (action : DecisionAction) (input : DecisionInput) :
    Outcome (Nat × State) := do
  requireCoordinator env s coordinator
  refuseIf (action.isWithdrawal = true) (.err .withdrawalIsApplicantAction)
  refuseIf (input.publicReason = 0) (.err .invalidReasonCode)
  refuseIf (action.requiresInternalReason = true ∧ input.internalReasonHash = 0)
    (.err .internalReasonRequired)
  let now := env.timestamp
  let effectiveAt ← effectiveTime env input.effectiveAt
  let application ← loadApplication s applicationId
  let target := action.targetStatus
  let last ← lastDecision s applicationId application
  match last.filter fun last => last.action = action ∧ last.publicReason = input.publicReason ∧
      last.internalReasonHash = input.internalReasonHash ∧ application.status = target with
  | some last => pure (last.seq, s)
  | none => do
    refuseIf (application.status.isFinal = true) (.err .invalidTransition)
    let policy ← getPolicy s application.programId
    refuseIf (policy.decisionCutoff ≠ 0 ∧ policy.decisionCutoff ≤ now) (.err .decisionWindowClosed)
    refuseIf (maxDecisionsPerApplication ≤ application.decisionCount) (.err .decisionHistoryFull)
    let seq ← orRefuse (fitsU 32 (application.decisionCount + 1)) (.err .counterOverflow)
    let record : DecisionRecord :=
      { applicationId, seq, actor := coordinator, action, resultingStatus := target,
        publicReason := input.publicReason, internalReasonHash := input.internalReasonHash,
        effectiveAt, communication := input.communication, recordedAt := now }
    let s := { s with decision := Function.update s.decision (applicationId, seq) (some record) }
    let application :=
      { application with status := target, decisionCount := seq, lastDecisionSeq := seq }
    if target.isFinal then
      let application := { application with closedAt := now }
      let s := releaseSlot s application.programId
      pure (seq, storeApplication s application)
    else pure (seq, storeApplication s application)

def withdrawApplication (env : Env contract) (s : State) (applicant : Address)
    (applicationId : Bytes32) (input : WithdrawalInput) : Outcome (Nat × State) := do
  requireAuth env applicant
  let application ← loadApplication s applicationId
  refuseIf (application.applicant ≠ applicant) (.err .unauthorized)
  refuseIf (input.publicReason = 0) (.err .invalidReasonCode)
  refuseIf (input.acknowledgeConsequences = false) (.err .withdrawalNotAcknowledged)
  let now := env.timestamp
  let effectiveAt ← effectiveTime env input.effectiveAt
  if application.status = .withdrawn then
    let last ← loadDecision s applicationId application.lastDecisionSeq
    refuseIf (¬ (last.action.isWithdrawal = true ∧ last.publicReason = input.publicReason))
      (.err .invalidTransition)
    pure (last.seq, s)
  else
    refuseIf (application.status.isFinal = true) (.err .withdrawalNotAllowed)
    let policy ← getPolicy s application.programId
    refuseIf (policy.withdrawalCutoff ≠ 0 ∧ policy.withdrawalCutoff ≤ now)
      (.err .withdrawalWindowClosed)
    refuseIf (maxDecisionsPerApplication ≤ application.decisionCount) (.err .decisionHistoryFull)
    let seq ← orRefuse (fitsU 32 (application.decisionCount + 1)) (.err .counterOverflow)
    let record : DecisionRecord :=
      { applicationId, seq, actor := applicant, action := .withdraw, resultingStatus := .withdrawn,
        publicReason := input.publicReason, internalReasonHash := 0, effectiveAt,
        communication := input.communication, recordedAt := now }
    let s := { s with decision := Function.update s.decision (applicationId, seq) (some record) }
    let application := { application with
      status := .withdrawn, decisionCount := seq, lastDecisionSeq := seq, closedAt := now }
    let s := storeApplication s application
    pure (seq, releaseSlot s application.programId)

def reapply (env : Env contract) (crypto : Crypto) (s : State) (applicant : Address)
    (previousApplicationId : Bytes32) (consentVersion : Nat) : Outcome (Bytes32 × State) := do
  requireAuth env applicant
  match s.reappliedFrom previousApplicationId with
  | some existing => pure (existing, s)
  | none => do
    let previous ← loadApplication s previousApplicationId
    refuseIf (previous.applicant ≠ applicant) (.err .unauthorized)
    refuseIf (¬ (previous.status = .withdrawn ∨ previous.status = .rejected))
      (.err .reapplicationNotAllowed)
    let policy ← getPolicy s previous.programId
    refuseIf (policy.allowReapplication = false) (.err .reapplicationNotAllowed)
    validateReapplicationConsent previous consentVersion
    let attempt ← orRefuse (fitsU 32 (previous.attempt + 1)) (.err .counterOverflow)
    refuseIf (policy.maxAttempts ≠ 0 ∧ policy.maxAttempts < attempt)
      (.err .reapplicationLimitReached)
    checkCooldown env policy previous
    let s ← reserveSlot s previous.programId (effectiveLimit policy)
    let (id, s) ← createApplication env crypto s applicant previous.programId attempt consentVersion
      (some previousApplicationId)
    pure (id, { s with
      reappliedFrom := Function.update s.reappliedFrom previousApplicationId (some id) })

end EntryPoints

/-- The state-changing entry points. -/
inductive Call where
  | initializeContract (admin : Address)
  | setCoordinator (caller coordinator : Address) (allowed : Bool)
  | setProgramPolicy (caller : Address) (programId : Bytes32) (policy : ProgramPolicy)
  | openApplication (applicant : Address) (programId : Bytes32) (consentVersion : Nat)
  | recordDecision (coordinator : Address) (applicationId : Bytes32) (action : DecisionAction)
    (input : DecisionInput)
  | withdrawApplication (applicant : Address) (applicationId : Bytes32) (input : WithdrawalInput)
  | reapply (applicant : Address) (previousApplicationId : Bytes32) (consentVersion : Nat)
  deriving DecidableEq, Repr

structure Input (contract : Address) where
  env : Env contract
  call : Call

/-- What an entry point returns. -/
inductive Answer where
  | done
  | application (id : Bytes32)
  | decision (seq : Nat)
  deriving DecidableEq, Repr

/-- One entry point applied to the state. -/
def execute (crypto : Crypto) (env : Env contract) (s : State) : Call → Outcome (Answer × State)
  | .initializeContract admin => (.done, ·) <$> initializeContract env s admin
  | .setCoordinator caller coordinator allowed =>
    (.done, ·) <$> setCoordinator env s caller coordinator allowed
  | .setProgramPolicy caller programId policy =>
    (.done, ·) <$> setProgramPolicy env s caller programId policy
  | .openApplication applicant programId consentVersion =>
    Prod.map .application id <$> openApplication env crypto s applicant programId consentVersion
  | .recordDecision coordinator applicationId action input =>
    Prod.map .decision id <$> recordDecision env s coordinator applicationId action input
  | .withdrawApplication applicant applicationId input =>
    Prod.map .decision id <$> withdrawApplication env s applicant applicationId input
  | .reapply applicant previousApplicationId consentVersion =>
    Prod.map .application id <$>
      reapply env crypto s applicant previousApplicationId consentVersion

def machine (contract : Address) (crypto : Crypto) :
    Machine State (Input contract) Answer (Abort ApplicationError) where
  step s i := execute crypto i.env s i.call

end ChainVerse.MentorshipApplications
