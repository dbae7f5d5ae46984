import ChainVerse.Framework.Machine
import ChainVerse.Host.Environment
import Mathlib.Logic.Function.Basic

namespace ChainVerse.ScholarshipAwards

inductive ContractError where
  | notInitialized
  | alreadyInitialized
  | notAdmin
  | awardNotFound
  | awardAlreadyExists
  | invalidAmount
  | invalidDeadline
  | conflictingAward
  | notRecipient
  | offerNotActive
  | offerExpired
  | invalidTransition
  | paymentAlreadyMade
  | noPaymentMade
  | recoveryExceedsPaid
  | disbursementExceedsAward
  | noReservation
  | awardNotDisburseable
  | offerNotExpired
  | acceptanceNotFound
  | versionConflict
  | versionOverflow
  deriving DecidableEq, Repr

abbrev Outcome (α : Type) := Except (Abort ContractError) α

inductive AwardStatus where
  | offered
  | accepted
  | declined
  | expired
  | cancelled
  | terminated
  deriving DecidableEq, Repr

structure Award where
  version : Nat
  id : Bytes32
  programId : Bytes32
  recipient : Address
  amount : Int
  currency : Symbol
  termsVersion : Nat
  termsHash : Bytes32
  milestoneScheduleId : Option Bytes32
  offeredAt : Nat
  acceptanceDeadline : Nat
  status : AwardStatus
  /-- Set while the award holds a budget reservation. -/
  reserved : Bool
  paidAmount : Int
  decidedAt : Nat
  reasonCode : Nat
  deriving DecidableEq, Repr

structure AgreementAcceptance where
  awardId : Bytes32
  termsVersion : Nat
  termsHash : Bytes32
  signer : Address
  acceptedAt : Nat
  declarationsHash : Bytes32
  deriving DecidableEq, Repr

structure State where
  admin : Option Address
  award : Bytes32 → Option Award
  /-- `ActiveAward(recipient, program_id)`. -/
  activeAward : Address × Bytes32 → Option Bytes32
  acceptance : Bytes32 → Option AgreementAcceptance
  recovery : Bytes32 → Option Int
  /-- Zero where nothing is stored. -/
  reservation : Bytes32 → Nat

def State.empty : State where
  admin := none
  award := fun _ => none
  activeAward := fun _ => none
  acceptance := fun _ => none
  recovery := fun _ => none
  reservation := fun _ => 0

variable {contract : Address}

section Helpers

def initializeContract (env : Env contract) (s : State) (admin : Address) : Outcome State := do
  refuseIf (s.admin.isSome = true) (.err .alreadyInitialized)
  requireAuth env admin
  pure { s with admin := some admin }

def requireAdmin (env : Env contract) (s : State) (caller : Address) : Outcome Unit := do
  let admin ← orRefuse s.admin (.err .notInitialized)
  refuseIf (caller ≠ admin) (.err .notAdmin)
  requireAuth env caller

/-- The policy table of status changes. -/
def isLegalTransition : AwardStatus → AwardStatus → Bool
  | .offered, .accepted | .offered, .declined | .offered, .expired | .offered, .cancelled
  | .accepted, .cancelled | .accepted, .terminated => true
  | _, _ => false

def putAward (s : State) (award : Award) : State :=
  { s with award := Function.update s.award award.id (some award) }

def loadAward (s : State) (awardId : Bytes32) : Outcome Award :=
  orRefuse (s.award awardId) (.err .awardNotFound)

def advanceAwardVersion (award : Award) (expectedVersion : Nat) : Outcome Award := do
  refuseIf (award.version ≠ expectedVersion) (.err .versionConflict)
  let version ← orRefuse (fitsU 32 (award.version + 1)) (.err .versionOverflow)
  pure { award with version := version }

/-- Holds one more reservation of a program. -/
def reserve (s : State) (programId : Bytes32) : Outcome State := do
  let next ← orRefuse (fitsU 32 (s.reservation programId + 1)) (.err .noReservation)
  pure { s with reservation := Function.update s.reservation programId next }

def release (s : State) (programId : Bytes32) : Outcome State := do
  let next ← orRefuse (checkedSub (s.reservation programId) 1) (.err .noReservation)
  pure { s with reservation := Function.update s.reservation programId next }

def clearActiveAward (s : State) (recipient : Address) (programId : Bytes32) : State :=
  { s with activeAward := Function.update s.activeAward (recipient, programId) none }

/-- The end that decline, expiry, cancellation and termination share: the award is stored in its
terminal status, gives its reservation back and frees the pointer. -/
def closeAward (env : Env contract) (s : State) (award : Award) (status : AwardStatus) :
    Outcome State := do
  let s := putAward s
    { award with status := status, decidedAt := env.timestamp, reserved := false }
  let s ← release s award.programId
  pure (clearActiveAward s award.recipient award.programId)

end Helpers

section EntryPoints

def createAward (env : Env contract) (s : State) (admin : Address) (awardId programId : Bytes32)
    (recipient : Address) (amount : Int) (currency : Symbol) (termsVersion : Nat)
    (termsHash : Bytes32) (acceptanceDeadline : Nat) (milestoneScheduleId : Option Bytes32) :
    Outcome State := do
  requireAdmin env s admin
  refuseIf (amount ≤ 0) (.err .invalidAmount)
  refuseIf (acceptanceDeadline ≤ env.timestamp) (.err .invalidDeadline)
  refuseIf ((s.award awardId).isSome = true) (.err .awardAlreadyExists)
  refuseIf ((s.activeAward (recipient, programId)).isSome = true) (.err .conflictingAward)
  let s := putAward s
    { version := 1, id := awardId, programId, recipient, amount, currency, termsVersion, termsHash
      milestoneScheduleId, offeredAt := env.timestamp, acceptanceDeadline, status := .offered
      reserved := true, paidAmount := 0, decidedAt := 0, reasonCode := 0 }
  let s := { s with
    activeAward := Function.update s.activeAward (recipient, programId) (some awardId) }
  reserve s programId

def hasActiveAward (s : State) (recipient : Address) (programId : Bytes32) : Bool :=
  (s.activeAward (recipient, programId)).isSome

def getReservation (s : State) (programId : Bytes32) : Nat := s.reservation programId

def acceptAward (env : Env contract) (s : State) (recipient : Address) (awardId : Bytes32)
    (expectedVersion : Nat) (declarationsHash : Bytes32) : Outcome State := do
  requireAuth env recipient
  let award ← loadAward s awardId
  refuseIf (award.recipient ≠ recipient) (.err .notRecipient)
  let award ← advanceAwardVersion award expectedVersion
  refuseIf (award.status ≠ .offered) (.err .offerNotActive)
  refuseIf (award.acceptanceDeadline < env.timestamp) (.err .offerExpired)
  refuseIf (isLegalTransition award.status .accepted = false) (.err .invalidTransition)
  let acceptance : AgreementAcceptance :=
    ⟨awardId, award.termsVersion, award.termsHash, recipient, env.timestamp, declarationsHash⟩
  let s := { s with acceptance := Function.update s.acceptance awardId (some acceptance) }
  pure (putAward s { award with status := .accepted, decidedAt := env.timestamp })

def declineAward (env : Env contract) (s : State) (recipient : Address) (awardId : Bytes32)
    (expectedVersion : Nat) : Outcome State := do
  requireAuth env recipient
  let award ← loadAward s awardId
  refuseIf (award.recipient ≠ recipient) (.err .notRecipient)
  let award ← advanceAwardVersion award expectedVersion
  refuseIf (isLegalTransition award.status .declined = false) (.err .invalidTransition)
  closeAward env s award .declined

/-- Anybody may expire an unanswered offer once its deadline has passed. -/
def expireAward (env : Env contract) (s : State) (awardId : Bytes32) (expectedVersion : Nat) :
    Outcome State := do
  let award ← loadAward s awardId
  let award ← advanceAwardVersion award expectedVersion
  refuseIf (award.status ≠ .offered) (.err .invalidTransition)
  refuseIf (env.timestamp ≤ award.acceptanceDeadline) (.err .offerNotExpired)
  closeAward env s award .expired

def cancelAward (env : Env contract) (s : State) (admin : Address) (awardId : Bytes32)
    (expectedVersion reasonCode : Nat) : Outcome State := do
  requireAdmin env s admin
  let award ← loadAward s awardId
  let award ← advanceAwardVersion award expectedVersion
  refuseIf (0 < award.paidAmount) (.err .paymentAlreadyMade)
  refuseIf (isLegalTransition award.status .cancelled = false) (.err .invalidTransition)
  closeAward env s { award with reasonCode := reasonCode } .cancelled

def terminateAward (env : Env contract) (s : State) (admin : Address) (awardId : Bytes32)
    (expectedVersion reasonCode : Nat) (recoveryAmount : Int) : Outcome State := do
  requireAdmin env s admin
  let award ← loadAward s awardId
  let award ← advanceAwardVersion award expectedVersion
  refuseIf (award.paidAmount = 0) (.err .noPaymentMade)
  refuseIf (recoveryAmount < 0 ∨ award.paidAmount < recoveryAmount) (.err .recoveryExceedsPaid)
  refuseIf (isLegalTransition award.status .terminated = false) (.err .invalidTransition)
  let s := { s with recovery := Function.update s.recovery awardId (some recoveryAmount) }
  closeAward env s { award with reasonCode := reasonCode } .terminated

def getRecovery (s : State) (awardId : Bytes32) : Int := (s.recovery awardId).getD 0

/-- Books a payment that was made elsewhere. -/
def recordDisbursement (env : Env contract) (s : State) (admin : Address) (awardId : Bytes32)
    (expectedVersion : Nat) (amount : Int) : Outcome State := do
  requireAdmin env s admin
  refuseIf (amount ≤ 0) (.err .invalidAmount)
  let award ← loadAward s awardId
  let award ← advanceAwardVersion award expectedVersion
  refuseIf (award.status ≠ .accepted) (.err .awardNotDisburseable)
  let newPaid ← orRefuse (fitsI128 (award.paidAmount + amount)) (.err .disbursementExceedsAward)
  refuseIf (award.amount < newPaid) (.err .disbursementExceedsAward)
  pure (putAward s { award with paidAmount := newPaid })

end EntryPoints

/-- The state-changing entry points. -/
inductive Call where
  | initializeContract (admin : Address)
  | createAward (admin : Address) (awardId programId : Bytes32) (recipient : Address)
      (amount : Int) (currency : Symbol) (termsVersion : Nat) (termsHash : Bytes32)
      (acceptanceDeadline : Nat) (milestoneScheduleId : Option Bytes32)
  | acceptAward (recipient : Address) (awardId : Bytes32) (expectedVersion : Nat)
      (declarationsHash : Bytes32)
  | declineAward (recipient : Address) (awardId : Bytes32) (expectedVersion : Nat)
  | expireAward (awardId : Bytes32) (expectedVersion : Nat)
  | cancelAward (admin : Address) (awardId : Bytes32) (expectedVersion reasonCode : Nat)
  | terminateAward (admin : Address) (awardId : Bytes32) (expectedVersion reasonCode : Nat)
      (recoveryAmount : Int)
  | recordDisbursement (admin : Address) (awardId : Bytes32) (expectedVersion : Nat)
      (amount : Int)
  deriving DecidableEq, Repr

structure Input (contract : Address) where
  env : Env contract
  call : Call

/-- One entry point applied to the state. -/
def execute (env : Env contract) (s : State) : Call → Outcome State
  | .initializeContract admin => initializeContract env s admin
  | .createAward admin awardId programId recipient amount currency termsVersion termsHash
      acceptanceDeadline milestoneScheduleId =>
    createAward env s admin awardId programId recipient amount currency termsVersion termsHash
      acceptanceDeadline milestoneScheduleId
  | .acceptAward recipient awardId expectedVersion declarationsHash =>
    acceptAward env s recipient awardId expectedVersion declarationsHash
  | .declineAward recipient awardId expectedVersion =>
    declineAward env s recipient awardId expectedVersion
  | .expireAward awardId expectedVersion => expireAward env s awardId expectedVersion
  | .cancelAward admin awardId expectedVersion reasonCode =>
    cancelAward env s admin awardId expectedVersion reasonCode
  | .terminateAward admin awardId expectedVersion reasonCode recoveryAmount =>
    terminateAward env s admin awardId expectedVersion reasonCode recoveryAmount
  | .recordDisbursement admin awardId expectedVersion amount =>
    recordDisbursement env s admin awardId expectedVersion amount

def machine (contract : Address) :
    Machine State (Input contract) Unit (Abort ContractError) where
  step s i := ((), ·) <$> execute i.env s i.call

end ChainVerse.ScholarshipAwards
