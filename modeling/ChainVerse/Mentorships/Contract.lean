import ChainVerse.Framework.Machine
import ChainVerse.Host.Environment
import Mathlib.Logic.Function.Basic

namespace ChainVerse.MentorshipCore

inductive ContractError where
  | notInitialized
  | alreadyInitialized
  | notAdmin
  | mentorshipAlreadyExists
  | mentorshipNotFound
  | conflictingMentorship
  | notMentor
  | notMentee
  | invalidAmount
  | invalidDates
  | invalidTitle
  | invalidStatus
  | unauthorized
  | notFound
  deriving DecidableEq, Repr

abbrev Outcome (α : Type) := Except (Abort ContractError) α

inductive MentorshipStatus where
  | proposed
  | proposedMenteeAccepted
  | proposedMentorAccepted
  | active
  | completed
  | rejected
  | terminated
  deriving DecidableEq, Repr

structure MentorshipMatch where
  id : Bytes32
  programId : Bytes32
  mentor : Address
  mentee : Address
  amount : Int
  currency : Symbol
  termsVersion : Nat
  termsHash : Bytes32
  title : String
  startDate : Nat
  endDate : Nat
  status : MentorshipStatus
  proposedAt : Nat
  /-- The times of what has not happened are zero. -/
  menteeAcceptedAt : Nat
  mentorAcceptedAt : Nat
  activatedAt : Nat
  completedAt : Nat
  terminatedAt : Nat
  terminationReasonCode : Nat
  /-- Set while the match holds a reservation in the capacity contract. -/
  reserved : Bool
  deriving DecidableEq, Repr

/-- `MenteeAcceptance` and `MentorAcceptance`, two types with the same fields. -/
structure SignedAcceptance where
  matchId : Bytes32
  termsVersion : Nat
  termsHash : Bytes32
  signer : Address
  acceptedAt : Nat
  declarationsHash : Bytes32
  deriving DecidableEq, Repr

structure State where
  admin : Option Address
  mentorship : Bytes32 → Option MentorshipMatch
  /-- `ActiveMentorship(mentor, mentee)`. -/
  activeMentorship : Address × Address → Option Bytes32
  menteeAcceptance : Bytes32 → Option SignedAcceptance
  mentorAcceptance : Bytes32 → Option SignedAcceptance
  mentorIndex : Address → List Bytes32
  menteeIndex : Address → List Bytes32

def State.empty : State where
  admin := none
  mentorship := fun _ => none
  activeMentorship := fun _ => none
  menteeAcceptance := fun _ => none
  mentorAcceptance := fun _ => none
  mentorIndex := fun _ => []
  menteeIndex := fun _ => []

variable {contract : Address}

def maxTitleLen : Nat := 200

section Storage

def requireAdmin (env : Env contract) (s : State) (admin : Address) : Outcome Unit := do
  let current ← orRefuse s.admin (.err .notInitialized)
  refuseIf (current ≠ admin) (.err .notAdmin)
  requireAuth env admin

/-- Every write of a match lists it once more for both of its participants. -/
def putMentorship (s : State) (mentorship : MentorshipMatch) : State :=
  { s with
    mentorship := Function.update s.mentorship mentorship.id (some mentorship)
    mentorIndex := Function.update s.mentorIndex mentorship.mentor
      (s.mentorIndex mentorship.mentor ++ [mentorship.id])
    menteeIndex := Function.update s.menteeIndex mentorship.mentee
      (s.menteeIndex mentorship.mentee ++ [mentorship.id]) }

def loadMentorship (s : State) (matchId : Bytes32) : Outcome MentorshipMatch :=
  orRefuse (s.mentorship matchId) (.err .mentorshipNotFound)

def hasActiveMentorship (s : State) (mentor mentee : Address) : Bool :=
  (s.activeMentorship (mentor, mentee)).isSome

def setActiveMentorship (s : State) (mentor mentee : Address) (matchId : Bytes32) : State :=
  { s with activeMentorship := Function.update s.activeMentorship (mentor, mentee) (some matchId) }

/-- The pointer goes, whichever match it names. -/
def clearActiveMentorship (s : State) (mentor mentee : Address) : State :=
  { s with activeMentorship := Function.update s.activeMentorship (mentor, mentee) none }

def putMenteeAcceptance (s : State) (acceptance : SignedAcceptance) : State :=
  { s with
    menteeAcceptance := Function.update s.menteeAcceptance acceptance.matchId (some acceptance) }

def putMentorAcceptance (s : State) (acceptance : SignedAcceptance) : State :=
  { s with
    mentorAcceptance := Function.update s.mentorAcceptance acceptance.matchId (some acceptance) }

end Storage

section EntryPoints

def initializeContract (env : Env contract) (s : State) (admin : Address) : Outcome State := do
  refuseIf (s.admin.isSome = true) (.err .alreadyInitialized)
  requireAuth env admin
  pure { s with admin := some admin }

def proposeMentorship (env : Env contract) (s : State) (admin : Address) (matchId : Bytes32)
    (mentor mentee : Address) (programId : Bytes32) (amount : Int) (currency : Symbol)
    (termsVersion : Nat) (termsHash : Bytes32) (startDate endDate : Nat) (title : String) :
    Outcome State := do
  requireAdmin env s admin
  refuseIf (amount ≤ 0) (.err .invalidAmount)
  refuseIf (startDate ≤ env.timestamp ∨ endDate ≤ startDate) (.err .invalidDates)
  refuseIf (maxTitleLen < title.utf8ByteSize) (.err .invalidTitle)
  refuseIf ((s.mentorship matchId).isSome = true) (.err .mentorshipAlreadyExists)
  refuseIf (hasActiveMentorship s mentor mentee = true) (.err .conflictingMentorship)
  let s := putMentorship s
    { id := matchId, programId, mentor, mentee, amount, currency, termsVersion, termsHash, title
      startDate, endDate, status := .proposed, proposedAt := env.timestamp, menteeAcceptedAt := 0
      mentorAcceptedAt := 0, activatedAt := 0, completedAt := 0, terminatedAt := 0
      terminationReasonCode := 0, reserved := true }
  pure (setActiveMentorship s mentor mentee matchId)

def acceptAsMentee (env : Env contract) (s : State) (mentee : Address)
    (matchId declarationsHash : Bytes32) : Outcome State := do
  requireAuth env mentee
  let mentorship ← loadMentorship s matchId
  refuseIf (mentorship.mentee ≠ mentee) (.err .notMentee)
  refuseIf (mentorship.status ≠ .proposed) (.err .invalidStatus)
  let now := env.timestamp
  let s := putMenteeAcceptance s
    { matchId, termsVersion := mentorship.termsVersion, termsHash := mentorship.termsHash
      signer := mentee, acceptedAt := now, declarationsHash }
  pure (putMentorship s
    { mentorship with status := .proposedMenteeAccepted, menteeAcceptedAt := now })

def acceptAsMentor (env : Env contract) (s : State) (mentor : Address)
    (matchId declarationsHash : Bytes32) : Outcome State := do
  requireAuth env mentor
  let mentorship ← loadMentorship s matchId
  refuseIf (mentorship.mentor ≠ mentor) (.err .notMentor)
  refuseIf (mentorship.status ≠ .proposedMenteeAccepted) (.err .invalidStatus)
  let now := env.timestamp
  let s := putMentorAcceptance s
    { matchId, termsVersion := mentorship.termsVersion, termsHash := mentorship.termsHash
      signer := mentor, acceptedAt := now, declarationsHash }
  pure (putMentorship s
    { mentorship with status := .proposedMentorAccepted, mentorAcceptedAt := now })

def activateMentorship (env : Env contract) (s : State) (admin : Address) (matchId : Bytes32) :
    Outcome State := do
  requireAdmin env s admin
  let mentorship ← loadMentorship s matchId
  refuseIf (mentorship.status ≠ .proposedMentorAccepted) (.err .invalidStatus)
  pure (putMentorship s { mentorship with status := .active, activatedAt := env.timestamp })

/-- Until a match is active either participant may reject it, also after both have accepted. -/
def rejectMentorship (env : Env contract) (s : State) (caller : Address) (matchId : Bytes32)
    (reasonCode : Nat) : Outcome State := do
  requireAuth env caller
  let mentorship ← loadMentorship s matchId
  refuseIf (mentorship.status ≠ .proposed ∧ mentorship.status ≠ .proposedMenteeAccepted ∧
    mentorship.status ≠ .proposedMentorAccepted) (.err .invalidStatus)
  refuseIf (caller ≠ mentorship.mentor ∧ caller ≠ mentorship.mentee) (.err .unauthorized)
  let s := putMentorship s
    { mentorship with
      status := .rejected, terminatedAt := env.timestamp, terminationReasonCode := reasonCode
      reserved := false }
  pure (clearActiveMentorship s mentorship.mentor mentorship.mentee)

def terminateMentorship (env : Env contract) (s : State) (admin : Address) (matchId : Bytes32)
    (reasonCode : Nat) (recoveryAmount : Int) : Outcome State := do
  requireAdmin env s admin
  let mentorship ← loadMentorship s matchId
  refuseIf (mentorship.status ≠ .active) (.err .invalidStatus)
  refuseIf (recoveryAmount < 0 ∨ mentorship.amount < recoveryAmount) (.err .invalidAmount)
  let s := putMentorship s
    { mentorship with
      status := .terminated, terminatedAt := env.timestamp, terminationReasonCode := reasonCode
      reserved := false }
  pure (clearActiveMentorship s mentorship.mentor mentorship.mentee)

def completeMentorship (env : Env contract) (s : State) (admin : Address) (matchId : Bytes32) :
    Outcome State := do
  requireAdmin env s admin
  let mentorship ← loadMentorship s matchId
  refuseIf (mentorship.status ≠ .active) (.err .invalidStatus)
  let s := putMentorship s
    { mentorship with status := .completed, completedAt := env.timestamp, reserved := false }
  pure (clearActiveMentorship s mentorship.mentor mentorship.mentee)

end EntryPoints

/-- The state-changing entry points. -/
inductive Call where
  | initializeContract (admin : Address)
  | proposeMentorship (admin : Address) (matchId : Bytes32) (mentor mentee : Address)
      (programId : Bytes32) (amount : Int) (currency : Symbol) (termsVersion : Nat)
      (termsHash : Bytes32) (startDate endDate : Nat) (title : String)
  | acceptAsMentee (mentee : Address) (matchId declarationsHash : Bytes32)
  | acceptAsMentor (mentor : Address) (matchId declarationsHash : Bytes32)
  | activateMentorship (admin : Address) (matchId : Bytes32)
  | rejectMentorship (caller : Address) (matchId : Bytes32) (reasonCode : Nat)
  | terminateMentorship (admin : Address) (matchId : Bytes32) (reasonCode : Nat)
      (recoveryAmount : Int)
  | completeMentorship (admin : Address) (matchId : Bytes32)
  deriving DecidableEq, Repr

structure Input (contract : Address) where
  env : Env contract
  call : Call

def execute (env : Env contract) (s : State) : Call → Outcome State
  | .initializeContract admin => initializeContract env s admin
  | .proposeMentorship admin matchId mentor mentee programId amount currency termsVersion termsHash
      startDate endDate title =>
    proposeMentorship env s admin matchId mentor mentee programId amount currency termsVersion
      termsHash startDate endDate title
  | .acceptAsMentee mentee matchId declarationsHash =>
    acceptAsMentee env s mentee matchId declarationsHash
  | .acceptAsMentor mentor matchId declarationsHash =>
    acceptAsMentor env s mentor matchId declarationsHash
  | .activateMentorship admin matchId => activateMentorship env s admin matchId
  | .rejectMentorship caller matchId reasonCode =>
    rejectMentorship env s caller matchId reasonCode
  | .terminateMentorship admin matchId reasonCode recoveryAmount =>
    terminateMentorship env s admin matchId reasonCode recoveryAmount
  | .completeMentorship admin matchId => completeMentorship env s admin matchId

def machine (contract : Address) :
    Machine State (Input contract) Unit (Abort ContractError) where
  step s i := ((), ·) <$> execute i.env s i.call

end ChainVerse.MentorshipCore
