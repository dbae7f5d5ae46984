import ChainVerse.Framework.Machine
import ChainVerse.Host.Environment
import Mathlib.Logic.Function.Basic

namespace ChainVerse.MentorshipAgreements

inductive MentorshipError where
  | unauthorized
  | alreadyInitialized
  | notInitialized
  | agreementNotFound
  | invalidStatus
  | invalidTimeRange
  | invalidPrice
  | invalidCadence
  | sameParticipant
  | alreadyAccepted
  | notFullyAccepted
  | amendmentNotFound
  | amendmentAlreadyProcessed
  | invalidProposer
  | noChanges
  | requiresApproval
  | mustBeActive
  | invalidNonce
  | hashMismatch
  | termsVersionMismatch
  | usersBlocked
  | blockAlreadyExists
  | blockNotFound
  | cannotBlockSelf
  | invalidHash
  | overflow
  | invalidToken
  deriving DecidableEq, Repr

abbrev Outcome (α : Type) := Except (Abort MentorshipError) α

inductive AgreementStatus where
  | pending
  | active
  | completed
  | cancelled
  | suspended
  deriving DecidableEq, Repr

inductive AmendmentStatus where
  | proposed
  | approved
  | activated
  | rejected
  | expired
  deriving DecidableEq, Repr

inductive MatchingAllowed where
  | allowed
  | blockedByFirst
  | blockedBySecond
  | mutualBlock
  deriving DecidableEq, Repr

structure Agreement where
  id : Nat
  mentor : Address
  mentee : Address
  programHash : Bytes32
  scopeHash : Bytes32
  startTime : Nat
  endTime : Nat
  cadenceSeconds : Nat
  pricePerSession : Int
  token : Address
  cancellationPolicyHash : Bytes32
  conductHash : Bytes32
  evidenceHash : Bytes32
  termsVersion : Nat
  status : AgreementStatus
  createdAt : Nat
  updatedAt : Nat
  deriving DecidableEq

structure Acceptance where
  actor : Address
  agreementId : Nat
  agreementHash : Bytes32
  termsVersion : Nat
  timestamp : Nat
  nonce : Nat
  deriving DecidableEq

structure Amendment where
  id : Nat
  agreementId : Nat
  proposer : Address
  newCadence : Option Nat
  newScopeHash : Option Bytes32
  newStartTime : Option Nat
  newEndTime : Option Nat
  newPrice : Option Int
  newCancellationHash : Option Bytes32
  impactHash : Bytes32
  proposedAt : Nat
  status : AmendmentStatus
  mentorApproved : Bool
  menteeApproved : Bool
  activatedAt : Option Nat
  deriving DecidableEq

structure Block where
  blocker : Address
  blocked : Address
  blockedAt : Nat
  reasonHash : Option Bytes32
  deriving DecidableEq

/-- The contract's storage. -/
structure State where
  admin : Option Address
  initialized : Bool
  /-- The counters stand at one where nothing is stored. -/
  nextAgreementId : Nat
  nextAmendmentId : Nat
  agreement : Nat → Option Agreement
  acceptance : Nat × Address → Option Acceptance
  amendment : Nat → Option Amendment
  block : Address × Address → Option Block
  /-- Zero where nothing is stored. -/
  userNonce : Address → Nat

def State.empty : State where
  admin := none
  initialized := false
  nextAgreementId := 1
  nextAmendmentId := 1
  agreement := fun _ => none
  acceptance := fun _ => none
  amendment := fun _ => none
  block := fun _ => none
  userNonce := fun _ => 0

variable {contract : Address}

section Storage

def getAgreement (s : State) (id : Nat) : Outcome Agreement :=
  orRefuse (s.agreement id) (.err .agreementNotFound)

def getAmendment (s : State) (id : Nat) : Outcome Amendment :=
  orRefuse (s.amendment id) (.err .amendmentNotFound)

def setAgreement (s : State) (agreement : Agreement) : State :=
  { s with agreement := Function.update s.agreement agreement.id (some agreement) }

def setAcceptance (s : State) (acceptance : Acceptance) : State :=
  { s with
    acceptance := Function.update s.acceptance (acceptance.agreementId, acceptance.actor)
      (some acceptance) }

def setAmendment (s : State) (amendment : Amendment) : State :=
  { s with amendment := Function.update s.amendment amendment.id (some amendment) }

def setBlock (s : State) (block : Block) : State :=
  { s with block := Function.update s.block (block.blocker, block.blocked) (some block) }

def removeBlock (s : State) (blocker blocked : Address) : State :=
  { s with block := Function.update s.block (blocker, blocked) none }

/-- An id is handed out; the counter may not run over. -/
def incrementAgreementId (s : State) : Outcome (Nat × State) := do
  let next ← orRefuse (fitsU 64 (s.nextAgreementId + 1)) .panicked
  pure (s.nextAgreementId, { s with nextAgreementId := next })

def incrementAmendmentId (s : State) : Outcome (Nat × State) := do
  let next ← orRefuse (fitsU 64 (s.nextAmendmentId + 1)) .panicked
  pure (s.nextAmendmentId, { s with nextAmendmentId := next })

/-- Unlike the ids, the nonce that is returned is the one after. -/
def incrementUserNonce (s : State) (user : Address) : Outcome (Nat × State) := do
  let next ← orRefuse (fitsU 64 (s.userNonce user + 1)) .panicked
  pure (next, { s with userNonce := Function.update s.userNonce user next })

end Storage

section Blocking

def blockUser (env : Env contract) (s : State) (blocker blocked : Address)
    (reasonHash : Option Bytes32) : Outcome State := do
  requireAuth env blocker
  refuseIf (blocker = blocked) (.err .cannotBlockSelf)
  refuseIf (s.block (blocker, blocked) ≠ none) (.err .blockAlreadyExists)
  pure (setBlock s { blocker, blocked, blockedAt := env.timestamp, reasonHash })

def unblockUser (env : Env contract) (s : State) (blocker blocked : Address) : Outcome State := do
  requireAuth env blocker
  refuseIf (blocker = blocked) (.err .cannotBlockSelf)
  refuseIf (s.block (blocker, blocked) = none) (.err .blockNotFound)
  pure (removeBlock s blocker blocked)

def checkMatchingAllowed (s : State) (user1 user2 : Address) : MatchingAllowed :=
  match (s.block (user1, user2)).isSome, (s.block (user2, user1)).isSome with
  | false, false => .allowed
  | true, false => .blockedByFirst
  | false, true => .blockedBySecond
  | true, true => .mutualBlock

end Blocking

section Agreements

/-- The administrator is not asked to sign. -/
def init (s : State) (admin : Address) : Outcome State := do
  refuseIf (s.initialized = true) (.err .alreadyInitialized)
  pure { s with admin := some admin, initialized := true }

def createAgreement (env : Env contract) (s : State) (mentor mentee : Address)
    (programHash scopeHash : Bytes32) (startTime endTime cadenceSeconds : Nat)
    (pricePerSession : Int) (token : Address)
    (cancellationPolicyHash conductHash evidenceHash : Bytes32) (termsVersion : Nat) :
    Outcome (Nat × State) := do
  requireAuth env mentor
  requireAuthAfter env mentor mentee
  refuseIf (mentor = mentee) (.err .sameParticipant)
  refuseIf (checkMatchingAllowed s mentor mentee ≠ .allowed) (.err .usersBlocked)
  refuseIf (endTime ≤ startTime) (.err .invalidTimeRange)
  refuseIf (cadenceSeconds = 0) (.err .invalidCadence)
  refuseIf (pricePerSession < 0) (.err .invalidPrice)
  let (agreementId, s) ← incrementAgreementId s
  let currentTime := env.timestamp
  pure (agreementId, setAgreement s
    { id := agreementId, mentor, mentee, programHash, scopeHash, startTime, endTime, cadenceSeconds,
      pricePerSession, token, cancellationPolicyHash, conductHash, evidenceHash, termsVersion,
      status := .pending, createdAt := currentTime, updatedAt := currentTime })

/-- The second acceptance of a pending agreement makes it active. -/
def acceptAgreement (env : Env contract) (s : State) (actor : Address) (agreementId : Nat)
    (agreementHash : Bytes32) (expectedNonce : Nat) : Outcome State := do
  requireAuth env actor
  let agreement ← getAgreement s agreementId
  refuseIf (agreement.status ≠ .pending ∧ agreement.status ≠ .active) (.err .invalidStatus)
  refuseIf (actor ≠ agreement.mentor ∧ actor ≠ agreement.mentee) (.err .unauthorized)
  refuseIf (s.acceptance (agreementId, actor) ≠ none) (.err .alreadyAccepted)
  let (currentNonce, s) ← incrementUserNonce s actor
  refuseIf (currentNonce ≠ expectedNonce) (.err .invalidNonce)
  let s := setAcceptance s
    { actor, agreementId, agreementHash, termsVersion := agreement.termsVersion,
      timestamp := env.timestamp, nonce := currentNonce }
  let mentorAccepted := (s.acceptance (agreementId, agreement.mentor)).isSome
  let menteeAccepted := (s.acceptance (agreementId, agreement.mentee)).isSome
  if mentorAccepted = true ∧ menteeAccepted = true ∧ agreement.status = .pending then
    pure (setAgreement s { agreement with status := .active, updatedAt := env.timestamp })
  else pure s

def cancelAgreement (env : Env contract) (s : State) (caller : Address) (agreementId : Nat) :
    Outcome State := do
  requireAuth env caller
  let agreement ← getAgreement s agreementId
  refuseIf (agreement.status ≠ .active ∧ agreement.status ≠ .pending) (.err .invalidStatus)
  refuseIf (caller ≠ agreement.mentor ∧ caller ≠ agreement.mentee) (.err .unauthorized)
  pure (setAgreement s { agreement with status := .cancelled, updatedAt := env.timestamp })

def completeAgreement (env : Env contract) (s : State) (caller : Address) (agreementId : Nat) :
    Outcome State := do
  requireAuth env caller
  let agreement ← getAgreement s agreementId
  refuseIf (agreement.status ≠ .active) (.err .invalidStatus)
  refuseIf (caller ≠ agreement.mentor ∧ caller ≠ agreement.mentee) (.err .unauthorized)
  pure (setAgreement s { agreement with status := .completed, updatedAt := env.timestamp })

end Agreements

section Amendments

/-- The range of times is checked against the terms of now, not of the activation. -/
def proposeAmendment (env : Env contract) (s : State) (proposer : Address) (agreementId : Nat)
    (newCadence : Option Nat) (newScopeHash : Option Bytes32) (newStartTime newEndTime : Option Nat)
    (newPrice : Option Int) (newCancellationHash : Option Bytes32) (impactHash : Bytes32) :
    Outcome (Nat × State) := do
  requireAuth env proposer
  let agreement ← getAgreement s agreementId
  refuseIf (agreement.status ≠ .active) (.err .mustBeActive)
  refuseIf (proposer ≠ agreement.mentor ∧ proposer ≠ agreement.mentee) (.err .invalidProposer)
  refuseIf (newCadence = none ∧ newScopeHash = none ∧ newStartTime = none ∧ newEndTime = none ∧
    newPrice = none ∧ newCancellationHash = none) (.err .noChanges)
  refuseIf (∃ price ∈ newPrice, price < 0) (.err .invalidPrice)
  refuseIf (newCadence = some 0) (.err .invalidCadence)
  let start := newStartTime.getD agreement.startTime
  let finish := newEndTime.getD agreement.endTime
  refuseIf (finish ≤ start) (.err .invalidTimeRange)
  let (amendmentId, s) ← incrementAmendmentId s
  let isMentor : Bool := proposer = agreement.mentor
  pure (amendmentId, setAmendment s
    { id := amendmentId, agreementId, proposer, newCadence, newScopeHash, newStartTime, newEndTime,
      newPrice, newCancellationHash, impactHash, proposedAt := env.timestamp, status := .proposed,
      mentorApproved := isMentor, menteeApproved := !isMentor, activatedAt := none })

/-- An amendment is approved once both participants have approved it. -/
def Amendment.settle (amendment : Amendment) : Amendment :=
  if amendment.mentorApproved = true ∧ amendment.menteeApproved = true then
    { amendment with status := .approved }
  else amendment

/-- The amendment with one more approval. -/
def Amendment.approve (amendment : Amendment) (isMentor : Bool) : Amendment :=
  if isMentor = true then { amendment with mentorApproved := true }.settle
  else { amendment with menteeApproved := true }.settle

def approveAmendment (env : Env contract) (s : State) (approver : Address) (amendmentId : Nat) :
    Outcome State := do
  requireAuth env approver
  let amendment ← getAmendment s amendmentId
  refuseIf (amendment.status ≠ .proposed) (.err .amendmentAlreadyProcessed)
  let agreement ← getAgreement s amendment.agreementId
  refuseIf (agreement.status ≠ .active) (.err .mustBeActive)
  let isMentor : Bool := approver = agreement.mentor
  let isMentee : Bool := approver = agreement.mentee
  refuseIf (isMentor = false ∧ isMentee = false) (.err .unauthorized)
  refuseIf (isMentor = true ∧ amendment.mentorApproved = true ∨
    isMentee = true ∧ amendment.menteeApproved = true) (.err .alreadyAccepted)
  pure (setAmendment s (amendment.approve isMentor))

def rejectAmendment (env : Env contract) (s : State) (rejector : Address) (amendmentId : Nat) :
    Outcome State := do
  requireAuth env rejector
  let amendment ← getAmendment s amendmentId
  refuseIf (amendment.status ≠ .proposed) (.err .amendmentAlreadyProcessed)
  let agreement ← getAgreement s amendment.agreementId
  refuseIf (rejector ≠ agreement.mentor ∧ rejector ≠ agreement.mentee) (.err .unauthorized)
  pure (setAmendment s { amendment with status := .rejected })

/-- The agreement with the changes of the amendment applied. -/
def Agreement.amend (agreement : Agreement) (amendment : Amendment) (now : Nat) : Agreement :=
  { agreement with
    cadenceSeconds := amendment.newCadence.getD agreement.cadenceSeconds
    scopeHash := amendment.newScopeHash.getD agreement.scopeHash
    startTime := amendment.newStartTime.getD agreement.startTime
    endTime := amendment.newEndTime.getD agreement.endTime
    pricePerSession := amendment.newPrice.getD agreement.pricePerSession
    cancellationPolicyHash := amendment.newCancellationHash.getD agreement.cancellationPolicyHash
    updatedAt := now }

def activateAmendment (env : Env contract) (s : State) (caller : Address) (amendmentId : Nat) :
    Outcome State := do
  requireAuth env caller
  let amendment ← getAmendment s amendmentId
  refuseIf (amendment.status ≠ .approved) (.err .requiresApproval)
  let agreement ← getAgreement s amendment.agreementId
  refuseIf (agreement.status ≠ .active) (.err .mustBeActive)
  refuseIf (caller ≠ agreement.mentor ∧ caller ≠ agreement.mentee) (.err .unauthorized)
  let s := setAgreement s (agreement.amend amendment env.timestamp)
  pure (setAmendment s { amendment with status := .activated, activatedAt := some env.timestamp })

end Amendments

/-- The state-changing entry points. -/
inductive Call where
  | init (admin : Address)
  | blockUser (blocker blocked : Address) (reasonHash : Option Bytes32)
  | unblockUser (blocker blocked : Address)
  | createAgreement (mentor mentee : Address) (programHash scopeHash : Bytes32)
      (startTime endTime cadenceSeconds : Nat) (pricePerSession : Int) (token : Address)
      (cancellationPolicyHash conductHash evidenceHash : Bytes32) (termsVersion : Nat)
  | acceptAgreement (actor : Address) (agreementId : Nat) (agreementHash : Bytes32)
      (expectedNonce : Nat)
  | proposeAmendment (proposer : Address) (agreementId : Nat) (newCadence : Option Nat)
      (newScopeHash : Option Bytes32) (newStartTime newEndTime : Option Nat) (newPrice : Option Int)
      (newCancellationHash : Option Bytes32) (impactHash : Bytes32)
  | approveAmendment (approver : Address) (amendmentId : Nat)
  | rejectAmendment (rejector : Address) (amendmentId : Nat)
  | activateAmendment (caller : Address) (amendmentId : Nat)
  | cancelAgreement (caller : Address) (agreementId : Nat)
  | completeAgreement (caller : Address) (agreementId : Nat)
  deriving DecidableEq

structure Input (contract : Address) where
  env : Env contract
  call : Call

/-- What an entry point returns. -/
inductive Answer where
  | done
  | agreementId (id : Nat)
  | amendmentId (id : Nat)
  deriving DecidableEq, Repr

/-- One entry point applied to the state. -/
def execute (env : Env contract) (s : State) : Call → Outcome (Answer × State)
  | .init admin => (.done, ·) <$> init s admin
  | .blockUser blocker blocked reasonHash => (.done, ·) <$> blockUser env s blocker blocked reasonHash
  | .unblockUser blocker blocked => (.done, ·) <$> unblockUser env s blocker blocked
  | .createAgreement mentor mentee programHash scopeHash startTime endTime cadenceSeconds
      pricePerSession token cancellationPolicyHash conductHash evidenceHash termsVersion =>
    Prod.map .agreementId id <$> createAgreement env s mentor mentee programHash scopeHash startTime
      endTime cadenceSeconds pricePerSession token cancellationPolicyHash conductHash evidenceHash
      termsVersion
  | .acceptAgreement actor agreementId agreementHash expectedNonce =>
    (.done, ·) <$> acceptAgreement env s actor agreementId agreementHash expectedNonce
  | .proposeAmendment proposer agreementId newCadence newScopeHash newStartTime newEndTime newPrice
      newCancellationHash impactHash =>
    Prod.map .amendmentId id <$> proposeAmendment env s proposer agreementId newCadence newScopeHash
      newStartTime newEndTime newPrice newCancellationHash impactHash
  | .approveAmendment approver amendmentId =>
    (.done, ·) <$> approveAmendment env s approver amendmentId
  | .rejectAmendment rejector amendmentId => (.done, ·) <$> rejectAmendment env s rejector amendmentId
  | .activateAmendment caller amendmentId =>
    (.done, ·) <$> activateAmendment env s caller amendmentId
  | .cancelAgreement caller agreementId => (.done, ·) <$> cancelAgreement env s caller agreementId
  | .completeAgreement caller agreementId => (.done, ·) <$> completeAgreement env s caller agreementId

def machine (contract : Address) : Machine State (Input contract) Answer (Abort MentorshipError) where
  step s i := execute i.env s i.call

end ChainVerse.MentorshipAgreements
