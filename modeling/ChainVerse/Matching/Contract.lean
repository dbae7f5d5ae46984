import ChainVerse.Framework.Machine
import ChainVerse.Host.Issuance

namespace ChainVerse.MentorshipMatching

def maxPendingProposalsPerProgram : Nat := 128

/-- 90 days. -/
def maxProposalLifetime : Nat := 90 * 24 * 60 * 60

def maxCoordinatorActions : Nat := 1024

inductive MatchingError where
  | notInitialized
  | alreadyInitialized
  | unauthorized
  | participantNotFound
  | participantInactive
  | roleMismatch
  | selfMatch
  | blocked
  | invalidTerms
  | invalidExpiry
  | proposalNotFound
  | duplicateActiveProposal
  | proposalExpired
  | invalidTransition
  | notParticipant
  | alreadyApproved
  | staleProposalVersion
  | reasonRequired
  | invalidReasonCode
  | programCapacityReached
  | actionLogFull
  | counterOverflow
  | participantExists
  | invalidProgram
  deriving DecidableEq, Repr

abbrev Outcome (α : Type) := Except (Abort MatchingError) α

inductive ParticipantRole where
  | mentor
  | mentee
  deriving DecidableEq, Repr

inductive ParticipantStatus where
  | active
  | inactive
  | suspended
  deriving DecidableEq, Repr

structure Participant where
  role : ParticipantRole
  status : ParticipantStatus
  updatedAt : Nat
  deriving DecidableEq

inductive ProposalOrigin where
  | mentor
  | coordinator
  deriving DecidableEq, Repr

inductive ProposalStatus where
  | proposed
  | active
  | declined
  | expired
  deriving DecidableEq, Repr

def ProposalStatus.isOpen : ProposalStatus → Bool
  | .proposed | .active => true
  | .declined | .expired => false

structure ProposalTerms where
  termsHash : Bytes32
  proposedFee : Int
  expiresAt : Nat
  deriving DecidableEq

structure Proposal where
  id : Bytes32
  programId : Bytes32
  mentor : Address
  mentee : Address
  termsHash : Bytes32
  proposedFee : Int
  expiresAt : Nat
  createdBy : Address
  origin : ProposalOrigin
  lastAdjustedBy : Option Address
  status : ProposalStatus
  version : Nat
  mentorApproved : Bool
  menteeApproved : Bool
  createdAt : Nat
  updatedAt : Nat
  deriving DecidableEq

inductive CoordinatorActionKind where
  | proposed
  | adjusted
  deriving DecidableEq, Repr

structure CoordinatorAction where
  coordinator : Address
  proposalId : Bytes32
  kind : CoordinatorActionKind
  reasonHash : Bytes32
  version : Nat
  at_ : Nat
  deriving DecidableEq

/-- A program, a mentor and a mentee. -/
abbrev Pair := Bytes32 × Address × Address

/-- The contract's storage. -/
structure State where
  admin : Option Address
  coordinator : Address → Bool
  participant : Address → Option Participant
  /-- By the address that blocks and the blocked one. -/
  blocked : Address × Address → Bool
  proposalCount : Nat
  proposal : Bytes32 → Option Proposal
  pairIndex : Pair → Option Bytes32
  pendingCount : Bytes32 → Nat
  proposalReason : Bytes32 → Option Bytes32
  coordActionCount : Address → Nat
  coordAction : Address × Nat → Option CoordinatorAction

def State.empty : State where
  admin := none
  coordinator := fun _ => false
  participant := fun _ => none
  blocked := fun _ => false
  proposalCount := 0
  proposal := fun _ => none
  pairIndex := fun _ => none
  pendingCount := fun _ => 0
  proposalReason := fun _ => none
  coordActionCount := fun _ => 0
  coordAction := fun _ => none

variable {contract : Address}

section Helpers

def requireAdmin (env : Env contract) (s : State) (caller : Address) : Outcome Unit := do
  let admin ← orRefuse s.admin (.err .notInitialized)
  refuseIf (caller ≠ admin) (.err .unauthorized)
  requireAuth env caller

def requireCoordinator (env : Env contract) (s : State) (caller : Address) : Outcome Unit := do
  let admin ← orRefuse s.admin (.err .notInitialized)
  refuseIf (caller ≠ admin ∧ s.coordinator caller = false) (.err .unauthorized)
  requireAuth env caller

/-- The bytes that a proposal's id is the hash of. -/
def idInput (crypto : Crypto) (nonce timestamp : Nat) (pair : Pair) : List Byte :=
  beBytes 8 nonce ++ (beBytes 8 timestamp ++
    (bytes32 pair.1 ++ crypto.addressXdr pair.2.1 ++ crypto.addressXdr pair.2.2))

def deriveId (crypto : Crypto) (env : Env contract) (s : State) (pair : Pair) :
    Outcome (Bytes32 × State) := do
  let next ← orRefuse (fitsU 64 (s.proposalCount + 1)) (.err .counterOverflow)
  pure (crypto.sha256 (idInput crypto next env.timestamp pair), { s with proposalCount := next })

def loadParticipant (s : State) (who : Address) : Outcome Participant :=
  orRefuse (s.participant who) (.err .participantNotFound)

def loadProposal (s : State) (proposalId : Bytes32) : Outcome Proposal :=
  orRefuse (s.proposal proposalId) (.err .proposalNotFound)

def storeProposal (s : State) (proposal : Proposal) : State :=
  { s with proposal := Function.update s.proposal proposal.id (some proposal) }

/-- A block in either direction. -/
def isBlocked (s : State) (a b : Address) : Bool := s.blocked (a, b) || s.blocked (b, a)

def requireEligible (s : State) (mentor mentee : Address) : Outcome Unit := do
  let mentorProfile ← loadParticipant s mentor
  let menteeProfile ← loadParticipant s mentee
  refuseIf (mentorProfile.role ≠ .mentor ∨ menteeProfile.role ≠ .mentee) (.err .roleMismatch)
  refuseIf (mentorProfile.status ≠ .active ∨ menteeProfile.status ≠ .active)
    (.err .participantInactive)
  refuseIf (isBlocked s mentor mentee = true) (.err .blocked)

def validTerms (env : Env contract) (terms : ProposalTerms) : Outcome Unit := do
  refuseIf (terms.termsHash = 0 ∨ terms.proposedFee < 0) (.err .invalidTerms)
  refuseIf (terms.expiresAt ≤ env.timestamp) (.err .invalidExpiry)
  let latest ← orRefuse (fitsU 64 (env.timestamp + maxProposalLifetime)) (.err .invalidExpiry)
  refuseIf (latest < terms.expiresAt) (.err .invalidExpiry)

def setPendingCount (s : State) (programId : Bytes32) (count : Nat) : State :=
  { s with pendingCount := Function.update s.pendingCount programId count }

def increasePending (s : State) (programId : Bytes32) : Outcome State := do
  let count := s.pendingCount programId
  refuseIf (maxPendingProposalsPerProgram ≤ count) (.err .programCapacityReached)
  pure (setPendingCount s programId (count + 1))

/-- At zero the count stays as it is. -/
def decreasePending (s : State) (programId : Bytes32) : State :=
  let count := s.pendingCount programId
  if 0 < count then setPendingCount s programId (count - 1) else s

def expireProposal (env : Env contract) (s : State) (proposal : Proposal) : State :=
  let s := if proposal.status = .proposed then decreasePending s proposal.programId else s
  storeProposal s { proposal with
    status := .expired
    updatedAt := env.timestamp }

def recordCoordinatorAction (env : Env contract) (s : State) (coordinator : Address)
    (proposalId : Bytes32) (kind : CoordinatorActionKind) (reasonHash : Bytes32) (version : Nat) :
    Outcome State := do
  let count := s.coordActionCount coordinator
  refuseIf (maxCoordinatorActions ≤ count) (.err .actionLogFull)
  let seq ← orRefuse (fitsU 32 (count + 1)) (.err .counterOverflow)
  pure { s with
    coordAction := Function.update s.coordAction (coordinator, seq)
      (some { coordinator, proposalId, kind, reasonHash, version, at_ := env.timestamp })
    coordActionCount := Function.update s.coordActionCount coordinator seq }

def setProposalReason (s : State) (proposalId reasonHash : Bytes32) : State :=
  { s with proposalReason := Function.update s.proposalReason proposalId (some reasonHash) }

structure CreationOptions where
  createdBy : Address
  origin : ProposalOrigin
  reasonHash : Option Bytes32
  deriving DecidableEq

/-- What becomes of the proposal that the index has for the pair: an open one whose expiry has passed
is finalized. -/
def retireExisting (env : Env contract) (s : State) (pair : Pair) : Outcome State :=
  match s.pairIndex pair with
  | none => pure s
  | some existingId => do
    let existing ← loadProposal s existingId
    if existing.status.isOpen = true then do
      refuseIf (env.timestamp < existing.expiresAt) (.err .duplicateActiveProposal)
      pure (expireProposal env s existing)
    else pure s

/-- The reason of a coordinator's proposal is stored and logged. -/
def recordReason (env : Env contract) (s : State) (options : CreationOptions) (id : Bytes32) :
    Outcome State :=
  match options.reasonHash with
  | none => pure s
  | some reason =>
    recordCoordinatorAction env (setProposalReason s id reason) options.createdBy id .proposed reason 1

/-- The proposal as it is first stored. -/
def newProposal (env : Env contract) (id : Bytes32) (pair : Pair) (terms : ProposalTerms)
    (options : CreationOptions) : Proposal where
  id := id
  programId := pair.1
  mentor := pair.2.1
  mentee := pair.2.2
  termsHash := terms.termsHash
  proposedFee := terms.proposedFee
  expiresAt := terms.expiresAt
  createdBy := options.createdBy
  origin := options.origin
  lastAdjustedBy := none
  status := .proposed
  version := 1
  mentorApproved := false
  menteeApproved := false
  createdAt := env.timestamp
  updatedAt := env.timestamp

def create (crypto : Crypto) (env : Env contract) (s : State) (programId : Bytes32)
    (mentor mentee : Address) (terms : ProposalTerms) (options : CreationOptions) :
    Outcome (Bytes32 × State) := do
  refuseIf (programId = 0) (.err .invalidProgram)
  refuseIf (mentor = mentee) (.err .selfMatch)
  validTerms env terms
  requireEligible s mentor mentee
  let pair := (programId, mentor, mentee)
  let s ← retireExisting env s pair
  let (id, s) ← deriveId crypto env s pair
  let s ← increasePending s programId
  let s := storeProposal s (newProposal env id pair terms options)
  let s := { s with pairIndex := Function.update s.pairIndex pair (some id) }
  let s ← recordReason env s options id
  pure (id, s)

end Helpers

section Administration

def initializeContract (env : Env contract) (s : State) (admin : Address) : Outcome State := do
  refuseIf (s.admin ≠ none) (.err .alreadyInitialized)
  requireAuth env admin
  pure { s with admin := some admin }

def setCoordinator (env : Env contract) (s : State) (caller coordinator : Address) (allowed : Bool) :
    Outcome State := do
  requireAdmin env s caller
  pure { s with coordinator := Function.update s.coordinator coordinator allowed }

def registerParticipant (env : Env contract) (s : State) (caller participant : Address)
    (role : ParticipantRole) : Outcome State := do
  requireAdmin env s caller
  refuseIf (s.participant participant ≠ none) (.err .participantExists)
  pure { s with
    participant := Function.update s.participant participant
      (some { role, status := .active, updatedAt := env.timestamp }) }

def setParticipantStatus (env : Env contract) (s : State) (caller participant : Address)
    (status : ParticipantStatus) : Outcome State := do
  requireAdmin env s caller
  let profile ← loadParticipant s participant
  pure { s with
    participant := Function.update s.participant participant
      (some { profile with
        status := status
        updatedAt := env.timestamp }) }

def setBlock (env : Env contract) (s : State) (participant counterparty : Address) (blocked : Bool) :
    Outcome State := do
  refuseIf (participant = counterparty) (.err .selfMatch)
  requireAuth env participant
  pure { s with blocked := Function.update s.blocked (participant, counterparty) blocked }

end Administration

section Proposals

def createProposal (crypto : Crypto) (env : Env contract) (s : State) (mentor : Address)
    (programId : Bytes32) (mentee : Address) (terms : ProposalTerms) :
    Outcome (Bytes32 × State) := do
  requireAuth env mentor
  create crypto env s programId mentor mentee terms
    { createdBy := mentor, origin := .mentor, reasonHash := none }

def proposeAsCoordinator (crypto : Crypto) (env : Env contract) (s : State) (coordinator : Address)
    (programId : Bytes32) (mentor mentee : Address) (terms : ProposalTerms) (reasonHash : Bytes32) :
    Outcome (Bytes32 × State) := do
  requireCoordinator env s coordinator
  refuseIf (reasonHash = 0) (.err .reasonRequired)
  create crypto env s programId mentor mentee terms
    { createdBy := coordinator, origin := .coordinator, reasonHash := some reasonHash }

/-- The proposal with one side's approval. -/
def Proposal.approvedBy (proposal : Proposal) (participant : Address) (now : Nat) : Proposal :=
  if participant = proposal.mentor then
    { proposal with
      mentorApproved := true
      updatedAt := now }
  else
    { proposal with
      menteeApproved := true
      updatedAt := now }

def approveProposal (env : Env contract) (s : State) (participant : Address) (proposalId : Bytes32)
    (expectedVersion : Nat) : Outcome State := do
  let proposal ← loadProposal s proposalId
  refuseIf (participant ≠ proposal.mentor ∧ participant ≠ proposal.mentee) (.err .notParticipant)
  requireAuth env participant
  refuseIf (proposal.version ≠ expectedVersion) (.err .staleProposalVersion)
  refuseIf (participant = proposal.mentor ∧ proposal.mentorApproved = true ∨
    participant = proposal.mentee ∧ proposal.menteeApproved = true) (.err .alreadyApproved)
  refuseIf (proposal.status ≠ .proposed) (.err .invalidTransition)
  refuseIf (proposal.expiresAt ≤ env.timestamp) (.err .proposalExpired)
  requireEligible s proposal.mentor proposal.mentee
  let proposal := proposal.approvedBy participant env.timestamp
  if proposal.mentorApproved = true ∧ proposal.menteeApproved = true then
    pure (storeProposal (decreasePending s proposal.programId) { proposal with status := .active })
  else pure (storeProposal s proposal)

/-- Repeating a decline changes nothing. -/
def declineProposal (env : Env contract) (s : State) (participant : Address) (proposalId : Bytes32)
    (reasonCode : Nat) : Outcome State := do
  refuseIf (reasonCode = 0) (.err .invalidReasonCode)
  let proposal ← loadProposal s proposalId
  refuseIf (participant ≠ proposal.mentor ∧ participant ≠ proposal.mentee) (.err .notParticipant)
  requireAuth env participant
  if proposal.status = .declined then pure s
  else do
    refuseIf (proposal.status ≠ .proposed) (.err .invalidTransition)
    pure (storeProposal (decreasePending s proposal.programId) { proposal with
      status := .declined
      updatedAt := env.timestamp })

/-- An agreed match that is opened again takes a pending place. -/
def reopen (s : State) (proposal : Proposal) : Outcome State :=
  if proposal.status = .active then increasePending s proposal.programId else pure s

/-- The proposal on new terms, to be approved anew. -/
def Proposal.adjusted (proposal : Proposal) (terms : ProposalTerms) (coordinator : Address)
    (version now : Nat) : Proposal :=
  { proposal with
    termsHash := terms.termsHash
    proposedFee := terms.proposedFee
    expiresAt := terms.expiresAt
    status := .proposed
    version := version
    mentorApproved := false
    menteeApproved := false
    lastAdjustedBy := some coordinator
    updatedAt := now }

def adjustProposal (env : Env contract) (s : State) (coordinator : Address) (proposalId : Bytes32)
    (terms : ProposalTerms) (reasonHash : Bytes32) : Outcome (Bytes32 × State) := do
  requireCoordinator env s coordinator
  refuseIf (reasonHash = 0) (.err .reasonRequired)
  validTerms env terms
  let proposal ← loadProposal s proposalId
  refuseIf (proposal.status.isOpen = false) (.err .invalidTransition)
  refuseIf (proposal.expiresAt ≤ env.timestamp) (.err .proposalExpired)
  requireEligible s proposal.mentor proposal.mentee
  let s ← reopen s proposal
  let version ← orRefuse (fitsU 32 (proposal.version + 1)) (.err .counterOverflow)
  let s := storeProposal s (proposal.adjusted terms coordinator version env.timestamp)
  let s := setProposalReason s proposalId reasonHash
  let s ← recordCoordinatorAction env s coordinator proposalId .adjusted reasonHash version
  pure (proposalId, s)

end Proposals

/-- The state-changing entry points. -/
inductive Call where
  | initializeContract (admin : Address)
  | setCoordinator (caller coordinator : Address) (allowed : Bool)
  | registerParticipant (caller participant : Address) (role : ParticipantRole)
  | setParticipantStatus (caller participant : Address) (status : ParticipantStatus)
  | setBlock (participant counterparty : Address) (blocked : Bool)
  | createProposal (mentor : Address) (programId : Bytes32) (mentee : Address) (terms : ProposalTerms)
  | proposeAsCoordinator (coordinator : Address) (programId : Bytes32) (mentor mentee : Address)
      (terms : ProposalTerms) (reasonHash : Bytes32)
  | approveProposal (participant : Address) (proposalId : Bytes32) (expectedVersion : Nat)
  | declineProposal (participant : Address) (proposalId : Bytes32) (reasonCode : Nat)
  | adjustProposal (coordinator : Address) (proposalId : Bytes32) (terms : ProposalTerms)
      (reasonHash : Bytes32)
  deriving DecidableEq

structure Input (contract : Address) where
  env : Env contract
  call : Call

/-- The id that a creation or an adjustment returns. -/
abbrev Answer := Option Bytes32

/-- One entry point applied to the state. -/
def execute (crypto : Crypto) (env : Env contract) (s : State) : Call → Outcome (Answer × State)
  | .initializeContract admin => (none, ·) <$> initializeContract env s admin
  | .setCoordinator caller coordinator allowed =>
    (none, ·) <$> setCoordinator env s caller coordinator allowed
  | .registerParticipant caller participant role =>
    (none, ·) <$> registerParticipant env s caller participant role
  | .setParticipantStatus caller participant status =>
    (none, ·) <$> setParticipantStatus env s caller participant status
  | .setBlock participant counterparty blocked =>
    (none, ·) <$> setBlock env s participant counterparty blocked
  | .createProposal mentor programId mentee terms =>
    (fun (id, s') => (some id, s')) <$> createProposal crypto env s mentor programId mentee terms
  | .proposeAsCoordinator coordinator programId mentor mentee terms reasonHash =>
    (fun (id, s') => (some id, s')) <$>
      proposeAsCoordinator crypto env s coordinator programId mentor mentee terms reasonHash
  | .approveProposal participant proposalId expectedVersion =>
    (none, ·) <$> approveProposal env s participant proposalId expectedVersion
  | .declineProposal participant proposalId reasonCode =>
    (none, ·) <$> declineProposal env s participant proposalId reasonCode
  | .adjustProposal coordinator proposalId terms reasonHash =>
    (fun (id, s') => (some id, s')) <$> adjustProposal env s coordinator proposalId terms reasonHash

def machine (contract : Address) (crypto : Crypto) :
    Machine State (Input contract) Answer (Abort MatchingError) where
  step s i := execute crypto i.env s i.call

end ChainVerse.MentorshipMatching
