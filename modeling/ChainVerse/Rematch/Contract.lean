import ChainVerse.Framework.Machine
import ChainVerse.Host.Environment
import Mathlib.Logic.Function.Basic

namespace ChainVerse.MentorshipRematch

def maxRequestsPerMatch : Nat := 8

def maxCoordinators : Nat := 16

def minProposalWindowSeconds : Nat := 60

/-- 30 days. -/
def maxProposalWindowSeconds : Nat := 2592000

inductive ContractError where
  | notInitialized
  | alreadyInitialized
  | notAdmin
  | notCoordinator
  | notRegistrar
  | notAuthorized
  | matchNotFound
  | matchAlreadyRegistered
  | matchNotActive
  | rematchRequestNotFound
  | rematchAlreadyOpen
  | requestLimitReached
  | invalidRequestState
  | invalidSuccessor
  | proposalExpired
  | unsafeClosureBlocked
  | closurePlanMissing
  | invalidConfig
  | idempotencyConflict
  | coordinatorLimitReached
  | coordinatorNotFound
  deriving DecidableEq, Repr

abbrev Outcome (α : Type) := Except (Abort ContractError) α

inductive MatchStatus where
  | active
  | closed
  | superseded
  deriving DecidableEq, Repr

structure MatchRecord where
  matchId : Bytes32
  agreementId : Bytes32
  mentor : Address
  mentee : Address
  status : MatchStatus
  successorMatchId : Option Bytes32
  supersededMatchId : Option Bytes32
  createdAt : Nat
  closedAt : Nat
  deriving DecidableEq

inductive RematchReason where
  | incompatibility
  | availabilityChange
  | conflictOfInterest
  | safetyConcern
  | other
  deriving DecidableEq, Repr

inductive RequestStatus where
  | opened
  | inReview
  | successorProposed
  | approvedForClosure
  | rejected
  | closed
  | superseded
  deriving DecidableEq, Repr

structure RematchRequest where
  requestId : Bytes32
  matchId : Bytes32
  requestedBy : Address
  reason : RematchReason
  reasonHash : Bytes32
  closurePlanHash : Bytes32
  createdAt : Nat
  reviewStartedAt : Nat
  status : RequestStatus
  successor : Option Address
  proposalHash : Bytes32
  proposedAt : Nat
  proposalExpiresAt : Nat
  successorApprovedAt : Nat
  closedAt : Nat
  deriving DecidableEq

structure CaseFlags where
  financialOpen : Bool
  safetyOpen : Bool
  deriving DecidableEq

structure RematchStats where
  totalMatches : Nat
  openRequests : Nat
  closedRequests : Nat
  supersededMatches : Nat
  deriving DecidableEq

def RematchStats.zero : RematchStats := ⟨0, 0, 0, 0⟩

/-- The contract's storage. -/
structure State where
  admin : Option Address
  registrar : Option Address
  coordinators : List Address
  proposalWindow : Option Nat
  /-- All zero where nothing is stored. -/
  stats : RematchStats
  matchRecord : Bytes32 → Option MatchRecord
  request : Bytes32 → Option RematchRequest
  matchRequests : Bytes32 → List Bytes32
  /-- Both closed where nothing is stored. -/
  caseFlags : Bytes32 → CaseFlags

def State.empty : State where
  admin := none
  registrar := none
  coordinators := []
  proposalWindow := none
  stats := .zero
  matchRecord := fun _ => none
  request := fun _ => none
  matchRequests := fun _ => []
  caseFlags := fun _ => ⟨false, false⟩

variable {contract : Address}

section Helpers

def u32Max : Nat := 2^32 - 1

/-- `saturating_add(1)` on `u32`. -/
def saturatingSucc (n : Nat) : Nat := min (n + 1) u32Max

def requireAdmin (env : Env contract) (s : State) (caller : Address) : Outcome Unit := do
  let admin ← orRefuse s.admin (.err .notInitialized)
  refuseIf (caller ≠ admin) (.err .notAdmin)
  requireAuth env caller

def requireCoordinator (env : Env contract) (s : State) (caller : Address) : Outcome Unit := do
  refuseIf (caller ∉ s.coordinators) (.err .notCoordinator)
  requireAuth env caller

def requireRegistrar (env : Env contract) (s : State) (caller : Address) : Outcome Unit := do
  let registrar ← orRefuse s.registrar (.err .notInitialized)
  refuseIf (caller ≠ registrar) (.err .notRegistrar)
  requireAuth env caller

def validateWindow (seconds : Nat) : Outcome Unit :=
  refuseIf (¬ (minProposalWindowSeconds ≤ seconds ∧ seconds ≤ maxProposalWindowSeconds))
    (.err .invalidConfig)

def CaseFlags.anyOpen (flags : CaseFlags) : Bool := flags.financialOpen || flags.safetyOpen

def requireNoOpenCases (s : State) (matchId : Bytes32) : Outcome Unit :=
  refuseIf ((s.caseFlags matchId).anyOpen = true) (.err .unsafeClosureBlocked)

def loadMatch (s : State) (matchId : Bytes32) : Outcome MatchRecord :=
  orRefuse (s.matchRecord matchId) (.err .matchNotFound)

def putMatch (s : State) (record : MatchRecord) : State :=
  { s with matchRecord := Function.update s.matchRecord record.matchId (some record) }

def loadRequest (s : State) (requestId : Bytes32) : Outcome RematchRequest :=
  orRefuse (s.request requestId) (.err .rematchRequestNotFound)

def putRequest (s : State) (request : RematchRequest) : State :=
  { s with request := Function.update s.request request.requestId (some request) }

def bumpStats (s : State) (f : RematchStats → RematchStats) : State := { s with stats := f s.stats }

/-- The statuses that stand in the way of another request for the same match. -/
def RequestStatus.isPending : RequestStatus → Bool
  | .opened | .inReview | .successorProposed | .approvedForClosure => true
  | .rejected | .closed | .superseded => false

end Helpers

section Administration

def initializeContract (env : Env contract) (s : State) (admin : Address)
    (proposalWindowSeconds : Nat) : Outcome State := do
  refuseIf (s.admin ≠ none) (.err .alreadyInitialized)
  requireAuth env admin
  validateWindow proposalWindowSeconds
  pure { s with
    admin := some admin
    registrar := some admin
    proposalWindow := some proposalWindowSeconds
    coordinators := [admin]
    stats := .zero }

def registerCoordinator (env : Env contract) (s : State) (admin coordinator : Address) :
    Outcome State := do
  requireAdmin env s admin
  if coordinator ∈ s.coordinators then pure s
  else do
    refuseIf (maxCoordinators ≤ s.coordinators.length) (.err .coordinatorLimitReached)
    pure { s with coordinators := s.coordinators ++ [coordinator] }

def revokeCoordinator (env : Env contract) (s : State) (admin coordinator : Address) :
    Outcome State := do
  requireAdmin env s admin
  refuseIf (coordinator ∉ s.coordinators) (.err .coordinatorNotFound)
  pure { s with coordinators := s.coordinators.filter fun c => c ≠ coordinator }

def setRegistrar (env : Env contract) (s : State) (admin registrar : Address) : Outcome State := do
  requireAdmin env s admin
  pure { s with registrar := some registrar }

def setProposalWindow (env : Env contract) (s : State) (admin : Address)
    (proposalWindowSeconds : Nat) : Outcome State := do
  requireAdmin env s admin
  validateWindow proposalWindowSeconds
  pure { s with proposalWindow := some proposalWindowSeconds }

def registerMatch (env : Env contract) (s : State) (caller : Address) (matchId agreementId : Bytes32)
    (mentor mentee : Address) : Outcome State := do
  requireRegistrar env s caller
  refuseIf (s.matchRecord matchId ≠ none) (.err .matchAlreadyRegistered)
  refuseIf (mentor = mentee) (.err .notAuthorized)
  let s := putMatch s
    { matchId, agreementId, mentor, mentee, status := .active, successorMatchId := none,
      supersededMatchId := none, createdAt := env.timestamp, closedAt := 0 }
  pure (bumpStats s fun stats => { stats with totalMatches := saturatingSucc stats.totalMatches })

end Administration

section Requests

/-- The loop over the match's earlier requests. -/
def refusePending (s : State) : List Bytes32 → Outcome Unit
  | [] => pure ()
  | id :: ids => do
    let other ← orRefuse (s.request id) (.err .rematchRequestNotFound)
    refuseIf (other.status.isPending = true) (.err .rematchAlreadyOpen)
    refusePending s ids

/-- Whether a request is repeated with what it was first made with. -/
def RematchRequest.samePayload (existing : RematchRequest) (caller : Address) (matchId : Bytes32)
    (reason : RematchReason) (reasonHash closurePlanHash : Bytes32) : Prop :=
  existing.matchId = matchId ∧ existing.requestedBy = caller ∧ existing.reason = reason ∧
    existing.reasonHash = reasonHash ∧ existing.closurePlanHash = closurePlanHash

instance (existing : RematchRequest) (caller : Address) (matchId : Bytes32) (reason : RematchReason)
    (reasonHash closurePlanHash : Bytes32) :
    Decidable (existing.samePayload caller matchId reason reasonHash closurePlanHash) :=
  inferInstanceAs (Decidable (_ ∧ _))

/-- A request that has not been made before. -/
def openRequest (env : Env contract) (s : State) (caller : Address) (matchId requestId : Bytes32)
    (reason : RematchReason) (reasonHash closurePlanHash : Bytes32) : Outcome State := do
  let ids := s.matchRequests matchId
  refuseIf (maxRequestsPerMatch ≤ ids.length) (.err .requestLimitReached)
  refusePending s ids
  let s := putRequest s
    { requestId, matchId, requestedBy := caller, reason, reasonHash, closurePlanHash,
      createdAt := env.timestamp, reviewStartedAt := 0, status := .opened, successor := none,
      proposalHash := 0, proposedAt := 0, proposalExpiresAt := 0, successorApprovedAt := 0,
      closedAt := 0 }
  let s := { s with matchRequests := Function.update s.matchRequests matchId (ids ++ [requestId]) }
  pure (bumpStats s fun stats => { stats with openRequests := saturatingSucc stats.openRequests })

def requestRematch (env : Env contract) (s : State) (caller : Address) (matchId requestId : Bytes32)
    (reason : RematchReason) (reasonHash closurePlanHash : Bytes32) : Outcome State := do
  let record ← loadMatch s matchId
  refuseIf (record.status ≠ .active) (.err .matchNotActive)
  refuseIf (caller ≠ record.mentor ∧ caller ≠ record.mentee) (.err .notAuthorized)
  requireAuth env caller
  refuseIf (closurePlanHash = 0) (.err .closurePlanMissing)
  match s.request requestId with
  | some existing => do
    refuseIf (¬ existing.samePayload caller matchId reason reasonHash closurePlanHash)
      (.err .idempotencyConflict)
    pure s
  | none => openRequest env s caller matchId requestId reason reasonHash closurePlanHash

def getRequest (env : Env contract) (s : State) (caller : Address) (requestId : Bytes32) :
    Outcome RematchRequest := do
  let request ← loadRequest s requestId
  let record ← loadMatch s request.matchId
  refuseIf (caller ≠ record.mentor ∧ caller ≠ record.mentee ∧ caller ∉ s.coordinators)
    (.err .notAuthorized)
  requireAuth env caller
  pure request

def startReview (env : Env contract) (s : State) (caller : Address) (requestId : Bytes32) :
    Outcome State := do
  requireCoordinator env s caller
  let request ← loadRequest s requestId
  refuseIf (request.status ≠ .opened) (.err .invalidRequestState)
  pure (putRequest s { request with
    status := .inReview
    reviewStartedAt := env.timestamp })

/-- One pending request fewer, one finished request more. -/
def RematchStats.finish (stats : RematchStats) : RematchStats :=
  { stats with
    openRequests := stats.openRequests - 1
    closedRequests := saturatingSucc stats.closedRequests }

def rejectRequest (env : Env contract) (s : State) (caller : Address) (requestId : Bytes32) :
    Outcome State := do
  requireCoordinator env s caller
  let request ← loadRequest s requestId
  refuseIf (request.status ≠ .opened ∧ request.status ≠ .inReview) (.err .invalidRequestState)
  pure (bumpStats (putRequest s { request with status := .rejected }) RematchStats.finish)

def setCaseFlags (env : Env contract) (s : State) (caller : Address) (matchId : Bytes32)
    (financialOpen safetyOpen : Bool) : Outcome State := do
  requireCoordinator env s caller
  let _ ← loadMatch s matchId
  pure { s with caseFlags := Function.update s.caseFlags matchId ⟨financialOpen, safetyOpen⟩ }

def proposeSuccessor (env : Env contract) (s : State) (caller : Address) (requestId : Bytes32)
    (successor : Address) (proposalHash : Bytes32) : Outcome State := do
  requireCoordinator env s caller
  let request ← loadRequest s requestId
  refuseIf (request.status ≠ .inReview ∧ request.status ≠ .successorProposed)
    (.err .invalidRequestState)
  let record ← loadMatch s request.matchId
  refuseIf (successor = record.mentor ∨ successor = record.mentee) (.err .invalidSuccessor)
  let window ← orRefuse s.proposalWindow (.err .notInitialized)
  let now := env.timestamp
  let expiresAt ← orRefuse (fitsU 64 (now + window)) (.err .invalidConfig)
  pure (putRequest s { request with
    successor := some successor
    proposalHash := proposalHash
    proposedAt := now
    proposalExpiresAt := expiresAt
    status := .successorProposed })

def approveSuccessor (env : Env contract) (s : State) (caller : Address) (requestId : Bytes32) :
    Outcome State := do
  let request ← loadRequest s requestId
  let record ← loadMatch s request.matchId
  refuseIf (caller ≠ record.mentee) (.err .notAuthorized)
  requireAuth env caller
  if request.status = .approvedForClosure then pure s
  else do
    refuseIf (request.status ≠ .successorProposed) (.err .invalidRequestState)
    let now := env.timestamp
    refuseIf (request.proposalExpiresAt < now) (.err .proposalExpired)
    pure (putRequest s { request with
      successorApprovedAt := now
      status := .approvedForClosure })

def closeEngagement (env : Env contract) (s : State) (caller : Address) (requestId : Bytes32) :
    Outcome State := do
  requireCoordinator env s caller
  let request ← loadRequest s requestId
  refuseIf (request.status ≠ .inReview ∧ request.status ≠ .successorProposed ∧
    request.status ≠ .approvedForClosure) (.err .invalidRequestState)
  let record ← loadMatch s request.matchId
  requireNoOpenCases s record.matchId
  let now := env.timestamp
  let s := putMatch s { record with
    status := .closed
    closedAt := now }
  let s := putRequest s { request with
    status := .closed
    closedAt := now }
  pure (bumpStats s RematchStats.finish)

def applySuccessor (env : Env contract) (s : State) (caller : Address)
    (requestId successorMatchId : Bytes32) : Outcome State := do
  requireCoordinator env s caller
  let request ← loadRequest s requestId
  refuseIf (request.status ≠ .approvedForClosure) (.err .invalidRequestState)
  let record ← loadMatch s request.matchId
  requireNoOpenCases s record.matchId
  let successor ← orRefuse request.successor (.err .invalidRequestState)
  refuseIf (s.matchRecord successorMatchId ≠ none) (.err .matchAlreadyRegistered)
  let now := env.timestamp
  let s := putMatch s
    { matchId := successorMatchId, agreementId := record.agreementId, mentor := successor,
      mentee := record.mentee, status := .active, successorMatchId := none,
      supersededMatchId := some record.matchId, createdAt := now, closedAt := 0 }
  let s := putMatch s { record with
    status := .superseded
    successorMatchId := some successorMatchId
    closedAt := now }
  let s := putRequest s { request with
    status := .superseded
    closedAt := now }
  pure (bumpStats s fun stats => { stats.finish with
    totalMatches := saturatingSucc stats.totalMatches
    supersededMatches := saturatingSucc stats.supersededMatches })

end Requests

/-- The state-changing entry points, and the scoped read of a request. -/
inductive Call where
  | initializeContract (admin : Address) (proposalWindowSeconds : Nat)
  | registerCoordinator (admin coordinator : Address)
  | revokeCoordinator (admin coordinator : Address)
  | setRegistrar (admin registrar : Address)
  | setProposalWindow (admin : Address) (proposalWindowSeconds : Nat)
  | registerMatch (caller : Address) (matchId agreementId : Bytes32) (mentor mentee : Address)
  | requestRematch (caller : Address) (matchId requestId : Bytes32) (reason : RematchReason)
      (reasonHash closurePlanHash : Bytes32)
  | getRequest (caller : Address) (requestId : Bytes32)
  | startReview (caller : Address) (requestId : Bytes32)
  | rejectRequest (caller : Address) (requestId : Bytes32)
  | setCaseFlags (caller : Address) (matchId : Bytes32) (financialOpen safetyOpen : Bool)
  | proposeSuccessor (caller : Address) (requestId : Bytes32) (successor : Address)
      (proposalHash : Bytes32)
  | approveSuccessor (caller : Address) (requestId : Bytes32)
  | closeEngagement (caller : Address) (requestId : Bytes32)
  | applySuccessor (caller : Address) (requestId successorMatchId : Bytes32)
  deriving DecidableEq

structure Input (contract : Address) where
  env : Env contract
  call : Call

/-- The request that a read returns. -/
abbrev Answer := Option RematchRequest

/-- One entry point applied to the state. -/
def execute (env : Env contract) (s : State) : Call → Outcome (Answer × State)
  | .initializeContract admin proposalWindowSeconds =>
    (none, ·) <$> initializeContract env s admin proposalWindowSeconds
  | .registerCoordinator admin coordinator => (none, ·) <$> registerCoordinator env s admin coordinator
  | .revokeCoordinator admin coordinator => (none, ·) <$> revokeCoordinator env s admin coordinator
  | .setRegistrar admin registrar => (none, ·) <$> setRegistrar env s admin registrar
  | .setProposalWindow admin proposalWindowSeconds =>
    (none, ·) <$> setProposalWindow env s admin proposalWindowSeconds
  | .registerMatch caller matchId agreementId mentor mentee =>
    (none, ·) <$> registerMatch env s caller matchId agreementId mentor mentee
  | .requestRematch caller matchId requestId reason reasonHash closurePlanHash =>
    (none, ·) <$> requestRematch env s caller matchId requestId reason reasonHash closurePlanHash
  | .getRequest caller requestId => (fun request => (some request, s)) <$> getRequest env s caller requestId
  | .startReview caller requestId => (none, ·) <$> startReview env s caller requestId
  | .rejectRequest caller requestId => (none, ·) <$> rejectRequest env s caller requestId
  | .setCaseFlags caller matchId financialOpen safetyOpen =>
    (none, ·) <$> setCaseFlags env s caller matchId financialOpen safetyOpen
  | .proposeSuccessor caller requestId successor proposalHash =>
    (none, ·) <$> proposeSuccessor env s caller requestId successor proposalHash
  | .approveSuccessor caller requestId => (none, ·) <$> approveSuccessor env s caller requestId
  | .closeEngagement caller requestId => (none, ·) <$> closeEngagement env s caller requestId
  | .applySuccessor caller requestId successorMatchId =>
    (none, ·) <$> applySuccessor env s caller requestId successorMatchId

def machine (contract : Address) : Machine State (Input contract) Answer (Abort ContractError) where
  step s i := execute i.env s i.call

end ChainVerse.MentorshipRematch
