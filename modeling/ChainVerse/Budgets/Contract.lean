import ChainVerse.Framework.Machine
import ChainVerse.Host.Bytes
import Mathlib.Logic.Function.Basic

namespace ChainVerse.ScholarshipDecisions

def maxMembers : Nat := 32

inductive ContractError where
  | notInitialized
  | alreadyInitialized
  | notAdmin
  | notChair
  | notCommitteeMember
  | committeeFull
  | invalidQuorum
  | invalidProgramConfig
  | programNotFound
  | programAlreadyExists
  | programInactive
  | budgetExceeded
  | arithmeticOverflow
  | decisionNotFound
  | decisionAlreadyExists
  | decisionAlreadyFinalized
  | decisionNotFinalized
  | decisionNotAppealable
  | alreadyVoted
  | quorumNotMet
  | reservationNotFound
  | reservationNotActive
  | reservationExpired
  | reservationNotExpired
  | appealNotFound
  | appealAlreadyExists
  | appealWindowClosed
  | appealNotOpen
  | appealReviewerIneligible
  | invalidEvidence
  | notAuthorized
  deriving DecidableEq, Repr

abbrev Outcome (α : Type) := Except (Abort ContractError) α

inductive CommitteeRole where
  | reviewer
  | chair
  deriving DecidableEq, Repr

inductive DecisionStatus where
  | opened
  | finalized
  deriving DecidableEq, Repr

inductive DecisionOutcome where
  | pending
  | awarded
  | waitlisted
  | rejected
  deriving DecidableEq, Repr

inductive VoteChoice where
  | award
  | waitlist
  | reject
  | recuse
  deriving DecidableEq, Repr

inductive ReservationStatus where
  | reserved
  | claimed
  | released
  | expired
  deriving DecidableEq, Repr

inductive AppealStatus where
  | opened
  | resolved
  deriving DecidableEq, Repr

structure DecisionProgramConfig where
  active : Bool
  totalBudget : Int
  perAwardAmount : Int
  reservedAmount : Int
  awardedAmount : Int
  reservationTtl : Nat
  appealWindow : Nat
  deriving DecidableEq

structure Vote where
  member : Address
  choice : VoteChoice
  castAt : Nat
  deriving DecidableEq

structure Decision where
  programId : Bytes32
  applicant : Address
  status : DecisionStatus
  outcome : DecisionOutcome
  outcomeVersion : Nat
  evidenceVersion : Nat
  evidenceHash : Bytes32
  openedAt : Nat
  finalizedAt : Nat
  votes : List Vote
  deriving DecidableEq

structure Reservation where
  programId : Bytes32
  applicant : Address
  amount : Int
  createdAt : Nat
  expiresAt : Nat
  status : ReservationStatus
  deriving DecidableEq

structure Appeal where
  programId : Bytes32
  applicant : Address
  originalOutcome : DecisionOutcome
  status : AppealStatus
  outcome : DecisionOutcome
  groundsHash : Bytes32
  evidenceHash : Bytes32
  filedAt : Nat
  resolvedAt : Nat
  votes : List Vote
  deriving DecidableEq

/-- A program and an applicant. -/
abbrev Application := Bytes32 × Address

/-- The contract's storage. -/
structure State where
  admin : Option Address
  /-- Zero where nothing is stored. -/
  quorum : Nat
  member : Address → Bool
  memberRole : Address → Option CommitteeRole
  memberList : List Address
  programConfig : Bytes32 → Option DecisionProgramConfig
  decision : Application → Option Decision
  reservation : Application → Option Reservation
  appeal : Application → Option Appeal

def State.empty : State where
  admin := none
  quorum := 0
  member := fun _ => false
  memberRole := fun _ => none
  memberList := []
  programConfig := fun _ => none
  decision := fun _ => none
  reservation := fun _ => none
  appeal := fun _ => none

variable {contract : Address}

section Helpers

def requireAdmin (env : Env contract) (s : State) (caller : Address) : Outcome Unit := do
  let admin ← orRefuse s.admin (.err .notInitialized)
  refuseIf (caller ≠ admin) (.err .notAdmin)
  requireAuth env caller

def requireMember (env : Env contract) (s : State) (caller : Address) : Outcome Unit := do
  refuseIf (s.member caller = false) (.err .notCommitteeMember)
  requireAuth env caller

def requireChair (env : Env contract) (s : State) (caller : Address) : Outcome Unit := do
  refuseIf (s.member caller = false ∨ s.memberRole caller ≠ some .chair) (.err .notChair)
  requireAuth env caller

def requireChairOrAdmin (env : Env contract) (s : State) (caller : Address) : Outcome Unit :=
  if s.member caller = true ∧ s.memberRole caller = some .chair then requireAuth env caller
  else do
    let admin ← orRefuse s.admin (.err .notInitialized)
    if caller = admin then requireAuth env caller else .error (.err .notAuthorized)

def hasVoted (votes : List Vote) (member : Address) : Bool := votes.any fun vote => vote.member = member

/-- The votes for an award, for the waiting list and for a rejection. -/
def tally (votes : List Vote) : Outcome (Nat × Nat × Nat) :=
  votes.foldlM (fun (award, waitlist, reject) vote =>
    match vote.choice with
    | .award => do pure (← orRefuse (fitsU 32 (award + 1)) .overflow, waitlist, reject)
    | .waitlist => do pure (award, ← orRefuse (fitsU 32 (waitlist + 1)) .overflow, reject)
    | .reject => do pure (award, waitlist, ← orRefuse (fitsU 32 (reject + 1)) .overflow)
    | .recuse => pure (award, waitlist, reject)) (0, 0, 0)

def decideOutcome (award waitlist reject : Nat) : DecisionOutcome :=
  let (outcome, best) := if award ≤ waitlist then (.waitlisted, waitlist) else (.awarded, award)
  if best ≤ reject then .rejected else outcome

/-- The outcome of a vote, once enough members have voted. -/
def concludeVote (s : State) (votes : List Vote) : Outcome DecisionOutcome := do
  let (award, waitlist, reject) ← tally votes
  let cast ← orRefuse (fitsU 32 (award + waitlist)) (.err .arithmeticOverflow)
  let cast ← orRefuse (fitsU 32 (cast + reject)) (.err .arithmeticOverflow)
  refuseIf (s.quorum = 0 ∨ cast < s.quorum) (.err .quorumNotMet)
  pure (decideOutcome award waitlist reject)

def loadProgramConfig (s : State) (programId : Bytes32) : Outcome DecisionProgramConfig :=
  orRefuse (s.programConfig programId) (.err .programNotFound)

def loadDecision (s : State) (key : Application) : Outcome Decision :=
  orRefuse (s.decision key) (.err .decisionNotFound)

def setProgramConfig (s : State) (programId : Bytes32) (config : DecisionProgramConfig) : State :=
  { s with programConfig := Function.update s.programConfig programId (some config) }

def setDecision (s : State) (key : Application) (decision : Decision) : State :=
  { s with decision := Function.update s.decision key (some decision) }

def setReservation (s : State) (key : Application) (reservation : Reservation) : State :=
  { s with reservation := Function.update s.reservation key (some reservation) }

def setAppeal (s : State) (key : Application) (appeal : Appeal) : State :=
  { s with appeal := Function.update s.appeal key (some appeal) }

def reserveBudget (env : Env contract) (s : State) (programId : Bytes32) (applicant : Address)
    (amount : Int) : Outcome State := do
  let config ← loadProgramConfig s programId
  let committed ← orRefuse (fitsI128 (config.reservedAmount + config.awardedAmount))
    (.err .arithmeticOverflow)
  let after ← orRefuse (fitsI128 (committed + amount)) (.err .arithmeticOverflow)
  refuseIf (config.totalBudget < after) (.err .budgetExceeded)
  let reservedAmount ← orRefuse (fitsI128 (config.reservedAmount + amount)) (.err .arithmeticOverflow)
  let now := env.timestamp
  let expiresAt ← orRefuse (fitsU 64 (now + config.reservationTtl)) (.err .arithmeticOverflow)
  let s := setProgramConfig s programId { config with reservedAmount := reservedAmount }
  pure (setReservation s (programId, applicant)
    { programId, applicant, amount, createdAt := now, expiresAt, status := .reserved })

/-- The branch of both finalizations that sets the budget of one award aside. -/
def reserveWhen (awarded : Prop) [Decidable awarded] (env : Env contract) (s : State)
    (programId : Bytes32) (applicant : Address) : Outcome State :=
  if awarded then do
    let config ← loadProgramConfig s programId
    reserveBudget env s programId applicant config.perAwardAmount
  else pure s

def releaseCapacity (s : State) (programId : Bytes32) (amount : Int) : Outcome State := do
  let config ← loadProgramConfig s programId
  let reservedAmount ← orRefuse (fitsI128 (config.reservedAmount - amount)) (.err .arithmeticOverflow)
  pure (setProgramConfig s programId { config with reservedAmount := reservedAmount })

/-- The reservation of an application, as long as it is held. -/
def heldReservation (s : State) (key : Application) : Outcome Reservation := do
  let reservation ← orRefuse (s.reservation key) (.err .reservationNotFound)
  refuseIf (reservation.status ≠ .reserved) (.err .reservationNotActive)
  pure reservation

end Helpers

section Administration

def initializeContract (env : Env contract) (s : State) (admin : Address) : Outcome State := do
  refuseIf (s.admin ≠ none) (.err .alreadyInitialized)
  requireAuth env admin
  pure { s with admin := some admin }

def addMember (env : Env contract) (s : State) (admin member : Address) (role : CommitteeRole) :
    Outcome State := do
  requireAdmin env s admin
  refuseIf (member ∉ s.memberList ∧ maxMembers ≤ s.memberList.length) (.err .committeeFull)
  pure { s with
    memberList := if member ∈ s.memberList then s.memberList else s.memberList ++ [member]
    member := Function.update s.member member true
    memberRole := Function.update s.memberRole member (some role) }

def removeMember (env : Env contract) (s : State) (admin member : Address) : Outcome State := do
  requireAdmin env s admin
  pure { s with member := Function.update s.member member false }

def setQuorum (env : Env contract) (s : State) (admin : Address) (quorum : Nat) : Outcome State := do
  requireAdmin env s admin
  refuseIf (quorum = 0 ∨ maxMembers < quorum) (.err .invalidQuorum)
  pure { s with quorum := quorum }

def registerProgram (env : Env contract) (s : State) (admin : Address) (programId : Bytes32)
    (totalBudget perAwardAmount : I128) (reservationTtl appealWindow : Nat) : Outcome State := do
  requireAdmin env s admin
  refuseIf (totalBudget.val ≤ 0 ∨ perAwardAmount.val ≤ 0 ∨ totalBudget.val < perAwardAmount.val ∨
    reservationTtl = 0 ∨ appealWindow = 0) (.err .invalidProgramConfig)
  refuseIf (s.programConfig programId ≠ none) (.err .programAlreadyExists)
  pure (setProgramConfig s programId
    { active := true, totalBudget := totalBudget.val, perAwardAmount := perAwardAmount.val,
      reservedAmount := 0, awardedAmount := 0, reservationTtl, appealWindow })

def setProgramActive (env : Env contract) (s : State) (admin : Address) (programId : Bytes32)
    (active : Bool) : Outcome State := do
  requireAdmin env s admin
  let config ← loadProgramConfig s programId
  pure (setProgramConfig s programId { config with active := active })

end Administration

section Decisions

def openDecision (env : Env contract) (s : State) (chair : Address) (programId : Bytes32)
    (applicant : Address) (evidenceVersion : Nat) (evidenceHash : Bytes32) : Outcome State := do
  requireChair env s chair
  let config ← loadProgramConfig s programId
  refuseIf (config.active = false) (.err .programInactive)
  refuseIf (evidenceVersion = 0) (.err .invalidEvidence)
  refuseIf (s.decision (programId, applicant) ≠ none) (.err .decisionAlreadyExists)
  pure (setDecision s (programId, applicant)
    { programId, applicant, status := .opened, outcome := .pending, outcomeVersion := 0,
      evidenceVersion, evidenceHash, openedAt := env.timestamp, finalizedAt := 0, votes := [] })

def vote (env : Env contract) (s : State) (member : Address) (programId : Bytes32)
    (applicant : Address) (choice : VoteChoice) : Outcome State := do
  requireMember env s member
  let decision ← loadDecision s (programId, applicant)
  refuseIf (decision.status ≠ .opened) (.err .decisionAlreadyFinalized)
  refuseIf (hasVoted decision.votes member = true) (.err .alreadyVoted)
  pure (setDecision s (programId, applicant) { decision with
    votes := decision.votes ++ [⟨member, choice, env.timestamp⟩] })

def recuse (env : Env contract) (s : State) (member : Address) (programId : Bytes32)
    (applicant : Address) : Outcome State :=
  vote env s member programId applicant .recuse

def finalizeDecision (env : Env contract) (s : State) (caller : Address) (programId : Bytes32)
    (applicant : Address) : Outcome State := do
  requireChairOrAdmin env s caller
  let decision ← loadDecision s (programId, applicant)
  refuseIf (decision.status ≠ .opened) (.err .decisionAlreadyFinalized)
  let outcome ← concludeVote s decision.votes
  let s ← reserveWhen (outcome = .awarded) env s programId applicant
  pure (setDecision s (programId, applicant) { decision with
    outcome := outcome
    status := .finalized
    finalizedAt := env.timestamp
    outcomeVersion := 1 })

end Decisions

section Reservations

def acceptAward (env : Env contract) (s : State) (applicant : Address) (programId : Bytes32) :
    Outcome State := do
  requireAuth env applicant
  let reservation ← heldReservation s (programId, applicant)
  refuseIf (reservation.expiresAt < env.timestamp) (.err .reservationExpired)
  let config ← loadProgramConfig s programId
  let reservedAmount ← orRefuse (fitsI128 (config.reservedAmount - reservation.amount))
    (.err .arithmeticOverflow)
  let awardedAmount ← orRefuse (fitsI128 (config.awardedAmount + reservation.amount))
    (.err .arithmeticOverflow)
  let s := setProgramConfig s programId { config with
    reservedAmount := reservedAmount
    awardedAmount := awardedAmount }
  pure (setReservation s (programId, applicant) { reservation with status := .claimed })

def releaseReservation (env : Env contract) (s : State) (caller : Address) (programId : Bytes32)
    (applicant : Address) : Outcome State := do
  requireChairOrAdmin env s caller
  let reservation ← heldReservation s (programId, applicant)
  let s ← releaseCapacity s programId reservation.amount
  pure (setReservation s (programId, applicant) { reservation with status := .released })

def expireReservation (env : Env contract) (s : State) (caller : Address) (programId : Bytes32)
    (applicant : Address) : Outcome State := do
  requireAuth env caller
  let reservation ← heldReservation s (programId, applicant)
  refuseIf (env.timestamp ≤ reservation.expiresAt) (.err .reservationNotExpired)
  let s ← releaseCapacity s programId reservation.amount
  pure (setReservation s (programId, applicant) { reservation with status := .expired })

end Reservations

section Appeals

def fileAppeal (env : Env contract) (s : State) (applicant : Address)
    (programId groundsHash evidenceHash : Bytes32) : Outcome State := do
  requireAuth env applicant
  let config ← loadProgramConfig s programId
  refuseIf (config.active = false) (.err .programInactive)
  let decision ← loadDecision s (programId, applicant)
  refuseIf (decision.status ≠ .finalized) (.err .decisionNotFinalized)
  refuseIf (decision.outcome ≠ .rejected ∧ decision.outcome ≠ .waitlisted)
    (.err .decisionNotAppealable)
  refuseIf (s.appeal (programId, applicant) ≠ none) (.err .appealAlreadyExists)
  let deadline ← orRefuse (fitsU 64 (decision.finalizedAt + config.appealWindow))
    (.err .arithmeticOverflow)
  let now := env.timestamp
  refuseIf (deadline < now) (.err .appealWindowClosed)
  pure (setAppeal s (programId, applicant)
    { programId, applicant, originalOutcome := decision.outcome, status := .opened,
      outcome := .pending, groundsHash, evidenceHash, filedAt := now, resolvedAt := 0, votes := [] })

def voteAppeal (env : Env contract) (s : State) (member : Address) (programId : Bytes32)
    (applicant : Address) (choice : VoteChoice) : Outcome State := do
  requireMember env s member
  let appeal ← orRefuse (s.appeal (programId, applicant)) (.err .appealNotFound)
  refuseIf (appeal.status ≠ .opened) (.err .appealNotOpen)
  let decision ← loadDecision s (programId, applicant)
  refuseIf (hasVoted decision.votes member = true) (.err .appealReviewerIneligible)
  refuseIf (hasVoted appeal.votes member = true) (.err .alreadyVoted)
  pure (setAppeal s (programId, applicant) { appeal with
    votes := appeal.votes ++ [⟨member, choice, env.timestamp⟩] })

def finalizeAppeal (env : Env contract) (s : State) (caller : Address) (programId : Bytes32)
    (applicant : Address) : Outcome State := do
  requireChairOrAdmin env s caller
  let appeal ← orRefuse (s.appeal (programId, applicant)) (.err .appealNotFound)
  refuseIf (appeal.status ≠ .opened) (.err .appealNotOpen)
  let outcome ← concludeVote s appeal.votes
  let s ← reserveWhen (outcome = .awarded ∧ s.reservation (programId, applicant) = none) env s
    programId applicant
  let decision ← loadDecision s (programId, applicant)
  let outcomeVersion ← orRefuse (fitsU 32 (decision.outcomeVersion + 1)) (.err .arithmeticOverflow)
  let s := setDecision s (programId, applicant) { decision with
    outcome := outcome
    outcomeVersion := outcomeVersion }
  pure (setAppeal s (programId, applicant) { appeal with
    status := .resolved
    outcome := outcome
    resolvedAt := env.timestamp })

end Appeals

/-- The state-changing entry points. -/
inductive Call where
  | initializeContract (admin : Address)
  | addMember (admin member : Address) (role : CommitteeRole)
  | removeMember (admin member : Address)
  | setQuorum (admin : Address) (quorum : Nat)
  | registerProgram (admin : Address) (programId : Bytes32) (totalBudget perAwardAmount : I128)
      (reservationTtl appealWindow : Nat)
  | setProgramActive (admin : Address) (programId : Bytes32) (active : Bool)
  | openDecision (chair : Address) (programId : Bytes32) (applicant : Address)
      (evidenceVersion : Nat) (evidenceHash : Bytes32)
  | vote (member : Address) (programId : Bytes32) (applicant : Address) (choice : VoteChoice)
  | recuse (member : Address) (programId : Bytes32) (applicant : Address)
  | finalizeDecision (caller : Address) (programId : Bytes32) (applicant : Address)
  | acceptAward (applicant : Address) (programId : Bytes32)
  | releaseReservation (caller : Address) (programId : Bytes32) (applicant : Address)
  | expireReservation (caller : Address) (programId : Bytes32) (applicant : Address)
  | fileAppeal (applicant : Address) (programId groundsHash evidenceHash : Bytes32)
  | voteAppeal (member : Address) (programId : Bytes32) (applicant : Address) (choice : VoteChoice)
  | finalizeAppeal (caller : Address) (programId : Bytes32) (applicant : Address)
  deriving DecidableEq

structure Input (contract : Address) where
  env : Env contract
  call : Call

/-- One entry point applied to the state. -/
def execute (env : Env contract) (s : State) : Call → Outcome State
  | .initializeContract admin => initializeContract env s admin
  | .addMember admin member role => addMember env s admin member role
  | .removeMember admin member => removeMember env s admin member
  | .setQuorum admin quorum => setQuorum env s admin quorum
  | .registerProgram admin programId totalBudget perAwardAmount reservationTtl appealWindow =>
    registerProgram env s admin programId totalBudget perAwardAmount reservationTtl appealWindow
  | .setProgramActive admin programId active => setProgramActive env s admin programId active
  | .openDecision chair programId applicant evidenceVersion evidenceHash =>
    openDecision env s chair programId applicant evidenceVersion evidenceHash
  | .vote member programId applicant choice => vote env s member programId applicant choice
  | .recuse member programId applicant => recuse env s member programId applicant
  | .finalizeDecision caller programId applicant => finalizeDecision env s caller programId applicant
  | .acceptAward applicant programId => acceptAward env s applicant programId
  | .releaseReservation caller programId applicant =>
    releaseReservation env s caller programId applicant
  | .expireReservation caller programId applicant =>
    expireReservation env s caller programId applicant
  | .fileAppeal applicant programId groundsHash evidenceHash =>
    fileAppeal env s applicant programId groundsHash evidenceHash
  | .voteAppeal member programId applicant choice =>
    voteAppeal env s member programId applicant choice
  | .finalizeAppeal caller programId applicant => finalizeAppeal env s caller programId applicant

def machine (contract : Address) : Machine State (Input contract) Unit (Abort ContractError) where
  step s i := ((), ·) <$> execute i.env s i.call

end ChainVerse.ScholarshipDecisions
