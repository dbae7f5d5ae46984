import ChainVerse.Host.Environment
import ChainVerse.Framework.Machine
import Mathlib.Logic.Function.Basic

namespace ChainVerse.MentorshipScheduling

section Types

def maxSessionsPerParticipant : Nat := 64
def minDurationMinutes : Nat := 15
def maxDurationMinutes : Nat := 480
def minOffsetMinutes : Int := -720
def maxOffsetMinutes : Int := 840
def maxLeadTimeSeconds : Nat := 2592000
def maxReschedulesPerSession : Nat := 16
def minApprovalWindowSeconds : Nat := 60
def maxApprovalWindowSeconds : Nat := 2592000
def defaultRescheduleNoticeSeconds : Nat := 86400
def defaultApprovalWindowSeconds : Nat := 259200

inductive ContractError where
  | notInitialized
  | alreadyInitialized
  | notAdmin
  | notRegistrar
  | notAuthorized
  | agreementNotFound
  | agreementAlreadyRegistered
  | agreementNotActive
  | sessionAlreadyExists
  | sessionNotFound
  | scheduleConflict
  | leadTimeNotMet
  | startTimeInPast
  | invalidDuration
  | invalidTimezoneOffset
  | sessionLimitReached
  | idempotencyConflict
  | invalidLeadTime
  | rescheduleNotFound
  | rescheduleAlreadyPending
  | rescheduleNoticeNotMet
  | rescheduleExpired
  | staleRescheduleApproval
  | invalidReschedule
  | rescheduleLimitReached
  | rescheduleNotOpen
  | invalidReschedulePolicy
  deriving DecidableEq, Repr

abbrev Outcome (α : Type) := Except (Abort ContractError) α

inductive SessionMode where
  | video
  | audio
  | inPerson
  | chat
  deriving DecidableEq, Repr

inductive SessionStatus where
  | booked
  | confirmed
  deriving DecidableEq, Repr

structure AgreementAnchor where
  agreementId : Bytes32
  mentor : Address
  mentee : Address
  active : Bool
  registeredAt : Nat
  deriving DecidableEq

/-- The three fields that state a time, in a session, in a proposal and twice in a schedule change. -/
structure Slot where
  startUtc : Nat
  localOffsetMinutes : Int
  durationMinutes : Nat
  deriving DecidableEq

structure ScheduleChange where
  proposalId : Bytes32
  previous : Slot
  new : Slot
  changedAt : Nat
  deriving DecidableEq

structure Session where
  sessionId : Bytes32
  agreementId : Bytes32
  mentor : Address
  mentee : Address
  slot : Slot
  mode : SessionMode
  locationRef : Bytes32
  agendaHash : Bytes32
  status : SessionStatus
  /-- Zero where the mentor has not confirmed. -/
  mentorConfirmedAt : Nat
  menteeConfirmedAt : Nat
  bookedAt : Nat
  revision : Nat
  rescheduleHistory : List ScheduleChange
  deriving DecidableEq

inductive RescheduleReason where
  | availabilityChange
  | scheduleConflict
  | timezoneChange
  | personal
  | other
  deriving DecidableEq, Repr

structure PaymentImpact where
  currentMinutes : Nat
  proposedMinutes : Nat
  deltaMinutes : Int
  settlementAdjustmentRequired : Bool
  deriving DecidableEq

inductive RescheduleStatus where
  | proposed
  | applied
  | declined
  deriving DecidableEq, Repr

structure RescheduleProposal where
  proposalId : Bytes32
  sessionId : Bytes32
  proposedBy : Address
  reason : RescheduleReason
  reasonHash : Bytes32
  new : Slot
  paymentImpact : PaymentImpact
  createdAt : Nat
  expiresAt : Nat
  sessionRevision : Nat
  status : RescheduleStatus
  respondedBy : Option Address
  respondedAt : Nat
  appliedAt : Nat
  deriving DecidableEq

/-- The contract's storage. -/
structure State where
  admin : Option Address
  registrar : Option Address
  minLeadTime : Option Nat
  rescheduleNotice : Option Nat
  approvalWindow : Option Nat
  agreement : Bytes32 → Option AgreementAnchor
  session : Bytes32 → Option Session
  participantSessions : Address → List Bytes32
  /-- By agreement, caller and idempotency key. -/
  bookingIdem : Bytes32 × Address × Bytes32 → Option Bytes32
  reschedule : Bytes32 → Option RescheduleProposal
  /-- The open proposal of a session. -/
  openReschedule : Bytes32 → Option Bytes32

def State.empty : State where
  admin := none
  registrar := none
  minLeadTime := none
  rescheduleNotice := none
  approvalWindow := none
  agreement := fun _ => none
  session := fun _ => none
  participantSessions := fun _ => []
  bookingIdem := fun _ => none
  reschedule := fun _ => none
  openReschedule := fun _ => none

end Types

variable {contract : Address}

section Helpers

def requireAdmin (env : Env contract) (s : State) (caller : Address) : Outcome Unit := do
  let admin ← orRefuse s.admin (.err .notInitialized)
  refuseIf (caller ≠ admin) (.err .notAdmin)
  requireAuth env caller

def requireRegistrar (env : Env contract) (s : State) (caller : Address) : Outcome Unit := do
  let registrar ← orRefuse s.registrar (.err .notInitialized)
  refuseIf (caller ≠ registrar) (.err .notRegistrar)
  requireAuth env caller

def validateLeadTime (minLeadTimeSeconds : Nat) : Outcome Unit :=
  refuseIf (maxLeadTimeSeconds < minLeadTimeSeconds) (.err .invalidLeadTime)

def validateReschedulePolicy (noticeSeconds approvalWindowSeconds : Nat) : Outcome Unit :=
  refuseIf (maxLeadTimeSeconds < noticeSeconds ∨ approvalWindowSeconds < minApprovalWindowSeconds ∨
    maxApprovalWindowSeconds < approvalWindowSeconds) (.err .invalidReschedulePolicy)

def loadAgreement (s : State) (agreementId : Bytes32) : Outcome AgreementAnchor :=
  orRefuse (s.agreement agreementId) (.err .agreementNotFound)

def loadSession (s : State) (sessionId : Bytes32) : Outcome Session :=
  orRefuse (s.session sessionId) (.err .sessionNotFound)

def loadReschedule (s : State) (proposalId : Bytes32) : Outcome RescheduleProposal :=
  orRefuse (s.reschedule proposalId) (.err .rescheduleNotFound)

def putSession (s : State) (session : Session) : State :=
  { s with session := Function.update s.session session.sessionId (some session) }

def putReschedule (s : State) (proposal : RescheduleProposal) : State :=
  { s with reschedule := Function.update s.reschedule proposal.proposalId (some proposal) }

def closeReschedule (s : State) (sessionId : Bytes32) : State :=
  { s with openReschedule := Function.update s.openReschedule sessionId none }

def indexSession (s : State) (participant : Address) (ids : List Bytes32) (sessionId : Bytes32) :
    State :=
  { s with
    participantSessions := Function.update s.participantSessions participant (ids ++ [sessionId]) }

def validateSlot (env : Env contract) (s : State) (slot : Slot) : Outcome Unit := do
  refuseIf (slot.durationMinutes < minDurationMinutes ∨ maxDurationMinutes < slot.durationMinutes)
    (.err .invalidDuration)
  refuseIf (slot.localOffsetMinutes < minOffsetMinutes ∨ maxOffsetMinutes < slot.localOffsetMinutes)
    (.err .invalidTimezoneOffset)
  refuseIf (slot.startUtc ≤ env.timestamp) (.err .startTimeInPast)
  let lead ← orRefuse s.minLeadTime (.err .notInitialized)
  let earliest ← orRefuse (fitsU 64 (env.timestamp + lead)) (.err .startTimeInPast)
  refuseIf (slot.startUtc < earliest) (.err .leadTimeNotMet)

/-- End timestamp of a slot, with checked arithmetic. -/
def sessionEnd (slot : Slot) : Outcome Nat := do
  let seconds ← orRefuse (fitsU 64 (slot.durationMinutes * 60)) (.err .invalidDuration)
  orRefuse (fitsU 64 (slot.startUtc + seconds)) (.err .invalidDuration)

/-- The overlap check of a booking, against the sessions of one participant. -/
def requireFree (s : State) (startUtc endUtc : Nat) : List Bytes32 → Outcome Unit
  | [] => pure ()
  | otherId :: rest => do
    let other ← loadSession s otherId
    let otherEnd ← sessionEnd other.slot
    refuseIf (startUtc < otherEnd ∧ other.slot.startUtc < endUtc) (.err .scheduleConflict)
    requireFree s startUtc endUtc rest

/-- The overlap check of a move: it leaves out `exclude`, and whatever it cannot load. -/
def conflictsWith (s : State) (participant : Address) (startUtc endUtc : Nat) (exclude : Bytes32) :
    Bool :=
  (s.participantSessions participant).any fun id =>
    if id = exclude then false
    else match s.session id with
      | none => false
      | some other =>
        match sessionEnd other.slot with
        | .error _ => false
        | .ok otherEnd => startUtc < otherEnd ∧ other.slot.startUtc < endUtc

/-- `as i32` on the difference of two `i64`s. -/
def paymentImpact (currentMinutes proposedMinutes : Nat) : PaymentImpact where
  currentMinutes := currentMinutes
  proposedMinutes := proposedMinutes
  deltaMinutes := Int.bmod ((proposedMinutes : Int) - currentMinutes) (2^32)
  settlementAdjustmentRequired := proposedMinutes ≠ currentMinutes

end Helpers

section Administration

def initializeContract (env : Env contract) (s : State) (admin : Address)
    (minLeadTimeSeconds : Nat) : Outcome State := do
  refuseIf (s.admin ≠ none) (.err .alreadyInitialized)
  requireAuth env admin
  validateLeadTime minLeadTimeSeconds
  pure { s with
    admin := some admin
    registrar := some admin
    minLeadTime := some minLeadTimeSeconds
    rescheduleNotice := some defaultRescheduleNoticeSeconds
    approvalWindow := some defaultApprovalWindowSeconds }

def setRegistrar (env : Env contract) (s : State) (admin registrar : Address) : Outcome State := do
  requireAdmin env s admin
  pure { s with registrar := some registrar }

def setMinLeadTime (env : Env contract) (s : State) (admin : Address)
    (minLeadTimeSeconds : Nat) : Outcome State := do
  requireAdmin env s admin
  validateLeadTime minLeadTimeSeconds
  pure { s with minLeadTime := some minLeadTimeSeconds }

def setReschedulePolicy (env : Env contract) (s : State) (admin : Address)
    (noticeSeconds approvalWindowSeconds : Nat) : Outcome State := do
  requireAdmin env s admin
  validateReschedulePolicy noticeSeconds approvalWindowSeconds
  pure { s with
    rescheduleNotice := some noticeSeconds
    approvalWindow := some approvalWindowSeconds }

def registerAgreement (env : Env contract) (s : State) (caller : Address) (agreementId : Bytes32)
    (mentor mentee : Address) : Outcome State := do
  requireRegistrar env s caller
  refuseIf (s.agreement agreementId ≠ none) (.err .agreementAlreadyRegistered)
  refuseIf (mentor = mentee) (.err .notAuthorized)
  let anchor : AgreementAnchor :=
    { agreementId, mentor, mentee, active := true, registeredAt := env.timestamp }
  pure { s with agreement := Function.update s.agreement agreementId (some anchor) }

def setAgreementActive (env : Env contract) (s : State) (caller : Address) (agreementId : Bytes32)
    (active : Bool) : Outcome State := do
  requireRegistrar env s caller
  let anchor ← loadAgreement s agreementId
  pure { s with
    agreement := Function.update s.agreement agreementId (some { anchor with active := active }) }

end Administration

section Sessions

def bookSession (env : Env contract) (s : State) (caller : Address)
    (agreementId sessionId idempotencyKey : Bytes32) (slot : Slot) (mode : SessionMode)
    (locationRef agendaHash : Bytes32) : Outcome (Bytes32 × State) := do
  let anchor ← loadAgreement s agreementId
  refuseIf (anchor.active = false) (.err .agreementNotActive)
  refuseIf (caller ≠ anchor.mentor ∧ caller ≠ anchor.mentee) (.err .notAuthorized)
  requireAuth env caller
  let idemKey := (agreementId, caller, idempotencyKey)
  match s.bookingIdem idemKey with
  | some existingId => do
    let existing ← loadSession s existingId
    refuseIf (¬ (existing.slot = slot ∧ existing.mode = mode ∧ existing.locationRef = locationRef ∧
      existing.agendaHash = agendaHash)) (.err .idempotencyConflict)
    pure (existingId, s)
  | none => do
    validateSlot env s slot
    refuseIf (s.session sessionId ≠ none) (.err .sessionAlreadyExists)
    let mentorSessions := s.participantSessions anchor.mentor
    let menteeSessions := s.participantSessions anchor.mentee
    refuseIf (maxSessionsPerParticipant ≤ mentorSessions.length ∨
      maxSessionsPerParticipant ≤ menteeSessions.length) (.err .sessionLimitReached)
    let endUtc ← sessionEnd slot
    requireFree s slot.startUtc endUtc mentorSessions
    requireFree s slot.startUtc endUtc menteeSessions
    let session : Session :=
      { sessionId, agreementId, mentor := anchor.mentor, mentee := anchor.mentee, slot, mode,
        locationRef, agendaHash, status := .booked, mentorConfirmedAt := 0, menteeConfirmedAt := 0,
        bookedAt := env.timestamp, revision := 0, rescheduleHistory := [] }
    let s := putSession s session
    let s := indexSession s anchor.mentor mentorSessions sessionId
    let s := indexSession s anchor.mentee menteeSessions sessionId
    pure (sessionId, { s with
      bookingIdem := Function.update s.bookingIdem idemKey (some sessionId) })

def confirmSession (env : Env contract) (s : State) (caller : Address) (sessionId : Bytes32) :
    Outcome (Bool × State) := do
  let session ← loadSession s sessionId
  refuseIf (caller ≠ session.mentor ∧ caller ≠ session.mentee) (.err .notAuthorized)
  requireAuth env caller
  let now := env.timestamp
  if session.status = .confirmed then pure (true, s)
  else if (if caller = session.mentor then session.mentorConfirmedAt
      else session.menteeConfirmedAt) ≠ 0 then pure (false, s)
  else do
    let session := if caller = session.mentor then { session with mentorConfirmedAt := now }
      else { session with menteeConfirmedAt := now }
    let session := if session.mentorConfirmedAt ≠ 0 ∧ session.menteeConfirmedAt ≠ 0 then
      { session with status := .confirmed } else session
    pure (session.status = .confirmed, putSession s session)

end Sessions

section Reschedules

/-- Clears the way for a new proposal: the last one must have been answered or have expired. -/
def clearOpen (now : Nat) (s : State) (sessionId : Bytes32) : Outcome State :=
  match s.openReschedule sessionId with
  | none => pure s
  | some openId => do
    let proposal ← loadReschedule s openId
    refuseIf (proposal.status = .proposed ∧ now ≤ proposal.expiresAt)
      (.err .rescheduleAlreadyPending)
    let s := closeReschedule s sessionId
    pure { s with reschedule := Function.update s.reschedule openId none }

def proposeReschedule (env : Env contract) (s : State) (caller : Address)
    (sessionId proposalId : Bytes32) (reason : RescheduleReason) (reasonHash : Bytes32)
    (new : Slot) : Outcome (RescheduleProposal × State) := do
  let session ← loadSession s sessionId
  refuseIf (caller ≠ session.mentor ∧ caller ≠ session.mentee) (.err .notAuthorized)
  requireAuth env caller
  match s.reschedule proposalId with
  | some existing => do
    refuseIf (¬ (existing.sessionId = sessionId ∧ existing.proposedBy = caller ∧
      existing.reason = reason ∧ existing.reasonHash = reasonHash ∧ existing.new = new))
      (.err .idempotencyConflict)
    pure (existing, s)
  | none => do
    refuseIf (maxReschedulesPerSession ≤ session.rescheduleHistory.length)
      (.err .rescheduleLimitReached)
    let now := env.timestamp
    let notice ← orRefuse s.rescheduleNotice (.err .notInitialized)
    let noticed ← orRefuse (fitsU 64 (now + notice)) (.err .rescheduleNoticeNotMet)
    refuseIf (session.slot.startUtc < noticed) (.err .rescheduleNoticeNotMet)
    validateSlot env s new
    refuseIf (new = session.slot) (.err .invalidReschedule)
    let s ← clearOpen now s sessionId
    let endUtc ← sessionEnd new
    refuseIf (conflictsWith s session.mentor new.startUtc endUtc sessionId = true ∨
      conflictsWith s session.mentee new.startUtc endUtc sessionId = true) (.err .scheduleConflict)
    let window ← orRefuse s.approvalWindow (.err .notInitialized)
    let expiresAt ← orRefuse (fitsU 64 (now + window)) (.err .rescheduleExpired)
    let proposal : RescheduleProposal :=
      { proposalId, sessionId, proposedBy := caller, reason, reasonHash, new,
        paymentImpact := paymentImpact session.slot.durationMinutes new.durationMinutes,
        createdAt := now, expiresAt := min expiresAt session.slot.startUtc,
        sessionRevision := session.revision, status := .proposed, respondedBy := none,
        respondedAt := 0, appliedAt := 0 }
    let s := putReschedule s proposal
    pure (proposal, { s with
      openReschedule := Function.update s.openReschedule sessionId (some proposalId) })

/-- The session and its proposal, when the caller is the participant who has to answer it. -/
def answering (env : Env contract) (s : State) (caller : Address) (proposalId : Bytes32) :
    Outcome (RescheduleProposal × Session) := do
  let proposal ← loadReschedule s proposalId
  let session ← loadSession s proposal.sessionId
  refuseIf (caller ≠ session.mentor ∧ caller ≠ session.mentee) (.err .notAuthorized)
  refuseIf (caller = proposal.proposedBy) (.err .notAuthorized)
  requireAuth env caller
  pure (proposal, session)

/-- The session at its new time, to be confirmed anew. -/
def Session.moved (session : Session) (proposal : RescheduleProposal) (proposalId : Bytes32)
    (now : Nat) : Session :=
  { session with
    rescheduleHistory := session.rescheduleHistory ++
      [{ proposalId, previous := session.slot, new := proposal.new, changedAt := now }]
    slot := proposal.new
    revision := min (session.revision + 1) (2^32 - 1)
    status := .booked
    mentorConfirmedAt := 0
    menteeConfirmedAt := 0 }

def approveReschedule (env : Env contract) (s : State) (caller : Address) (proposalId : Bytes32) :
    Outcome (Session × State) := do
  let (proposal, session) ← answering env s caller proposalId
  if proposal.status = .applied then pure (session, s)
  else do
    refuseIf (proposal.status ≠ .proposed) (.err .rescheduleNotOpen)
    let now := env.timestamp
    refuseIf (proposal.expiresAt < now) (.err .rescheduleExpired)
    refuseIf (session.revision ≠ proposal.sessionRevision) (.err .staleRescheduleApproval)
    refuseIf (maxReschedulesPerSession ≤ session.rescheduleHistory.length)
      (.err .rescheduleLimitReached)
    let endUtc ← sessionEnd proposal.new
    refuseIf (conflictsWith s session.mentor proposal.new.startUtc endUtc session.sessionId = true ∨
      conflictsWith s session.mentee proposal.new.startUtc endUtc session.sessionId = true)
      (.err .scheduleConflict)
    let session := session.moved proposal proposalId now
    let s := putSession s session
    let s := putReschedule s { proposal with
      status := .applied
      respondedBy := some caller
      respondedAt := now
      appliedAt := now }
    pure (session, closeReschedule s session.sessionId)

def declineReschedule (env : Env contract) (s : State) (caller : Address) (proposalId : Bytes32) :
    Outcome State := do
  let (proposal, session) ← answering env s caller proposalId
  if proposal.status = .declined then pure s
  else do
    refuseIf (proposal.status ≠ .proposed) (.err .rescheduleNotOpen)
    let now := env.timestamp
    let s := putReschedule s { proposal with
      status := .declined
      respondedBy := some caller
      respondedAt := now }
    pure (closeReschedule s session.sessionId)

end Reschedules

/-- The state-changing entry points. -/
inductive Call where
  | initializeContract (admin : Address) (minLeadTimeSeconds : Nat)
  | setRegistrar (admin registrar : Address)
  | setMinLeadTime (admin : Address) (minLeadTimeSeconds : Nat)
  | setReschedulePolicy (admin : Address) (noticeSeconds approvalWindowSeconds : Nat)
  | registerAgreement (caller : Address) (agreementId : Bytes32) (mentor mentee : Address)
  | setAgreementActive (caller : Address) (agreementId : Bytes32) (active : Bool)
  | bookSession (caller : Address) (agreementId sessionId idempotencyKey : Bytes32) (slot : Slot)
      (mode : SessionMode) (locationRef agendaHash : Bytes32)
  | confirmSession (caller : Address) (sessionId : Bytes32)
  | proposeReschedule (caller : Address) (sessionId proposalId : Bytes32)
      (reason : RescheduleReason) (reasonHash : Bytes32) (new : Slot)
  | approveReschedule (caller : Address) (proposalId : Bytes32)
  | declineReschedule (caller : Address) (proposalId : Bytes32)
  deriving DecidableEq

structure Input (contract : Address) where
  env : Env contract
  call : Call

/-- What an entry point returns. -/
inductive Answer where
  | done
  | booked (sessionId : Bytes32)
  | confirmed (both : Bool)
  | proposed (proposal : RescheduleProposal)
  | approved (session : Session)
  deriving DecidableEq

/-- One entry point applied to the state. -/
def execute (env : Env contract) (s : State) : Call → Outcome (Answer × State)
  | .initializeContract admin minLeadTimeSeconds =>
    (.done, ·) <$> initializeContract env s admin minLeadTimeSeconds
  | .setRegistrar admin registrar => (.done, ·) <$> setRegistrar env s admin registrar
  | .setMinLeadTime admin minLeadTimeSeconds =>
    (.done, ·) <$> setMinLeadTime env s admin minLeadTimeSeconds
  | .setReschedulePolicy admin noticeSeconds approvalWindowSeconds =>
    (.done, ·) <$> setReschedulePolicy env s admin noticeSeconds approvalWindowSeconds
  | .registerAgreement caller agreementId mentor mentee =>
    (.done, ·) <$> registerAgreement env s caller agreementId mentor mentee
  | .setAgreementActive caller agreementId active =>
    (.done, ·) <$> setAgreementActive env s caller agreementId active
  | .bookSession caller agreementId sessionId idempotencyKey slot mode locationRef agendaHash =>
    Prod.map .booked id <$> bookSession env s caller agreementId sessionId idempotencyKey slot mode
      locationRef agendaHash
  | .confirmSession caller sessionId =>
    Prod.map .confirmed id <$> confirmSession env s caller sessionId
  | .proposeReschedule caller sessionId proposalId reason reasonHash new =>
    Prod.map .proposed id <$>
      proposeReschedule env s caller sessionId proposalId reason reasonHash new
  | .approveReschedule caller proposalId =>
    Prod.map .approved id <$> approveReschedule env s caller proposalId
  | .declineReschedule caller proposalId =>
    (.done, ·) <$> declineReschedule env s caller proposalId

def machine (contract : Address) :
    Machine State (Input contract) Answer (Abort ContractError) where
  step s i := execute i.env s i.call

end ChainVerse.MentorshipScheduling
