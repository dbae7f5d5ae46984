import ChainVerse.Availability.Ranges
import ChainVerse.Framework.Machine

namespace ChainVerse.MentorshipSlots

section Types

open MentorshipAvailability (AvailabilitySummary AvailableRange)

def secondsPerDay : Nat := 86400
def maxBlackouts : Nat := 64
def maxBookingsPerParticipant : Nat := 128
def maxSearchSpanSeconds : Nat := 31 * secondsPerDay
def maxPageSize : Nat := 64
def maxPage : Nat := 64
def maxCollectedCandidates : Nat := 256
def maxBlackoutSpanSeconds : Nat := 366 * secondsPerDay
def minSessionSeconds : Nat := 300
def maxSessionSeconds : Nat := 8 * 3600
def minGranularitySeconds : Nat := 60
def maxGranularitySeconds : Nat := 3600
def maxSessionsPerDay : Nat := 16
def availabilityPageSize : Nat := 64
def maxAvailabilityPages : Nat := 4
def maxAvailabilityRanges : Nat := 192

/-- The program id that targets every program. -/
def globalProgram : Bytes32 := 0

inductive ContractError where
  | notInitialized
  | alreadyInitialized
  | notAdmin
  | notAuthorized
  | programPolicyNotFound
  | invalidSessionPolicy
  | invalidSessionsPerDay
  | invalidBlackoutRange
  | blackoutAlreadyExists
  | blackoutNotFound
  | tooManyBlackouts
  | bookingNotFound
  | bookingAlreadyExists
  | bookingNotActive
  | invalidParties
  | invalidQueryRange
  | querySpanTooLarge
  | invalidPage
  | tooManyCandidates
  | participantScheduleFull
  | availabilityUnavailable
  | slotUnavailable
  | blackoutOverlap
  | versionOverflow
  | invalidBookingId
  | availabilityTooFragmented
  deriving DecidableEq, Repr

abbrev Outcome (α : Type) := Except (Abort ContractError) α

/-- The session shapes that `set_program_policy` accepts. -/
def ValidSession (duration granularity : Nat) : Prop :=
  (minSessionSeconds ≤ duration ∧ duration ≤ maxSessionSeconds) ∧
  (minGranularitySeconds ≤ granularity ∧ granularity ≤ maxGranularitySeconds) ∧
  duration % granularity = 0

instance (duration granularity : Nat) : Decidable (ValidSession duration granularity) :=
  inferInstanceAs (Decidable (_ ∧ _ ∧ _))

/-- A stored session policy. -/
structure ProgramPolicy where
  programId : Bytes32
  durationSeconds : Nat
  granularitySeconds : Nat
  maxSessionsPerDay : Nat
  version : Nat
  updatedAt : Nat
  session_valid : ValidSession durationSeconds granularitySeconds
  deriving DecidableEq

structure Blackout where
  id : Bytes32
  programId : Bytes32
  fromTs : Nat
  untilTs : Nat
  createdAt : Nat
  deriving DecidableEq, Repr

inductive BookingState where
  | active
  | cancelled
  | completed
  deriving DecidableEq, Repr

structure Booking where
  id : Bytes32
  mentor : Address
  mentee : Address
  programId : Bytes32
  startTs : Nat
  endTs : Nat
  state : BookingState
  createdAt : Nat
  deriving DecidableEq, Repr

structure Slot where
  startTs : Nat
  endTs : Nat
  mentorAvailabilityVersion : Nat
  menteeAvailabilityVersion : Nat
  deriving DecidableEq, Repr

/-- What an availability deployment answers at one moment: `none` where the call fails. The last
two arguments of `availableRanges` are the page and the page size. -/
structure AvailabilityApi where
  availabilitySummary : Address → Option AvailabilitySummary
  availableRanges : Address → Nat → Nat → Nat → Nat → Option (List AvailableRange)

/-- The deployments that the contract may be pointed at. -/
abbrev Peers := Address → AvailabilityApi

structure State where
  admin : Option Address
  availability : Option Address
  policy : Bytes32 → Option ProgramPolicy
  blackoutIds : List Bytes32
  blackout : Bytes32 → Option Blackout
  bookingIds : Address → List Bytes32
  booking : Bytes32 → Option Booking

def State.empty : State where
  admin := none
  availability := none
  policy := fun _ => none
  blackoutIds := []
  blackout := fun _ => none
  bookingIds := fun _ => []
  booking := fun _ => none

variable {contract : Address}

def requireAdmin (env : Env contract) (s : State) (caller : Address) : Outcome Unit := do
  let admin ← orRefuse s.admin (.err .notInitialized)
  refuseIf (caller ≠ admin) (.err .notAdmin)
  requireAuth env caller

def availabilityAddress (s : State) : Outcome Address :=
  orRefuse s.availability (.err .notInitialized)

def readSummary (peers : Peers) (s : State) (participant : Address) :
    Outcome AvailabilitySummary := do
  let address ← availabilityAddress s
  orRefuse ((peers address).availabilitySummary participant) (.err .availabilityUnavailable)

/-- The page loop of `readRanges`, with at most `pages` more pages to read. -/
def readPages (fetch : Nat → Option (List AvailableRange)) :
    Nat → Nat → List AvailableRange → Outcome (List AvailableRange)
  | 0, _, _ => .error (.err .availabilityTooFragmented)
  | pages + 1, page, ranges => do
    let pageRanges ← orRefuse (fetch page) (.err .availabilityUnavailable)
    refuseIf (maxAvailabilityRanges < ranges.length + pageRanges.length)
      (.err .availabilityTooFragmented)
    if pageRanges.length < availabilityPageSize then pure (ranges ++ pageRanges)
    else readPages fetch pages (page + 1) (ranges ++ pageRanges)

def readRanges (peers : Peers) (s : State) (participant : Address) (fromTs untilTs : Nat) :
    Outcome (List AvailableRange) := do
  let address ← availabilityAddress s
  readPages (fun page =>
      (peers address).availableRanges participant fromTs untilTs page availabilityPageSize)
    maxAvailabilityPages 0 []

def loadPolicy (s : State) (programId : Bytes32) : Outcome ProgramPolicy :=
  orRefuse (s.policy programId) (.err .programPolicyNotFound)

def loadBlackouts (s : State) : List Blackout := s.blackoutIds.filterMap s.blackout

def participantBookings (s : State) (participant : Address) : List Booking :=
  (s.bookingIds participant).filterMap s.booking

end Types

open MentorshipAvailability (AvailabilitySummary AvailableRange)

variable {contract : Address}

section Checks

def rangesCover (ranges : List AvailableRange) (startTs endTs : Nat) : Bool :=
  ranges.any fun range => range.startTs ≤ startTs ∧ endTs ≤ range.endTs

def blackoutOverlaps (blackouts : List Blackout) (programId : Bytes32) (startTs endTs : Nat) :
    Bool :=
  blackouts.any fun blackout =>
    (blackout.programId = programId ∨ blackout.programId = globalProgram) ∧
      blackout.fromTs < endTs ∧ startTs < blackout.untilTs

/-- An active booking that overlaps the candidate once the buffers are put around the booking. -/
def bookingsConflict (bookings : List Booking) (startTs endTs bufferBefore bufferAfter : Nat) :
    Bool :=
  bookings.any fun booking => booking.state = .active ∧
    booking.startTs - bufferBefore < endTs ∧ startTs < saturatingAdd booking.endTs bufferAfter

/-- The active bookings that start on the UTC day of `instant`. -/
def sessionsOnDay (bookings : List Booking) (instant : Nat) : Outcome Nat := do
  let dayStart := instant / secondsPerDay * secondsPerDay
  let dayEnd ← orRefuse (fitsU 64 (dayStart + secondsPerDay)) .overflow
  pure (bookings.countP fun booking =>
    booking.state = .active ∧ dayStart ≤ booking.startTs ∧ booking.startTs < dayEnd)

def validateParticipantSlot (summary : AvailabilitySummary) (bookings : List Booking)
    (startTs endTs : Nat) (ranges : List AvailableRange) (blackouts : List Blackout)
    (programId : Bytes32) (maxSessionsPerDay : Nat) : Outcome Unit := do
  refuseIf (summary.enabled = false) (.err .slotUnavailable)
  refuseIf (rangesCover ranges startTs endTs = false) (.err .slotUnavailable)
  refuseIf (blackoutOverlaps blackouts programId startTs endTs = true) (.err .blackoutOverlap)
  refuseIf (bookingsConflict bookings startTs endTs summary.bufferBeforeSeconds
    summary.bufferAfterSeconds = true) (.err .slotUnavailable)
  let sessions ← sessionsOnDay bookings startTs
  refuseIf (maxSessionsPerDay ≤ sessions) (.err .slotUnavailable)

/-- The end of the slot, when both participants can take it. -/
def validateSlot (env : Env contract) (peers : Peers) (s : State) (mentor mentee : Address)
    (policy : ProgramPolicy) (startTs : Nat) : Outcome Nat := do
  let mentorSummary ← readSummary peers s mentor
  let menteeSummary ← readSummary peers s mentee
  let endTs ← orRefuse (fitsU 64 (startTs + policy.durationSeconds)) (.err .slotUnavailable)
  let leadTime := max mentorSummary.leadTimeSeconds menteeSummary.leadTimeSeconds
  let earliest ← orRefuse (fitsU 64 (env.timestamp + leadTime)) (.err .slotUnavailable)
  refuseIf (startTs < earliest) (.err .slotUnavailable)
  let mentorHorizon ← orRefuse (fitsU 64 (mentorSummary.bookingHorizonDays * secondsPerDay))
    (.err .slotUnavailable)
  let menteeHorizon ← orRefuse (fitsU 64 (menteeSummary.bookingHorizonDays * secondsPerDay))
    (.err .slotUnavailable)
  let latest ← orRefuse (fitsU 64 (env.timestamp + min mentorHorizon menteeHorizon))
    (.err .slotUnavailable)
  refuseIf (latest < endTs) (.err .slotUnavailable)
  let mentorRanges ← readRanges peers s mentor startTs endTs
  let menteeRanges ← readRanges peers s mentee startTs endTs
  validateParticipantSlot mentorSummary (participantBookings s mentor) startTs endTs mentorRanges
    (loadBlackouts s) policy.programId policy.maxSessionsPerDay
  validateParticipantSlot menteeSummary (participantBookings s mentee) startTs endTs menteeRanges
    (loadBlackouts s) policy.programId policy.maxSessionsPerDay
  pure endTs

end Checks

section EntryPoints

def initializeContract (env : Env contract) (s : State) (admin availability : Address) :
    Outcome State := do
  refuseIf (s.admin.isSome = true) (.err .alreadyInitialized)
  requireAuth env admin
  pure { s with admin := some admin, availability := some availability }

def setAvailabilityContract (env : Env contract) (s : State) (admin availability : Address) :
    Outcome State := do
  requireAdmin env s admin
  pure { s with availability := some availability }

/-- The version of a policy that replaces what is stored. -/
def nextPolicyVersion (s : State) (programId : Bytes32) : Outcome Nat :=
  match s.policy programId with
  | some existing => orRefuse (fitsU 32 (existing.version + 1)) (.err .versionOverflow)
  | none => pure 1

def setProgramPolicy (env : Env contract) (s : State) (admin : Address) (programId : Bytes32)
    (duration granularity maxSessions : Nat) : Outcome State := do
  requireAdmin env s admin
  if hsession : ValidSession duration granularity then do
    refuseIf (maxSessions = 0 ∨ maxSessionsPerDay < maxSessions) (.err .invalidSessionsPerDay)
    let version ← nextPolicyVersion s programId
    pure { s with policy := Function.update s.policy programId (some
      ⟨programId, duration, granularity, maxSessions, version, env.timestamp, hsession⟩) }
  else .error (.err .invalidSessionPolicy)

def setBlackout (env : Env contract) (s : State) (admin : Address) (id programId : Bytes32)
    (fromTs untilTs : Nat) : Outcome State := do
  requireAdmin env s admin
  refuseIf (fromTs = 0 ∨ untilTs ≤ fromTs) (.err .invalidBlackoutRange)
  refuseIf (maxBlackoutSpanSeconds < untilTs - fromTs) (.err .invalidBlackoutRange)
  refuseIf ((s.blackout id).isSome = true) (.err .blackoutAlreadyExists)
  refuseIf (maxBlackouts ≤ s.blackoutIds.length) (.err .tooManyBlackouts)
  pure { s with
    blackout := Function.update s.blackout id (some ⟨id, programId, fromTs, untilTs, env.timestamp⟩)
    blackoutIds := s.blackoutIds ++ [id] }

def removeBlackout (env : Env contract) (s : State) (admin : Address) (id : Bytes32) :
    Outcome State := do
  requireAdmin env s admin
  refuseIf (s.blackout id = none) (.err .blackoutNotFound)
  pure { s with
    blackout := Function.update s.blackout id none
    blackoutIds := s.blackoutIds.filter (· ≠ id) }

/-- Puts a booking id at the end of a participant's list. -/
def appendBookingId (s : State) (participant : Address) (id : Bytes32) : Outcome State := do
  refuseIf (maxBookingsPerParticipant ≤ (s.bookingIds participant).length)
    (.err .participantScheduleFull)
  pure { s with
    bookingIds := Function.update s.bookingIds participant (s.bookingIds participant ++ [id]) }

/-- A booking that is already stored: the same slot is a no-op, any other is refused. -/
def retryBooking (existing : Booking) (mentor mentee : Address) (programId : Bytes32)
    (startTs : Nat) : Outcome Nat :=
  if existing.state = .active ∧ existing.mentor = mentor ∧ existing.mentee = mentee ∧
      existing.programId = programId ∧ existing.startTs = startTs then pure existing.endTs
  else .error (.err .bookingAlreadyExists)

/-- The part of `bookSlot` that a new id reaches. -/
def newBooking (env : Env contract) (peers : Peers) (s : State) (bookingId : Bytes32)
    (mentor mentee : Address) (policy : ProgramPolicy) (programId : Bytes32) (startTs : Nat) :
    Outcome (Nat × State) := do
  requireAuth env mentor
  requireAuth env mentee
  let endTs ← validateSlot env peers s mentor mentee policy startTs
  let s := { s with booking := Function.update s.booking bookingId (some
    ⟨bookingId, mentor, mentee, programId, startTs, endTs, .active, env.timestamp⟩) }
  let s ← appendBookingId s mentor bookingId
  let s ← appendBookingId s mentee bookingId
  pure (endTs, s)

/-- Books a session for both participants; the slot is validated again at this moment. -/
def bookSlot (env : Env contract) (peers : Peers) (s : State) (caller : Address)
    (bookingId : Bytes32) (mentor mentee : Address) (programId : Bytes32) (startTs : Nat) :
    Outcome (Nat × State) := do
  refuseIf (caller ≠ mentor ∧ caller ≠ mentee) (.err .notAuthorized)
  refuseIf (mentor = mentee) (.err .invalidParties)
  refuseIf (bookingId = 0) (.err .invalidBookingId)
  let policy ← loadPolicy s programId
  match s.booking bookingId with
  | some existing => do
    let endTs ← retryBooking existing mentor mentee programId startTs
    pure (endTs, s)
  | none => newBooking env peers s bookingId mentor mentee policy programId startTs

def cancelBooking (env : Env contract) (s : State) (caller : Address) (bookingId : Bytes32) :
    Outcome State := do
  requireAuth env caller
  let booking ← orRefuse (s.booking bookingId) (.err .bookingNotFound)
  refuseIf (caller ≠ booking.mentor ∧ caller ≠ booking.mentee) (.err .notAuthorized)
  refuseIf (booking.state ≠ .active) (.err .bookingNotActive)
  pure { s with
    booking := Function.update s.booking bookingId (some { booking with state := .cancelled }) }

end EntryPoints

/-- The state-changing entry points. -/
inductive Call where
  | initializeContract (admin availability : Address)
  | setAvailabilityContract (admin availability : Address)
  | setProgramPolicy (admin : Address) (programId : Bytes32)
      (duration granularity maxSessions : Nat)
  | setBlackout (admin : Address) (id programId : Bytes32) (fromTs untilTs : Nat)
  | removeBlackout (admin : Address) (id : Bytes32)
  | bookSlot (caller : Address) (bookingId : Bytes32) (mentor mentee : Address)
      (programId : Bytes32) (startTs : Nat)
  | cancelBooking (caller : Address) (bookingId : Bytes32)
  deriving DecidableEq, Repr

/-- One invocation: what the host and the availability deployments say, and the call. -/
structure Input (contract : Address) where
  env : Env contract
  peers : Peers
  call : Call

/-- One entry point applied to the state; `book_slot` returns the end of the session. -/
def execute (env : Env contract) (peers : Peers) (s : State) : Call → Outcome (Option Nat × State)
  | .initializeContract admin availability =>
      (none, ·) <$> initializeContract env s admin availability
  | .setAvailabilityContract admin availability =>
      (none, ·) <$> setAvailabilityContract env s admin availability
  | .setProgramPolicy admin programId duration granularity maxSessions =>
      (none, ·) <$> setProgramPolicy env s admin programId duration granularity maxSessions
  | .setBlackout admin id programId fromTs untilTs =>
      (none, ·) <$> setBlackout env s admin id programId fromTs untilTs
  | .removeBlackout admin id => (none, ·) <$> removeBlackout env s admin id
  | .bookSlot caller bookingId mentor mentee programId startTs => do
      let (endTs, s) ← bookSlot env peers s caller bookingId mentor mentee programId startTs
      pure (some endTs, s)
  | .cancelBooking caller bookingId => (none, ·) <$> cancelBooking env s caller bookingId

def machine (contract : Address) :
    Machine State (Input contract) (Option Nat) (Abort ContractError) where
  step s i := execute i.env i.peers s i.call

/-- Availability of everybody at all times, with the given buffers. -/
def samplePeers (before after : Nat) : Peers := fun _ =>
  { availabilitySummary := fun p => some ⟨p, true, 1, 0, before, after, 30, 1, 0⟩
    availableRanges := fun _ fromTs untilTs page _ =>
      some (if page = 0 then [⟨fromTs, untilTs⟩] else []) }

def sampleEnv : Env ⟨0⟩ := .sample

/-- A call at time 10, under buffers of ten minutes before a session and none after it. -/
def sampleCall (call : Call) : Input ⟨0⟩ := ⟨sampleEnv, samplePeers 600 0, call⟩

/-- The admin `⟨4⟩` sets up half-hour sessions on a quarter-hour grid for program 1. -/
def sampleSetup : List (Input ⟨0⟩) :=
  [.initializeContract ⟨4⟩ ⟨7⟩, .setProgramPolicy ⟨4⟩ 1 1800 900 8].map sampleCall

/-- What the setup stores for program 1. -/
def samplePolicy : ProgramPolicy := ⟨1, 1800, 900, 8, 1, 10, by decide⟩

end ChainVerse.MentorshipSlots
