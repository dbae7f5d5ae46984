import ChainVerse.Host.Environment
import Mathlib.Logic.Function.Basic

namespace ChainVerse.MentorshipAvailability

section Types

def secondsPerDay : Nat := 86400
def secondsPerMinute : Nat := 60
def maxQuerySpanSeconds : Nat := 90 * secondsPerDay
def maxPageSize : Nat := 64
def maxPage : Nat := 4096
def minUtcOffsetSeconds : Int := -12 * 3600
def maxUtcOffsetSeconds : Int := 14 * 3600
def epochWeekdayOffset : Int := 4

inductive AvailabilityError where
  | scheduleNotFound
  | invalidWeeklyWindow
  | tooManyWindows
  | windowsNotOrdered
  | invalidEffectiveRange
  | invalidLeadTime
  | invalidBuffer
  | invalidBookingHorizon
  | tooManyOffsetChanges
  | invalidOffsetChange
  | invalidOffset
  | tooManyExceptions
  | exceptionAlreadyExists
  | exceptionNotFound
  | invalidExceptionRange
  | exceptionSpanTooLarge
  | invalidQueryRange
  | querySpanTooLarge
  | invalidPage
  | versionOverflow
  | invalidTimezoneRef
  deriving DecidableEq, Repr

abbrev Outcome (α : Type) := Except (Abort AvailabilityError) α

/-- One recurring window in the participant's local wall clock; weekday 0 is Sunday. -/
structure WeeklyWindow where
  weekday : Nat
  startMinute : Nat
  endMinute : Nat
  deriving DecidableEq, Repr

structure OffsetChange where
  effectiveFrom : Nat
  utcOffsetSeconds : Int
  deriving DecidableEq, Repr

structure AvailabilitySchedule where
  participant : Address
  timezoneHash : Bytes32
  utcOffsetSeconds : Int
  offsetChanges : List OffsetChange
  weekly : List WeeklyWindow
  leadTimeSeconds : Nat
  bufferBeforeSeconds : Nat
  bufferAfterSeconds : Nat
  bookingHorizonDays : Nat
  effectiveFrom : Nat
  /-- Zero is open-ended. -/
  effectiveUntil : Nat
  enabled : Bool
  version : Nat
  updatedAt : Nat
  deriving DecidableEq, Repr

inductive ExceptionKind where
  | unavailable
  | available
  deriving DecidableEq, Repr

/-- A stored exception; `add_exception` refuses an empty range. -/
structure AvailabilityException where
  id : Bytes32
  kind : ExceptionKind
  fromTs : Nat
  untilTs : Nat
  referenceHash : Bytes32
  createdAt : Nat
  nonempty : fromTs < untilTs

/-- A materialized UTC range `startTs ≤ t < endTs`. -/
structure AvailableRange where
  startTs : Nat
  endTs : Nat
  deriving DecidableEq, Repr

structure AvailabilitySummary where
  participant : Address
  enabled : Bool
  version : Nat
  leadTimeSeconds : Nat
  bufferBeforeSeconds : Nat
  bufferAfterSeconds : Nat
  bookingHorizonDays : Nat
  effectiveFrom : Nat
  effectiveUntil : Nat
  deriving DecidableEq, Repr

structure State where
  schedule : Address → Option AvailabilitySchedule
  exceptionIds : Address → List Bytes32
  availabilityException : Address → Bytes32 → Option AvailabilityException

def State.empty : State where
  schedule := fun _ => none
  exceptionIds := fun _ => []
  availabilityException := fun _ _ => none

def loadSchedule (s : State) (participant : Address) : Outcome AvailabilitySchedule :=
  orRefuse (s.schedule participant) (.err .scheduleNotFound)

def loadExceptions (s : State) (participant : Address) : List AvailabilityException :=
  (s.exceptionIds participant).filterMap (s.availabilityException participant)

end Types

section LocalTime

/-- The offset in effect at a UTC instant. -/
def offsetAt (schedule : AvailabilitySchedule) (ts : Nat) : Int :=
  (schedule.offsetChanges.takeWhile fun change => change.effectiveFrom ≤ ts).foldl
    (fun _ change => change.utcOffsetSeconds) schedule.utcOffsetSeconds

/-- The candidate of one offset: kept when that offset is in effect at the resulting instant. -/
def localCandidate (schedule : AvailabilitySchedule) (localTs : Int) (best : Option Nat)
    (candidate : Int) : Outcome (Option Nat) := do
  let utc ← orRefuse (fitsI64 (localTs - candidate)) .overflow
  if utc < 0 ∨ offsetAt schedule utc.toNat ≠ candidate then pure best
  else pure (some (best.elim utc.toNat (min utc.toNat)))

/-- The earliest UTC instant of a local one; `none` for an hour that clocks skip. -/
def localToUtc (schedule : AvailabilitySchedule) (localTs : Int) : Outcome (Option Nat) :=
  if localTs < 0 then pure none
  else (schedule.utcOffsetSeconds :: schedule.offsetChanges.map (·.utcOffsetSeconds)).foldlM
    (localCandidate schedule localTs) none

def clip (startTs endTs lower upper : Nat) : Option AvailableRange :=
  if min endTs upper ≤ max startTs lower then none
  else some ⟨max startTs lower, min endTs upper⟩

/-- The part of a window of one local day that falls into a UTC day. -/
def windowRange (schedule : AvailabilitySchedule) (dayStart dayEnd : Nat) (localDay : Int)
    (window : WeeklyWindow) : Outcome (Option AvailableRange) := do
  let localStart ← orRefuse (fitsI64 (localDay + window.startMinute * secondsPerMinute)) .overflow
  let localEnd ← orRefuse (fitsI64 (localDay + window.endMinute * secondsPerMinute)) .overflow
  match ← localToUtc schedule localStart with
  | none => pure none
  | some utcStart =>
    match ← localToUtc schedule localEnd with
    | none => pure none
    | some utcEnd => pure (clip utcStart utcEnd dayStart dayEnd)

/-- The weekday of a local day as the code computes it, with `%` and `as u32`. -/
def weekdayOf (localDay : Int) : Nat :=
  ((localDay / secondsPerDay + epochWeekdayOffset).tmod 7 % 2^32).toNat

/-- One pass of the loop over local days, with the step to the next day. -/
def localDayRanges (schedule : AvailabilitySchedule) (dayStart dayEnd : Nat) (localDay : Int) :
    Outcome (List AvailableRange) := do
  let windows := schedule.weekly.filter fun window => window.weekday = weekdayOf localDay
  let found ← windows.mapM (windowRange schedule dayStart dayEnd localDay)
  let _ ← orRefuse (fitsI64 (localDay + secondsPerDay)) .overflow
  pure found.reduceOption

/-- The weekly windows of every local day that can map into a UTC day. -/
def weeklyRanges (schedule : AvailabilitySchedule) (dayStart dayEnd : Nat) :
    Outcome (List AvailableRange) := do
  let localMin ← orRefuse (fitsI64 (Int.bmod dayStart (2^64) + minUtcOffsetSeconds)) .overflow
  let localMax ← orRefuse (fitsI64 (Int.bmod dayEnd (2^64) + maxUtcOffsetSeconds)) .overflow
  let firstLocalDay ← orRefuse (fitsI64 (localMin / secondsPerDay * secondsPerDay)) .overflow
  let beforeMax ← orRefuse (fitsI64 (localMax - 1)) .overflow
  let lastLocalDay ← orRefuse (fitsI64 (beforeMax / secondsPerDay * secondsPerDay)) .overflow
  let count := ((lastLocalDay - firstLocalDay) / secondsPerDay + 1).toNat
  let found ← (List.range count).mapM fun (k : Nat) =>
    localDayRanges schedule dayStart dayEnd (firstLocalDay + (k * secondsPerDay : Nat))
  pure found.flatten

end LocalTime

section Days

/-- The candidates of one UTC day before they are clipped to the query: weekly windows, then extra
availability. -/
def dayRanges (schedule : AvailabilitySchedule) (exceptions : List AvailabilityException)
    (day : Nat) : Outcome (List AvailableRange) := do
  let dayStart := day * secondsPerDay
  let dayEnd ← orRefuse (fitsU 64 (dayStart + secondsPerDay)) .overflow
  let weekly ← weeklyRanges schedule dayStart dayEnd
  let extra := (exceptions.filter fun exception => exception.kind = .available).filterMap
    fun exception => clip exception.fromTs exception.untilTs dayStart dayEnd
  pure (weekly ++ extra)

/-- The inner scan of the selection sort: the index of the first least start below `bound`. -/
def leastBelow (bound : Nat) : List AvailableRange → Option Nat
  | [] => none
  | range :: ranges =>
    if range.startTs < bound then some ((leastBelow range.startTs ranges).elim 0 (· + 1))
    else (leastBelow bound ranges).map (· + 1)

/-- Selection sort by start: each position is swapped with the least later one. -/
def selectionSort : Nat → List AvailableRange → List AvailableRange
  | count + 1, range :: ranges =>
    match leastBelow range.startTs ranges with
    | none => range :: selectionSort count ranges
    | some index =>
      ranges.getD index range :: selectionSort count (ranges.set index range)
  | _, ranges => ranges

/-- Folds one candidate into the merged ranges: it extends the last one or starts a new one. -/
def pushRange (merged : List AvailableRange) (candidate : AvailableRange) : List AvailableRange :=
  match merged.getLast? with
  | some last =>
    if candidate.startTs ≤ last.endTs then
      if last.endTs < candidate.endTs then
        merged.dropLast ++ [⟨last.startTs, candidate.endTs⟩]
      else merged
    else merged ++ [candidate]
  | none => merged ++ [candidate]

def mergeDay (merged candidates : List AvailableRange) : List AvailableRange :=
  (selectionSort candidates.length candidates).foldl pushRange merged

/-- What an unavailable exception leaves of a segment. -/
def cutSegment (blackout : AvailabilityException) (segment : AvailableRange) :
    List AvailableRange :=
  if blackout.untilTs ≤ segment.startTs ∨ segment.endTs ≤ blackout.fromTs then [segment]
  else
    (if segment.startTs < blackout.fromTs then [⟨segment.startTs, blackout.fromTs⟩] else []) ++
    (if blackout.untilTs < segment.endTs then [⟨blackout.untilTs, segment.endTs⟩] else [])

def subtractBlocked (blocked : List AvailabilityException) (merged : List AvailableRange) :
    List AvailableRange :=
  if blocked = [] then merged
  else merged.flatMap fun range =>
    blocked.foldl (fun segments blackout => segments.flatMap (cutSegment blackout)) [range]

def isBlocking (exception : AvailabilityException) : Bool := exception.kind = .unavailable

/-- Sorted, merged UTC ranges for `startTs ≤ t < endTs`; callers ask for a nonempty interval. -/
def computeRanges (schedule : AvailabilitySchedule) (exceptions : List AvailabilityException)
    (startTs endTs : Nat) : Outcome (List AvailableRange) := do
  let firstDay := startTs / secondsPerDay
  let lastDay := (endTs - 1) / secondsPerDay
  let days ← (List.range' firstDay (lastDay + 1 - firstDay)).mapM (dayRanges schedule exceptions)
  let merged := days.foldl (fun merged candidates => mergeDay merged
    (candidates.filterMap fun range => clip range.startTs range.endTs startTs endTs)) []
  pure (subtractBlocked (exceptions.filter isBlocking) merged)

end Days

section Queries

/-- Clamps a query to the effective range, the lead time and the booking horizon. -/
def bookableWindow (now : Nat) (schedule : AvailabilitySchedule) (fromTs untilTs : Nat) :
    Option (Nat × Nat) :=
  if schedule.enabled = false then none
  else
    let earliest := saturatingAdd now schedule.leadTimeSeconds
    let horizonEnd :=
      saturatingAdd now (min (schedule.bookingHorizonDays * secondsPerDay) (2^64 - 1))
    let startTs := max (max fromTs schedule.effectiveFrom) earliest
    let endTs := min untilTs horizonEnd
    let endTs := if schedule.effectiveUntil ≠ 0 then min endTs schedule.effectiveUntil else endTs
    if endTs ≤ startTs then none else some (startTs, endTs)

/-- All the ranges of a query, before they are paged. -/
def queryRanges (now : Nat) (s : State) (participant : Address) (fromTs untilTs : Nat) :
    Outcome (List AvailableRange) := do
  let schedule ← loadSchedule s participant
  match bookableWindow now schedule fromTs untilTs with
  | none => pure []
  | some (startTs, endTs) => computeRanges schedule (loadExceptions s participant) startTs endTs

def availableRanges (now : Nat) (s : State) (participant : Address)
    (fromTs untilTs page limit : Nat) : Outcome (List AvailableRange) := do
  refuseIf (untilTs ≤ fromTs) (.err .invalidQueryRange)
  refuseIf (maxQuerySpanSeconds < untilTs - fromTs) (.err .querySpanTooLarge)
  refuseIf (limit = 0 ∨ maxPageSize < limit ∨ maxPage < page) (.err .invalidPage)
  let ranges ← queryRanges now s participant fromTs untilTs
  pure ((ranges.drop (page * limit)).take limit)

def availabilitySummary (s : State) (participant : Address) : Outcome AvailabilitySummary := do
  let schedule ← loadSchedule s participant
  pure ⟨schedule.participant, schedule.enabled, schedule.version, schedule.leadTimeSeconds,
    schedule.bufferBeforeSeconds, schedule.bufferAfterSeconds, schedule.bookingHorizonDays,
    schedule.effectiveFrom, schedule.effectiveUntil⟩

end Queries

end ChainVerse.MentorshipAvailability
