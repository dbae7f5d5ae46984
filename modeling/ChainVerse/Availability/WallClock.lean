import ChainVerse.Availability.Coverage
import ChainVerse.Availability.Ranges
import ChainVerse.Framework.Machine
import ChainVerse.Framework.Spans
import Mathlib.Data.List.MinMax

namespace ChainVerse.MentorshipAvailability

section Operations

def minutesPerDay : Nat := 1440
def maxWeeklyWindows : Nat := 28
def maxOffsetChanges : Nat := 8
def maxExceptions : Nat := 64
def maxExceptionSpanSeconds : Nat := 31 * secondsPerDay
def maxLeadTimeSeconds : Nat := 30 * secondsPerDay
def maxBufferSeconds : Nat := secondsPerDay
def maxBookingHorizonDays : Nat := 365

/-- What a participant asks `setSchedule` for. -/
structure ScheduleInput where
  timezoneHash : Bytes32
  utcOffsetSeconds : Int
  offsetChanges : List OffsetChange
  weekly : List WeeklyWindow
  leadTimeSeconds : Nat
  bufferBeforeSeconds : Nat
  bufferAfterSeconds : Nat
  bookingHorizonDays : Nat
  effectiveFrom : Nat
  effectiveUntil : Nat
  deriving DecidableEq, Repr

structure ExceptionInput where
  id : Bytes32
  kind : ExceptionKind
  fromTs : Nat
  untilTs : Nat
  referenceHash : Bytes32
  deriving DecidableEq, Repr

variable {contract : Address}

section Validation

/-- The offsets between UTC-12:00 and UTC+14:00. -/
def ValidOffset (offset : Int) : Prop :=
  minUtcOffsetSeconds ≤ offset ∧ offset ≤ maxUtcOffsetSeconds

instance decidableValidOffset (offset : Int) : Decidable (ValidOffset offset) :=
  inferInstanceAs (Decidable (_ ∧ _))

def validateOffset (offset : Int) : Outcome Unit :=
  refuseIf (¬ ValidOffset offset) (.err .invalidOffset)

/-- The loop over the offset changes: each comes later than the one before and changes the offset.
-/
def validateChanges : Nat → Int → List OffsetChange → Outcome Unit
  | _, _, [] => pure ()
  | previousFrom, previousOffset, change :: changes => do
    refuseIf (change.effectiveFrom = 0 ∨ change.effectiveFrom ≤ previousFrom)
      (.err .invalidOffsetChange)
    validateOffset change.utcOffsetSeconds
    refuseIf (change.utcOffsetSeconds = previousOffset) (.err .invalidOffsetChange)
    validateChanges change.effectiveFrom change.utcOffsetSeconds changes

/-- A window of one weekday, within its minutes. -/
def ValidWindow (window : WeeklyWindow) : Prop :=
  window.weekday ≤ 6 ∧ window.startMinute < window.endMinute ∧
    window.startMinute < minutesPerDay ∧ window.endMinute ≤ minutesPerDay

instance decidableValidWindow (window : WeeklyWindow) : Decidable (ValidWindow window) :=
  inferInstanceAs (Decidable (_ ∧ _ ∧ _ ∧ _))

/-- A window that comes before another one in the order of the week. -/
def before (window previous : WeeklyWindow) : Bool :=
  window.weekday < previous.weekday ∨
    window.weekday = previous.weekday ∧ window.startMinute < previous.startMinute

/-- Folds one window into the normalized ones: it extends the last one of its weekday or is added.
-/
def pushWindow (normalized : List WeeklyWindow) (window : WeeklyWindow) : List WeeklyWindow :=
  match normalized.getLast? with
  | some last =>
    if last.weekday = window.weekday ∧ window.startMinute ≤ last.endMinute then
      normalized.dropLast ++ [⟨last.weekday, last.startMinute,
        if last.endMinute < window.endMinute then window.endMinute else last.endMinute⟩]
    else normalized ++ [window]
  | none => normalized ++ [window]

/-- The loop of `normalizeWindows`, after the window `previous`. -/
def normalizeFrom : Option WeeklyWindow → List WeeklyWindow → List WeeklyWindow →
    Outcome (List WeeklyWindow)
  | _, normalized, [] => pure normalized
  | previous, normalized, window :: windows => do
    refuseIf (¬ ValidWindow window) (.err .invalidWeeklyWindow)
    refuseIf (previous.any (before window) = true) (.err .windowsNotOrdered)
    normalizeFrom (some window) (pushWindow normalized window) windows

/-- The windows of a week, with those that overlap or touch merged. -/
def normalizeWindows (windows : List WeeklyWindow) : Outcome (List WeeklyWindow) := do
  refuseIf (windows.length = 0) (.err .invalidWeeklyWindow)
  refuseIf (maxWeeklyWindows < windows.length) (.err .tooManyWindows)
  normalizeFrom none [] windows

end Validation

section EntryPoints

/-- The version of a schedule that replaces what is stored. -/
def nextVersion (s : State) (participant : Address) : Outcome Nat :=
  match s.schedule participant with
  | some existing => orRefuse (fitsU 32 (existing.version + 1)) (.err .versionOverflow)
  | none => pure 1

def putSchedule (s : State) (schedule : AvailabilitySchedule) : State :=
  { s with schedule := Function.update s.schedule schedule.participant (some schedule) }

/-- Replaces the caller's schedule by the normalized input. -/
def setSchedule (env : Env contract) (s : State) (participant : Address) (input : ScheduleInput) :
    Outcome (AvailabilitySchedule × State) := do
  requireAuth env participant
  refuseIf (input.timezoneHash = 0) (.err .invalidTimezoneRef)
  validateOffset input.utcOffsetSeconds
  refuseIf (maxOffsetChanges < input.offsetChanges.length) (.err .tooManyOffsetChanges)
  validateChanges 0 input.utcOffsetSeconds input.offsetChanges
  let weekly ← normalizeWindows input.weekly
  refuseIf (maxLeadTimeSeconds < input.leadTimeSeconds) (.err .invalidLeadTime)
  refuseIf (maxBufferSeconds < input.bufferBeforeSeconds ∨
    maxBufferSeconds < input.bufferAfterSeconds) (.err .invalidBuffer)
  refuseIf (input.bookingHorizonDays = 0 ∨ maxBookingHorizonDays < input.bookingHorizonDays)
    (.err .invalidBookingHorizon)
  refuseIf (input.effectiveFrom = 0 ∨
    input.effectiveUntil ≠ 0 ∧ input.effectiveUntil ≤ input.effectiveFrom)
    (.err .invalidEffectiveRange)
  let version ← nextVersion s participant
  let schedule : AvailabilitySchedule := ⟨participant, input.timezoneHash, input.utcOffsetSeconds,
    input.offsetChanges, weekly, input.leadTimeSeconds, input.bufferBeforeSeconds,
    input.bufferAfterSeconds, input.bookingHorizonDays, input.effectiveFrom, input.effectiveUntil,
    true, version, env.timestamp⟩
  pure (schedule, putSchedule s schedule)

def setEnabled (env : Env contract) (s : State) (participant : Address) (enabled : Bool) :
    Outcome State := do
  requireAuth env participant
  let schedule ← loadSchedule s participant
  if schedule.enabled = enabled then pure s
  else do
    let version ← orRefuse (fitsU 32 (schedule.version + 1)) (.err .versionOverflow)
    pure (putSchedule s
      { schedule with enabled := enabled, version := version, updatedAt := env.timestamp })

/-- Stores an exception under its caller's id; the range is checked before anything is stored. -/
def addException (env : Env contract) (s : State) (participant : Address)
    (input : ExceptionInput) : Outcome State := do
  requireAuth env participant
  if hrange : input.fromTs ≠ 0 ∧ input.fromTs < input.untilTs then do
    refuseIf (maxExceptionSpanSeconds < input.untilTs - input.fromTs)
      (.err .exceptionSpanTooLarge)
    refuseIf ((s.availabilityException participant input.id).isSome = true)
      (.err .exceptionAlreadyExists)
    refuseIf (maxExceptions ≤ (s.exceptionIds participant).length) (.err .tooManyExceptions)
    let exception : AvailabilityException := ⟨input.id, input.kind, input.fromTs, input.untilTs,
      input.referenceHash, env.timestamp, hrange.2⟩
    pure { s with
      availabilityException := Function.update s.availabilityException participant
        (Function.update (s.availabilityException participant) input.id (some exception))
      exceptionIds := Function.update s.exceptionIds participant
        (s.exceptionIds participant ++ [input.id]) }
  else .error (.err .invalidExceptionRange)

def removeException (env : Env contract) (s : State) (participant : Address) (id : Bytes32) :
    Outcome State := do
  requireAuth env participant
  refuseIf ((s.availabilityException participant id).isSome = false) (.err .exceptionNotFound)
  pure { s with
    availabilityException := Function.update s.availabilityException participant
      (Function.update (s.availabilityException participant) id none)
    exceptionIds := Function.update s.exceptionIds participant
      ((s.exceptionIds participant).filter (· ≠ id)) }

end EntryPoints

/-- The state-changing entry points. -/
inductive Call where
  | setSchedule (participant : Address) (input : ScheduleInput)
  | setEnabled (participant : Address) (enabled : Bool)
  | addException (participant : Address) (input : ExceptionInput)
  | removeException (participant : Address) (id : Bytes32)
  deriving DecidableEq, Repr

structure Input (contract : Address) where
  env : Env contract
  call : Call

/-- One entry point applied to the state; `set_schedule` returns the stored schedule. -/
def execute (env : Env contract) (s : State) :
    Call → Outcome (Option AvailabilitySchedule × State)
  | .setSchedule participant input => do
      let (schedule, s) ← setSchedule env s participant input
      pure (some schedule, s)
  | .setEnabled participant enabled => (none, ·) <$> setEnabled env s participant enabled
  | .addException participant input => (none, ·) <$> addException env s participant input
  | .removeException participant id => (none, ·) <$> removeException env s participant id

def machine (contract : Address) :
    Machine State (Input contract) (Option AvailabilitySchedule) (Abort AvailabilityError) where
  step s i := execute i.env s i.call

end Operations

variable {schedule : AvailabilitySchedule} {localTs : Int} {t : Nat}

/-- The local time that the participant's clock shows at a UTC instant. -/
def wallClock (schedule : AvailabilitySchedule) (t : Nat) : Int := reading (offsetAt schedule) t

section Offsets

/-- The offsets that a schedule knows about. -/
def offsets (schedule : AvailabilitySchedule) : List Int :=
  schedule.utcOffsetSeconds :: schedule.offsetChanges.map (·.utcOffsetSeconds)

/-- Counted on from an offset, the changes leave it or set one of theirs. -/
theorem foldl_change_mem (changes : List OffsetChange) (offset : Int) :
    changes.foldl (fun _ change => change.utcOffsetSeconds) offset ∈
      offset :: changes.map (·.utcOffsetSeconds) := by
  induction changes generalizing offset with
  | nil => simp
  | cons change changes ih =>
    rw [List.foldl_cons, List.map_cons]
    exact List.mem_cons_of_mem _ (ih change.utcOffsetSeconds)

theorem offsetAt_mem (schedule : AvailabilitySchedule) (t : Nat) :
    offsetAt schedule t ∈ offsets schedule := by
  have hmem := foldl_change_mem
    (schedule.offsetChanges.takeWhile fun change => change.effectiveFrom ≤ t)
    schedule.utcOffsetSeconds
  rcases List.mem_cons.mp hmem with hbase | hchange
  · exact List.mem_cons.mpr (.inl hbase)
  · apply List.mem_cons_of_mem
    exact List.map_subset _ (List.takeWhile_subset _) hchange

theorem takeWhile_agree {p q : OffsetChange → Bool} {changes : List OffsetChange}
    (h : ∀ change ∈ changes, p change = q change) : changes.takeWhile p = changes.takeWhile q := by
  induction changes with
  | nil => rfl
  | cons change changes ih =>
    rw [List.takeWhile_cons, List.takeWhile_cons, h change List.mem_cons_self,
      ih fun c hc => h c (List.mem_cons_of_mem _ hc)]

/-- Between two instants that the same changes precede, the offset stays. -/
theorem offsetAt_steady {a : Nat} (hat : a ≤ t)
    (hnone : ∀ change ∈ schedule.offsetChanges, change.effectiveFrom ≤ a ∨
      t < change.effectiveFrom) : offsetAt schedule t = offsetAt schedule a := by
  have hsame : (schedule.offsetChanges.takeWhile fun change => change.effectiveFrom ≤ t) =
      schedule.offsetChanges.takeWhile fun change => change.effectiveFrom ≤ a := by
    apply takeWhile_agree
    intro change hchange
    have := hnone change hchange
    simp only [decide_eq_decide]
    omega
  unfold offsetAt
  rw [hsame]

/-- A change has come into effect by an instant, and no later one has. -/
def InEffect (schedule : AvailabilitySchedule) (change : OffsetChange) (t : Nat) : Prop :=
  change ∈ schedule.offsetChanges ∧ change.effectiveFrom ≤ t ∧
    ∀ later ∈ schedule.offsetChanges, later.effectiveFrom ≤ t →
      later.effectiveFrom ≤ change.effectiveFrom

theorem foldl_takeWhile_latest {changes : List OffsetChange} {change : OffsetChange} {offset : Int}
    (hsorted : changes.Pairwise fun c c' => c.effectiveFrom < c'.effectiveFrom)
    (hmem : change ∈ changes) (hstarted : change.effectiveFrom ≤ t)
    (hlatest : ∀ later ∈ changes, later.effectiveFrom ≤ t →
      later.effectiveFrom ≤ change.effectiveFrom) :
    (changes.takeWhile fun change => change.effectiveFrom ≤ t).foldl
      (fun _ change => change.utcOffsetSeconds) offset = change.utcOffsetSeconds := by
  induction changes generalizing offset with
  | nil => cases hmem
  | cons head changes ih =>
    have hlater : ∀ c ∈ changes, head.effectiveFrom < c.effectiveFrom :=
      fun c hc => List.rel_of_pairwise_cons hsorted hc
    rcases List.mem_cons.mp hmem with heq | hmem
    · subst heq
      have hrest : (changes.takeWhile fun c => decide (c.effectiveFrom ≤ t)) = [] := by
        cases changes with
        | nil => rfl
        | cons next rest =>
          have hnext := hlater next List.mem_cons_self
          have hnot := hlatest next (List.mem_cons_of_mem _ List.mem_cons_self)
          apply List.takeWhile_cons_of_neg
          simp only [decide_eq_true_eq]
          omega
      rw [List.takeWhile_cons, if_pos (by simpa using hstarted), hrest]
      rfl
    · have hhead : head.effectiveFrom ≤ t := (hlater change hmem).le.trans hstarted
      rw [List.takeWhile_cons, if_pos (by simpa using hhead), List.foldl_cons]
      exact ih hsorted.of_cons hmem fun later hc => hlatest later (List.mem_cons_of_mem _ hc)

theorem offsetAt_inEffect {change : OffsetChange}
    (hsorted : schedule.offsetChanges.Pairwise fun c c' => c.effectiveFrom < c'.effectiveFrom)
    (h : InEffect schedule change t) : offsetAt schedule t = change.utcOffsetSeconds :=
  foldl_takeWhile_latest hsorted h.1 h.2.1 h.2.2

/-- Of the changes that have come into effect by an instant, one is the latest. -/
theorem exists_inEffect {change : OffsetChange} (hmem : change ∈ schedule.offsetChanges)
    (hstarted : change.effectiveFrom ≤ t) :
    ∃ latest, InEffect schedule latest t ∧ change.effectiveFrom ≤ latest.effectiveFrom := by
  have hin : change ∈ schedule.offsetChanges.filter fun c => c.effectiveFrom ≤ t := by
    rw [List.mem_filter, decide_eq_true_eq]
    exact ⟨hmem, hstarted⟩
  rcases hmax : (schedule.offsetChanges.filter fun c => c.effectiveFrom ≤ t).argmax
    (·.effectiveFrom) with _ | latest
  · rw [List.argmax_eq_none.mp hmax] at hin
    cases hin
  · have hlatest := List.argmax_mem hmax
    rw [List.mem_filter, decide_eq_true_eq] at hlatest
    refine ⟨latest, ⟨hlatest.1, hlatest.2, ?_⟩, List.le_of_mem_argmax hin hmax⟩
    intro later hlater hle
    apply List.le_of_mem_argmax (m := latest) _ hmax
    rw [List.mem_filter, decide_eq_true_eq]
    exact ⟨hlater, hle⟩

end Offsets

section Conversion

/-- One candidate adds the instant that shows the local time under its offset. -/
theorem localCandidate_spec {best result : Option Nat} {candidate : Int} {found : Set Nat}
    (h : localCandidate schedule localTs best candidate = .ok result)
    (hbest : LeastOf found best) :
    LeastOf (found ∪ {u | wallClock schedule u = localTs ∧ offsetAt schedule u = candidate})
      result := by
  simp only [localCandidate, bind_eq_ok, orRefuse_eq_ok, fitsI64_eq_some] at h
  obtain ⟨utc, ⟨_, rfl⟩, h⟩ := h
  have hshows : ∀ u, wallClock schedule u = localTs ∧ offsetAt schedule u = candidate ↔
      u + candidate = localTs ∧ offsetAt schedule u = candidate := by
    intro u
    refine and_congr_left fun hoffset => ?_
    rw [wallClock, reading, hoffset]
  split_ifs at h with hskip
  · have hnone : {u | wallClock schedule u = localTs ∧ offsetAt schedule u = candidate} = ∅ := by
      ext u
      simp only [Set.mem_ofPred_eq, hshows, Set.mem_empty_iff_false, iff_false]
      intro hshown
      obtain ⟨hu, hoffset⟩ := hshown
      have hutc : localTs - candidate = u := by omega
      rw [hutc, Int.toNat_natCast] at hskip
      rcases hskip with hneg | hother
      · omega
      · exact hother hoffset
    rw [hnone, Set.union_empty, ← pure_eq_ok.mp h]
    exact hbest
  · obtain ⟨hpos, hoffset⟩ := not_or.mp hskip
    rw [not_not] at hoffset
    have hone : {u | wallClock schedule u = localTs ∧ offsetAt schedule u = candidate} =
        {(localTs - candidate).toNat} := by
      ext u
      simp only [Set.mem_ofPred_eq, hshows, Set.mem_singleton_iff]
      constructor
      · intro hshown
        have hu := hshown.1
        omega
      · intro hu
        rw [hu]
        exact ⟨by omega, hoffset⟩
    rw [hone, ← pure_eq_ok.mp h]
    exact hbest.insert _

theorem foldlM_localCandidate_spec {candidates : List Int} {best result : Option Nat}
    {found : Set Nat} (h : candidates.foldlM (localCandidate schedule localTs) best = .ok result)
    (hbest : LeastOf found best) :
    LeastOf (found ∪ {u | wallClock schedule u = localTs ∧ offsetAt schedule u ∈ candidates})
      result := by
  induction candidates generalizing best found with
  | nil =>
    rw [List.foldlM_nil, pure_eq_ok] at h
    simpa [← h] using hbest
  | cons candidate candidates ih =>
    rw [List.foldlM_cons, bind_eq_ok] at h
    obtain ⟨best', hstep, hrest⟩ := h
    have hall := ih hrest (localCandidate_spec hstep hbest)
    have hsplit : found ∪
        {u | wallClock schedule u = localTs ∧ offsetAt schedule u ∈ candidate :: candidates} =
        found ∪ {u | wallClock schedule u = localTs ∧ offsetAt schedule u = candidate} ∪
          {u | wallClock schedule u = localTs ∧ offsetAt schedule u ∈ candidates} := by
      ext u
      simp only [Set.mem_union, Set.mem_ofPred_eq, List.mem_cons]
      tauto
    rwa [hsplit]

/-- The conversion finds the first instant that shows a local time. -/
theorem localToUtc_spec {result : Option Nat} (h : localToUtc schedule localTs = .ok result)
    (hpos : 0 ≤ localTs) : LeastOf {u | wallClock schedule u = localTs} result := by
  unfold localToUtc at h
  rw [if_neg (not_lt.mpr hpos)] at h
  have hall := foldlM_localCandidate_spec h leastOf_empty
  have hknown : {u | wallClock schedule u = localTs ∧ offsetAt schedule u ∈ offsets schedule} =
      {u | wallClock schedule u = localTs} := by
    ext u
    simp only [Set.mem_ofPred_eq, offsetAt_mem, and_true]
  rw [Set.empty_union] at hall
  rwa [← hknown]

theorem localToUtc_some {utc : Nat} (h : localToUtc schedule localTs = .ok (some utc)) :
    0 ≤ localTs ∧ FirstShows (offsetAt schedule) localTs utc := by
  by_cases hneg : localTs < 0
  · simp [localToUtc, hneg] at h
  · have hpos := not_lt.mp hneg
    exact ⟨hpos, localToUtc_spec h hpos⟩

theorem localToUtc_shown {utc : Nat} {result : Option Nat}
    (h : localToUtc schedule localTs = .ok result) (hpos : 0 ≤ localTs)
    (hshown : FirstShows (offsetAt schedule) localTs utc) : result = some utc := by
  have hleast := localToUtc_spec h hpos
  cases result with
  | none =>
    have hempty : {u | wallClock schedule u = localTs} = ∅ := hleast
    have hin : utc ∈ {u | wallClock schedule u = localTs} := hshown.1
    rw [hempty] at hin
    exact absurd hin (Set.notMem_empty utc)
  | some found =>
    have hfirst : FirstShows (offsetAt schedule) localTs found := hleast
    rw [hfirst.unique hshown]

end Conversion

end ChainVerse.MentorshipAvailability
