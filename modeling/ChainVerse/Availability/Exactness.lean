import ChainVerse.Availability.Occurrences

namespace ChainVerse.MentorshipAvailability

variable {contract : Address} {env : Env contract} {s s' : State} {participant : Address}
  {input : ScheduleInput} {schedule : AvailabilitySchedule}
  {exceptions : List AvailabilityException} {startTs endTs t : Nat} {ranges : List AvailableRange}

section Samples

/-- A schedule at UTC+01:00, stored at time 10. -/
def sampleInput (offsetChanges : List OffsetChange) (weekly : List WeeklyWindow) : ScheduleInput :=
  ⟨1, 3600, offsetChanges, weekly, 0, 0, 0, 30, 1, 0⟩

def sampleSchedule (offsetChanges : List OffsetChange) (weekly : List WeeklyWindow) :
    AvailabilitySchedule :=
  ⟨⟨1⟩, 1, 3600, offsetChanges, weekly, 0, 0, 0, 30, 1, 0, true, 1, 10⟩

/-- The clock goes back from 02:00 to 01:00 on Sunday the 4th of January 1970. -/
def sampleChange : OffsetChange := ⟨262800, 0⟩

def sampleChanging : AvailabilitySchedule := sampleSchedule [sampleChange] [⟨0, 90, 150⟩]

/-- Windows that fill the week. -/
def wholeWeek : List WeeklyWindow :=
  [⟨0, 0, 1440⟩, ⟨1, 0, 1440⟩, ⟨2, 0, 1440⟩, ⟨3, 0, 1440⟩, ⟨4, 0, 1440⟩, ⟨5, 0, 1440⟩, ⟨6, 0, 1440⟩]

theorem sampleChanging_set :
    setSchedule Env.sample State.empty ⟨1⟩ (sampleInput [sampleChange] [⟨0, 90, 150⟩]) =
      .ok (sampleChanging, putSchedule State.empty sampleChanging) := rfl

theorem sampleChanging_ranges :
    computeRanges sampleChanging [] 259200 345600 = .ok [⟨261000, 268200⟩] := by decide +kernel

theorem wholeWeek_set :
    setSchedule Env.sample State.empty ⟨1⟩ (sampleInput [] wholeWeek) =
      .ok (sampleSchedule [] wholeWeek,
        putSchedule State.empty (sampleSchedule [] wholeWeek)) := rfl

/-- From `2^63` on the bounds of a day wrap around and no weekly window is found. -/
theorem wholeWeek_ranges :
    computeRanges (sampleSchedule [] wholeWeek) [] 9223372036854892800 9223372036854979200 =
      .ok [] := by decide +kernel

def sampleExtra : AvailabilityException := ⟨7, .available, 270000, 280000, 0, 10, by decide⟩
def sampleBlackout : AvailabilityException := ⟨8, .unavailable, 275000, 276000, 0, 10, by decide⟩

end Samples

section Ranges

/-- The ranges of a query are nonempty, in ascending order with gaps, and inside the query; they
avoid every blackout and contain the extra availability that no blackout takes back. -/
theorem computeRanges_wellFormed
    (h : computeRanges schedule exceptions startTs endTs = .ok ranges) :
    (∀ range ∈ ranges, range.startTs < range.endTs) ∧
    (ranges.Pairwise fun range later => range.endTs < later.startTs) ∧
    (∀ range ∈ ranges, startTs ≤ range.startTs ∧ range.endTs ≤ endTs) ∧
    (∀ range ∈ ranges, ∀ t, range.startTs ≤ t → t < range.endTs →
      ¬ Excepted .unavailable exceptions t) ∧
    ∀ t, startTs ≤ t → t < endTs → Excepted .available exceptions t →
      ¬ Excepted .unavailable exceptions t →
      ∃ range ∈ ranges, range.startTs ≤ t ∧ t < range.endTs := by
  obtain ⟨hdisjoined, hpoints⟩ := computeRanges_spec h
  refine ⟨hdisjoined.nonempty, hdisjoined.apart, ?_, ?_, ?_⟩
  · intro range hrange
    apply hdisjoined.inside _ hrange
    intro t ht
    have hin : t ∈ points ranges := ht
    rw [hpoints] at hin
    exact ⟨hin.1, hin.2.1⟩
  · intro range hrange t hlow hhigh
    have hin : t ∈ points ranges := ⟨range, hrange, hlow, hhigh⟩
    rw [hpoints] at hin
    exact not_excepted_iff.mpr hin.2.2.2
  · intro t hlow hhigh hextra hblocked
    exact extra_computeRanges h hlow hhigh hblocked hextra

theorem computeRanges_wellFormed_sample :
    computeRanges sampleChanging [sampleExtra, sampleBlackout] 259200 345600 =
      .ok [⟨261000, 268200⟩, ⟨270000, 275000⟩, ⟨276000, 280000⟩] ∧
    ∀ t, 270000 ≤ t → t < 275000 → ¬ Excepted .unavailable [sampleExtra, sampleBlackout] t := by
  have h : computeRanges sampleChanging [sampleExtra, sampleBlackout] 259200 345600 =
      .ok [⟨261000, 268200⟩, ⟨270000, 275000⟩, ⟨276000, 280000⟩] := by decide +kernel
  exact ⟨h, (computeRanges_wellFormed h).2.2.2.1 ⟨270000, 275000⟩ (by decide)⟩

end Ranges

section FixedOffset

/-- While the offset stays as it was at the first instant of a window, the clock shows times inside
the window. -/
theorem Occurrence.steady {day : Nat} {window : WeeklyWindow} {utcStart utcEnd : Nat}
    (h : Occurrence schedule day window utcStart utcEnd) (hvalid : ValidWindow window)
    (hlow : utcStart ≤ t) (hhigh : t < utcEnd)
    (hsteady : ∀ u, utcStart ≤ u → u ≤ t → offsetAt schedule u = offsetAt schedule utcStart) :
    InWindow (wallClock schedule t) window := by
  have hminutes : window.startMinute < window.endMinute := hvalid.2.1
  have hordered : opens day window ≤ closes day window := by
    unfold opens closes secondsPerMinute
    omega
  obtain ⟨hfrom, hbefore⟩ := reading_within h.opening h.closing hordered hlow hhigh hsteady
  have hpos := opens_nonneg day window
  exact (inWindow_iff hvalid (hpos.trans hfrom)).mpr ⟨day, h.weekday, hfrom, hbefore⟩

theorem offsetAt_fixed (hfixed : schedule.offsetChanges = []) (u : Nat) :
    offsetAt schedule u = schedule.utcOffsetSeconds := by
  rw [offsetAt, hfixed]
  rfl

/-- With a fixed offset the clock shows both ends of every window whose start is not before 1970. -/
theorem occurrence_fixed {day : Nat} {window : WeeklyWindow}
    (hconstant : ∀ u, offsetAt schedule u = schedule.utcOffsetSeconds)
    (hwindow : window ∈ schedule.weekly) (hvalid : ValidWindow window)
    (hweekday : (day + epochWeekdayOffset) % 7 = window.weekday)
    (hopens : 0 ≤ opens day window - schedule.utcOffsetSeconds) :
    Occurrence schedule day window (opens day window - schedule.utcOffsetSeconds).toNat
      (closes day window - schedule.utcOffsetSeconds).toNat := by
  have hminutes : window.startMinute < window.endMinute := hvalid.2.1
  have hcloses : opens day window < closes day window := by
    unfold opens closes secondsPerMinute
    omega
  refine ⟨hwindow, hweekday, ?_, ?_⟩
  · rw [firstShows_of_constant hconstant]
    omega
  · rw [firstShows_of_constant hconstant]
    omega

/-- With a fixed offset the instants between the ends of a window are those at which the clock shows
a time inside it. -/
theorem spanned_fixed_iff (haccepted : Accepted schedule) (hfixed : schedule.offsetChanges = [])
    (hstart : secondsPerDay ≤ t) :
    Spanned schedule t ↔ InWindows schedule.weekly (wallClock schedule t) := by
  have hconstant := offsetAt_fixed hfixed
  constructor
  · rintro ⟨day, window, utcStart, utcEnd, hoccurs, hlow, hhigh⟩
    refine ⟨window, hoccurs.listed, ?_⟩
    apply hoccurs.steady (haccepted.windows window hoccurs.listed) hlow hhigh
    intro u _ _
    rw [hconstant, hconstant]
  · rintro ⟨window, hwindow, hin⟩
    have hvalid := haccepted.windows window hwindow
    obtain ⟨hwest, heast⟩ := haccepted.offsets _ (offsetAt_mem schedule t)
    have hend : window.endMinute ≤ 1440 := hvalid.2.2.2
    have hclock : wallClock schedule t = t + offsetAt schedule t := rfl
    have hpos : 0 ≤ wallClock schedule t := by
      unfold minUtcOffsetSeconds secondsPerDay at *
      omega
    obtain ⟨day, hweekday, hfrom, hbefore⟩ := (inWindow_iff hvalid hpos).mp hin
    rw [hconstant] at hwest heast hclock
    -- No offset reaches back from the second day of 1970 to before 1970.
    have hopens : 0 ≤ opens day window - schedule.utcOffsetSeconds := by
      unfold opens closes maxUtcOffsetSeconds secondsPerMinute secondsPerDay at *
      omega
    have hoccurs := occurrence_fixed hconstant hwindow hvalid hweekday hopens
    exact ⟨day, window, _, _, hoccurs, by omega, by omega⟩

/-- With a fixed offset a query covers exactly the instants that no blackout takes back and that are
extra availability or lie in a window of the local week. -/
theorem fixedOffset_exact (hset : setSchedule env s participant input = .ok (schedule, s'))
    (hfixed : input.offsetChanges = [])
    (h : computeRanges schedule exceptions startTs endTs = .ok ranges)
    (hstart : secondsPerDay ≤ startTs) (hsigned : Signed t) :
    t ∈ points ranges ↔ startTs ≤ t ∧ t < endTs ∧ ¬ Excepted .unavailable exceptions t ∧
      (Excepted .available exceptions t ∨
        InWindows input.weekly (t + input.utcOffsetSeconds)) := by
  obtain ⟨haccepted, hoffset, hchanges, hwindows⟩ := setSchedule_accepted hset
  have hnone : schedule.offsetChanges = [] := hchanges.trans hfixed
  have hclock : wallClock schedule t = t + input.utcOffsetSeconds := by
    rw [wallClock, reading, offsetAt_fixed hnone, hoffset]
  rw [← hclock, ← hwindows]
  constructor
  · intro ht
    obtain ⟨hlow, hhigh, hblocked, hopen⟩ := computeRanges_spanned h haccepted ht
    refine ⟨hlow, hhigh, hblocked, ?_⟩
    rcases hopen with hextra | ⟨hspanned, _⟩
    · exact .inl hextra
    · exact .inr ((spanned_fixed_iff haccepted hnone (hstart.trans hlow)).mp hspanned)
  · rintro ⟨hlow, hhigh, hblocked, hextra | hin⟩
    · exact extra_computeRanges h hlow hhigh hblocked hextra
    · apply spanned_computeRanges h haccepted hlow hhigh hsigned hblocked
      exact (spanned_fixed_iff haccepted hnone (hstart.trans hlow)).mpr hin

theorem fixedOffset_exact_sample :
    259200 ∈ points [⟨259200, 262800⟩] ↔ 259200 ≤ 259200 ∧ 259200 < 345600 ∧
      ¬ Excepted .unavailable [] 259200 ∧
      (Excepted .available [] 259200 ∨ InWindows [⟨0, 60, 120⟩] (259200 + 3600)) := by
  have hset : setSchedule Env.sample State.empty ⟨1⟩ (sampleInput [] [⟨0, 60, 120⟩]) =
      .ok (sampleSchedule [] [⟨0, 60, 120⟩],
        putSchedule State.empty (sampleSchedule [] [⟨0, 60, 120⟩])) := rfl
  have h : computeRanges (sampleSchedule [] [⟨0, 60, 120⟩]) [] 259200 345600 =
      .ok [⟨259200, 262800⟩] := by decide +kernel
  exact fixedOffset_exact hset rfl h (by decide) (by decide)

/-- A day past `2^63` is not covered although the windows fill the week. -/
theorem windows_vanish_past_i64 :
    ∃ s', setSchedule Env.sample State.empty ⟨1⟩ (sampleInput [] wholeWeek) =
        .ok (sampleSchedule [] wholeWeek, s') ∧
      computeRanges (sampleSchedule [] wholeWeek) [] 9223372036854892800 9223372036854979200 =
        .ok [] ∧
      ¬ (9223372036854892800 ∈ points [] ↔
        9223372036854892800 ≤ 9223372036854892800 ∧ 9223372036854892800 < 9223372036854979200 ∧
        ¬ Excepted .unavailable [] 9223372036854892800 ∧
        (Excepted .available [] 9223372036854892800 ∨
          InWindows wholeWeek (9223372036854892800 + 3600))) := by
  refine ⟨_, wholeWeek_set, wholeWeek_ranges, ?_⟩
  intro h
  have hcovered := h.mpr ⟨le_rfl, by decide, by simp [Excepted], .inr (by decide)⟩
  simp at hcovered

end FixedOffset

section OffsetChanges

/-- Where an offset change has come into effect inside the span of a window, the clock goes on to
show times of the weekly windows, at the instants of the query that no exception covers. -/
def ChangesKeepWindows (schedule : AvailabilitySchedule) (exceptions : List AvailabilityException)
    (startTs endTs : Nat) : Prop :=
  ∀ day window utcStart utcEnd, Occurrence schedule day window utcStart utcEnd →
    ∀ change t, InEffect schedule change t → utcStart < change.effectiveFrom → t < utcEnd →
      startTs ≤ t → t < endTs → Signed t → (∀ kind, ¬ Excepted kind exceptions t) →
      InWindows schedule.weekly (t + change.utcOffsetSeconds)

/-- Between the ends of a window the clock shows a time inside it, unless an offset change has come
into effect since the first instant that shows its start. -/
theorem Occurrence.steady_or_changed {day : Nat} {window : WeeklyWindow} {utcStart utcEnd : Nat}
    (h : Occurrence schedule day window utcStart utcEnd) (hvalid : ValidWindow window)
    (hlow : utcStart ≤ t) (hhigh : t < utcEnd) :
    InWindow (wallClock schedule t) window ∨
      ∃ latest, InEffect schedule latest t ∧ utcStart < latest.effectiveFrom := by
  by_cases hchanged : ∃ change ∈ schedule.offsetChanges,
    utcStart < change.effectiveFrom ∧ change.effectiveFrom ≤ t
  · -- The latest change is no earlier than the one inside the span.
    obtain ⟨change, hmem, hinside, hstarted⟩ := hchanged
    obtain ⟨latest, heffect, hlater⟩ := exists_inEffect hmem hstarted
    exact .inr ⟨latest, heffect, hinside.trans_le hlater⟩
  · left
    apply h.steady hvalid hlow hhigh
    intro u hu hut
    apply offsetAt_steady hu
    intro change hmem
    by_contra hbetween
    exact hchanged ⟨change, hmem, by omega, by omega⟩

/-- A query covers outside extra availability only instants at which the clock shows a time of the
weekly windows, exactly when the offset changes inside the windows keep it there. -/
theorem covered_in_windows_iff
    (hset : setSchedule env s participant input = .ok (schedule, s'))
    (h : computeRanges schedule exceptions startTs endTs = .ok ranges) :
    (∀ t ∈ points ranges, ¬ Excepted .available exceptions t →
      InWindows input.weekly (wallClock schedule t)) ↔
    ChangesKeepWindows schedule exceptions startTs endTs := by
  obtain ⟨haccepted, _, _, hwindows⟩ := setSchedule_accepted hset
  simp only [← hwindows]
  constructor
  · intro hcovered day window utcStart utcEnd hoccurs change t heffect hinside hhigh hfrom huntil
      hsigned hclear
    have hlow : utcStart ≤ t := hinside.le.trans heffect.2.1
    have hin := spanned_computeRanges h haccepted hfrom huntil hsigned (hclear .unavailable)
      ⟨day, window, utcStart, utcEnd, hoccurs, hlow, hhigh⟩
    have hshown := hcovered t hin (hclear .available)
    rwa [wallClock, reading, offsetAt_inEffect haccepted.changes heffect] at hshown
  · intro hkept t ht hextra
    obtain ⟨hfrom, huntil, hblocked, hopen⟩ := computeRanges_spanned h haccepted ht
    obtain ⟨⟨day, window, utcStart, utcEnd, hoccurs, hlow, hhigh⟩, hsigned⟩ :=
      hopen.resolve_left hextra
    rcases hoccurs.steady_or_changed (haccepted.windows window hoccurs.listed) hlow hhigh with
      hshown | ⟨latest, heffect, hinside⟩
    · exact ⟨window, hoccurs.listed, hshown⟩
    · have hclear : ∀ kind, ¬ Excepted kind exceptions t := by
        intro kind
        cases kind with
        | unavailable => exact hblocked
        | available => exact hextra
      have hshown := hkept day window utcStart utcEnd hoccurs latest t heffect hinside hhigh hfrom
        huntil hsigned hclear
      rwa [wallClock, reading, offsetAt_inEffect haccepted.changes heffect]

theorem covered_in_windows_iff_sample :
    (∀ t ∈ points [⟨261000, 268200⟩], ¬ Excepted .available [] t →
      InWindows [⟨0, 90, 150⟩] (wallClock sampleChanging t)) ↔
    ChangesKeepWindows sampleChanging [] 259200 345600 :=
  covered_in_windows_iff sampleChanging_set sampleChanging_ranges

/-- A window from 01:30 to 02:30 covers the second 01:00. -/
theorem set_back_clock_covered :
    ∃ s', setSchedule Env.sample State.empty ⟨1⟩ (sampleInput [sampleChange] [⟨0, 90, 150⟩]) =
        .ok (sampleChanging, s') ∧
      computeRanges sampleChanging [] 259200 345600 = .ok [⟨261000, 268200⟩] ∧
      262800 ∈ points [⟨261000, 268200⟩] ∧ ¬ Excepted .available [] 262800 ∧
      ¬ InWindows [⟨0, 90, 150⟩] (wallClock sampleChanging 262800) := by
  refine ⟨_, sampleChanging_set, sampleChanging_ranges, ?_, ?_, by decide⟩
  · simp [mem_covered]
  · simp [Excepted]

/-- Between the first instants that show the two ends of a window, the clock shows a time inside
it. -/
def ShownWithin (schedule : AvailabilitySchedule) (t : Nat) : Prop :=
  ∃ day window utcStart utcEnd, Occurrence schedule day window utcStart utcEnd ∧
    utcStart ≤ t ∧ t < utcEnd ∧
    opens day window ≤ wallClock schedule t ∧ wallClock schedule t < closes day window

/-- A query covers every instant that no blackout takes back and at which the clock shows a time of
a weekly window between the first instants that show the ends of the window. -/
theorem shown_windows_covered
    (hset : setSchedule env s participant input = .ok (schedule, s'))
    (h : computeRanges schedule exceptions startTs endTs = .ok ranges) (hlow : startTs ≤ t)
    (hhigh : t < endTs) (hsigned : Signed t) (hblocked : ¬ Excepted .unavailable exceptions t)
    (hshown : ShownWithin schedule t) : t ∈ points ranges := by
  obtain ⟨haccepted, _⟩ := setSchedule_accepted hset
  obtain ⟨day, window, utcStart, utcEnd, hoccurs, hstart, hend, _⟩ := hshown
  apply spanned_computeRanges h haccepted hlow hhigh hsigned hblocked
  exact ⟨day, window, utcStart, utcEnd, hoccurs, hstart, hend⟩

theorem sampleChanging_occurrence :
    Occurrence sampleChanging 3 ⟨0, 90, 150⟩ 261000 268200 := by
  have hknown : ∀ u, offsetAt sampleChanging u = 3600 ∨ offsetAt sampleChanging u = 0 := by
    intro u
    have hmem := offsetAt_mem sampleChanging u
    simpa [offsets, sampleChanging, sampleSchedule, sampleChange] using hmem
  refine ⟨by decide, by decide, ⟨by decide, ?_⟩, ⟨by decide, ?_⟩⟩
  · intro u hu
    have hreads : (u : Int) + offsetAt sampleChanging u = 264600 := hu
    rcases hknown u with hoffset | hoffset <;> omega
  · intro u hu
    have hreads : (u : Int) + offsetAt sampleChanging u = 268200 := hu
    rcases hknown u with hoffset | hoffset
    · have hsecond : u = 264600 := by omega
      rw [hsecond] at hoffset
      exact absurd hoffset (by decide)
    · omega

theorem shown_windows_covered_sample : 261000 ∈ points [⟨261000, 268200⟩] :=
  shown_windows_covered sampleChanging_set sampleChanging_ranges (by decide) (by decide)
    (by decide) (by simp [Excepted])
    ⟨3, _, _, _, sampleChanging_occurrence, by decide, by decide, by decide, by decide⟩

/-- A window from 01:00 to 01:30 does not cover the second 01:00, and a day past `2^63` is not
covered although the windows fill the week. -/
theorem repeated_hour_not_covered :
    (∃ s', setSchedule Env.sample State.empty ⟨1⟩ (sampleInput [sampleChange] [⟨0, 60, 90⟩]) =
        .ok (sampleSchedule [sampleChange] [⟨0, 60, 90⟩], s') ∧
      computeRanges (sampleSchedule [sampleChange] [⟨0, 60, 90⟩]) [] 259200 345600 =
        .ok [⟨259200, 261000⟩] ∧
      ¬ Excepted .unavailable [] 262800 ∧
      InWindows [⟨0, 60, 90⟩] (wallClock (sampleSchedule [sampleChange] [⟨0, 60, 90⟩]) 262800) ∧
      262800 ∉ points [⟨259200, 261000⟩]) ∧
    ∃ s', setSchedule Env.sample State.empty ⟨1⟩ (sampleInput [] wholeWeek) =
        .ok (sampleSchedule [] wholeWeek, s') ∧
      computeRanges (sampleSchedule [] wholeWeek) [] 9223372036854892800 9223372036854979200 =
        .ok [] ∧
      ¬ Excepted .unavailable [] 9223372036854892800 ∧
      InWindows wholeWeek (wallClock (sampleSchedule [] wholeWeek) 9223372036854892800) ∧
      9223372036854892800 ∉ points [] := by
  constructor
  · refine ⟨_, rfl, by decide +kernel, ?_, by decide, ?_⟩
    · simp [Excepted]
    · simp [mem_covered]
  · refine ⟨_, wholeWeek_set, wholeWeek_ranges, ?_, by decide, ?_⟩
    · simp [Excepted]
    · simp

end OffsetChanges

section Neighbourhoods

variable {schedule : AvailabilitySchedule} {exceptions : List AvailabilityException}
  {all : List AvailableRange} {now a b startTs endTs fromTs untilTs : Nat} {s : State}
  {participant : Address} {answer : Bool}

/-- Whether the whole interval is available. -/
def isAvailable (now : Nat) (s : State) (participant : Address) (startTs endTs : Nat) :
    Outcome Bool := do
  refuseIf (endTs ≤ startTs) (.err .invalidQueryRange)
  refuseIf (maxQuerySpanSeconds < endTs - startTs) (.err .querySpanTooLarge)
  let schedule ← loadSchedule s participant
  match bookableWindow now schedule startTs endTs with
  | none => pure false
  | some (first, last) =>
    -- The clamped interval has to be the whole one.
    if startTs < first ∨ last < endTs then pure false
    else do
      let ranges ← computeRanges schedule (loadExceptions s participant) first last
      pure (ranges.any fun range => range.startTs ≤ first ∧ last ≤ range.endTs)

section Windows

/-- The window of an interval lies inside it, so that nothing of it is lost only if it is the whole
one. -/
theorem bookableWindow_whole {first last : Nat} (hab : a < b)
    (h : bookableWindow now schedule a b = some (first, last)) (hfirst : first ≤ a)
    (hlast : b ≤ last) : first = a ∧ last = b := by
  have hlow := ((bookableWindow_some h first).mp ⟨le_rfl, by omega⟩).1
  have hhigh := ((bookableWindow_some h (last - 1)).mp ⟨by omega, by omega⟩).2.1
  omega

/-- One of separated ranges contains an interval exactly when together they contain its instants. -/
theorem contains_iff (h : Disjoined all) (hab : a < b) :
    (∃ range ∈ all, range.startTs ≤ a ∧ b ≤ range.endTs) ↔ ∀ t, a ≤ t → t < b → t ∈ points all := by
  rw [h.within_one hab]
  exact ⟨fun hsub t hlow hhigh => hsub ⟨hlow, hhigh⟩, fun hall t ht => hall t ht.1 ht.2⟩

/-- An interval is available exactly when each of its instants is. -/
theorem isAvailable_spec (h : isAvailable now s participant a b = .ok answer) :
    answer = true ↔ ∀ t, a ≤ t → t < b → AvailableAt now s participant t := by
  simp only [isAvailable, loadSchedule, bind_eq_ok, exists_unit, refuseIf_eq_ok, orRefuse_eq_ok,
    not_le] at h
  obtain ⟨hab, _, schedule, hschedule, h⟩ := h
  have hiff : ∀ t, AvailableAt now s participant t ↔
      Allows now schedule t ∧ OpenAt schedule (loadExceptions s participant) t := by
    simp [AvailableAt, hschedule]
  simp only [hiff]
  split at h
  · next hwindow =>
    rw [← pure_eq_ok.mp h]
    refine iff_of_false Bool.false_ne_true fun hall => ?_
    exact bookableWindow_none hwindow a ⟨le_rfl, hab, (hall a le_rfl hab).1⟩
  · next first last hwindow =>
    split_ifs at h with hclamped
    · rw [← pure_eq_ok.mp h]
      refine iff_of_false Bool.false_ne_true fun hall => ?_
      have hstart := (bookableWindow_some hwindow a).mpr ⟨le_rfl, hab, (hall a le_rfl hab).1⟩
      have hend := (bookableWindow_some hwindow (b - 1)).mpr
        ⟨by omega, by omega, (hall (b - 1) (by omega) (by omega)).1⟩
      omega
    · obtain ⟨hfirst, hlast⟩ := not_or.mp hclamped
      obtain ⟨rfl, rfl⟩ := bookableWindow_whole hab hwindow (not_lt.mp hfirst) (not_lt.mp hlast)
      obtain ⟨ranges, hranges, h⟩ := bind_eq_ok.mp h
      obtain ⟨hdisjoined, hpoints⟩ := computeRanges_spec hranges
      rw [← pure_eq_ok.mp h, List.any_eq_true]
      simp only [decide_eq_true_eq]
      rw [contains_iff hdisjoined hab, hpoints]
      refine forall_congr' fun t => forall_congr' fun hlow => forall_congr' fun hhigh => ?_
      have hallows := ((bookableWindow_some hwindow t).mp ⟨hlow, hhigh⟩).2.2
      simp only [Set.mem_ofPred_eq, hlow, hhigh, hallows, true_and]

end Windows

section Locality

/-- A query inside one that is answered is answered with what the larger one has there. -/
theorem computeRanges_local (h : computeRanges schedule exceptions startTs endTs = .ok all)
    (hlow : startTs ≤ a) (hhigh : b ≤ endTs) :
    ∃ ranges, computeRanges schedule exceptions a b = .ok ranges ∧
      points ranges = points all ∩ {t | a ≤ t ∧ t < b} := by
  obtain ⟨ranges, hranges⟩ := computeRanges_narrower h hlow hhigh
  refine ⟨ranges, hranges, ?_⟩
  rw [(computeRanges_spec h).2, (computeRanges_spec hranges).2]
  ext t
  simp only [Set.mem_inter_iff, Set.mem_ofPred_eq]
  constructor
  · rintro ⟨ha, hb, hopen⟩
    exact ⟨⟨hlow.trans ha, hb.trans_le hhigh, hopen⟩, ha, hb⟩
  · rintro ⟨⟨_, _, hopen⟩, ha, hb⟩
    exact ⟨ha, hb, hopen⟩

example :
    let blackout : AvailabilityException := ⟨8, .unavailable, 264000, 265000, 0, 10, by decide⟩
    computeRanges sampleChanging [blackout] 259200 345600 =
        .ok [⟨261000, 264000⟩, ⟨265000, 268200⟩] ∧
      computeRanges sampleChanging [blackout] 262000 266000 =
        .ok [⟨262000, 264000⟩, ⟨265000, 266000⟩] := by
  decide +kernel

/-- An interval inside a query that is answered has an answer of its own. -/
theorem isAvailable_answers (h : queryRanges now s participant fromTs untilTs = .ok all)
    (hspan : untilTs - fromTs ≤ maxQuerySpanSeconds) (hlow : fromTs ≤ a) (hab : a < b)
    (hhigh : b ≤ untilTs) : ∃ answer, isAvailable now s participant a b = .ok answer := by
  obtain ⟨ranges, hranges⟩ := queryRanges_narrower h hlow hhigh
  simp only [queryRanges, loadSchedule, bind_eq_ok, orRefuse_eq_ok] at hranges
  obtain ⟨schedule, hschedule, hranges⟩ := hranges
  have hwithin : b - a ≤ maxQuerySpanSeconds := by omega
  simp only [isAvailable, loadSchedule, hschedule, orRefuse, refuseIf, not_le.mpr hab,
    not_lt.mpr hwithin, if_false, ok_bind]
  cases hwindow : bookableWindow now schedule a b with
  | none => exact ⟨false, rfl⟩
  | some window =>
    obtain ⟨first, last⟩ := window
    simp only [hwindow] at hranges
    by_cases hclamped : a < first ∨ last < b
    · simp only [if_pos hclamped]
      exact ⟨false, rfl⟩
    · simp only [if_neg hclamped, hranges, ok_bind]
      exact ⟨_, rfl⟩

/-- An interval is available exactly when one range of any larger query that is answered contains it. -/
theorem isAvailable_within (h : queryRanges now s participant fromTs untilTs = .ok all)
    (hspan : untilTs - fromTs ≤ maxQuerySpanSeconds) (hlow : fromTs ≤ a) (hab : a < b)
    (hhigh : b ≤ untilTs) :
    isAvailable now s participant a b =
      .ok (decide (∃ range ∈ all, range.startTs ≤ a ∧ b ≤ range.endTs)) := by
  obtain ⟨answer, hanswer⟩ := isAvailable_answers h hspan hlow hab hhigh
  obtain ⟨hdisjoined, hpoints⟩ := queryRanges_spec h
  have hwithin : answer = true ↔ ∃ range ∈ all, range.startTs ≤ a ∧ b ≤ range.endTs := by
    rw [isAvailable_spec hanswer, contains_iff hdisjoined hab, hpoints]
    refine forall_congr' fun t => forall_congr' fun ha => forall_congr' fun hb => ?_
    simp only [Set.mem_ofPred_eq, hlow.trans ha, hb.trans_le hhigh, true_and]
  rw [hanswer, Except.ok.injEq, Bool.eq_iff_iff, hwithin, decide_eq_true_eq]

/-- An available interval is a query that is answered. -/
theorem isAvailable_query (h : isAvailable now s participant a b = .ok true) :
    a < b ∧ b - a ≤ maxQuerySpanSeconds ∧ ∃ all, queryRanges now s participant a b = .ok all := by
  simp only [isAvailable, loadSchedule, bind_eq_ok, exists_unit, refuseIf_eq_ok, orRefuse_eq_ok,
    not_le, not_lt] at h
  obtain ⟨hab, hspan, schedule, hschedule, h⟩ := h
  refine ⟨hab, hspan, ?_⟩
  simp only [queryRanges, loadSchedule, hschedule, orRefuse, ok_bind]
  cases hwindow : bookableWindow now schedule a b with
  | none =>
    simp only [hwindow] at h
    cases pure_eq_ok.mp h
  | some window =>
    obtain ⟨first, last⟩ := window
    simp only [hwindow] at h
    split_ifs at h with hclamped
    · cases pure_eq_ok.mp h
    · obtain ⟨ranges, hranges, _⟩ := bind_eq_ok.mp h
      exact ⟨ranges, hranges⟩

theorem isAvailable_mono {c d : Nat} (h : isAvailable now s participant a b = .ok true)
    (hlow : a ≤ c) (hcd : c < d) (hhigh : d ≤ b) :
    isAvailable now s participant c d = .ok true := by
  obtain ⟨_, hspan, all, hquery⟩ := isAvailable_query h
  obtain ⟨answer, hanswer⟩ := isAvailable_answers hquery hspan hlow hcd hhigh
  have hall := (isAvailable_spec h).mp rfl
  have htrue : answer = true := by
    rw [isAvailable_spec hanswer]
    intro t hc hd
    exact hall t (hlow.trans hc) (hd.trans_le hhigh)
  rw [hanswer, htrue]

/-- Queries agree where they overlap. A query inside one that is answered is answered with the same
instants; an interval is available exactly when one range of any larger query contains it; and each part
of an available interval is available. -/
theorem availability_local :
    (∀ (schedule : AvailabilitySchedule) (exceptions : List AvailabilityException)
      (startTs endTs a b : Nat) (all : List AvailableRange),
      computeRanges schedule exceptions startTs endTs = .ok all → startTs ≤ a → b ≤ endTs →
        ∃ ranges, computeRanges schedule exceptions a b = .ok ranges ∧
          points ranges = points all ∩ {t | a ≤ t ∧ t < b}) ∧
    (∀ (now : Nat) (s : State) (participant : Address) (fromTs untilTs a b : Nat)
      (all : List AvailableRange), queryRanges now s participant fromTs untilTs = .ok all →
      untilTs - fromTs ≤ maxQuerySpanSeconds → fromTs ≤ a → a < b → b ≤ untilTs →
        isAvailable now s participant a b =
          .ok (decide (∃ range ∈ all, range.startTs ≤ a ∧ b ≤ range.endTs))) ∧
    ∀ (now : Nat) (s : State) (participant : Address) (a b c d : Nat),
      isAvailable now s participant a b = .ok true → a ≤ c → c < d → d ≤ b →
        isAvailable now s participant c d = .ok true := by
  refine ⟨?_, ?_, ?_⟩
  · intro schedule exceptions startTs endTs a b all h hlow hhigh
    exact computeRanges_local h hlow hhigh
  · intro now s participant fromTs untilTs a b all h hspan hlow hab hhigh
    exact isAvailable_within h hspan hlow hab hhigh
  · intro now s participant a b c d h hlow hcd hhigh
    exact isAvailable_mono h hlow hcd hhigh

end Locality

end Neighbourhoods

end ChainVerse.MentorshipAvailability
