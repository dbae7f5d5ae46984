import ChainVerse.Availability.Schedules

namespace ChainVerse.MentorshipAvailability

variable {schedule : AvailabilitySchedule} {day : Nat} {window : WeeklyWindow}

section Days

/-- The local time at which a window opens on a local day, counted from the first one. -/
def opens (day : Nat) (window : WeeklyWindow) : Int :=
  (day * secondsPerDay : Nat) + window.startMinute * secondsPerMinute

def closes (day : Nat) (window : WeeklyWindow) : Int :=
  (day * secondsPerDay : Nat) + window.endMinute * secondsPerMinute

theorem opens_nonneg (day : Nat) (window : WeeklyWindow) : 0 ≤ opens day window := by
  unfold opens secondsPerMinute
  omega

theorem closes_nonneg (day : Nat) (window : WeeklyWindow) : 0 ≤ closes day window := by
  unfold closes secondsPerMinute
  omega

theorem weekdayOf_day (day : Nat) :
    (weekdayOf (day * secondsPerDay : Nat) : Int) = (day + epochWeekdayOffset) % 7 := by
  have hday : ((day * secondsPerDay : Nat) : Int) / secondsPerDay = day := by
    unfold secondsPerDay
    omega
  have hpos : (0 : Int) ≤ day + epochWeekdayOffset := by
    unfold epochWeekdayOffset
    omega
  unfold weekdayOf
  rw [hday, Int.tmod_eq_emod_of_nonneg hpos]
  omega

/-- A local time lies in a window exactly when it lies between the ends of the window on its own
day. -/
theorem inWindow_iff {localTs : Int} (hwindow : ValidWindow window) (hpos : 0 ≤ localTs) :
    InWindow localTs window ↔ ∃ day : Nat, (day + epochWeekdayOffset) % 7 = window.weekday ∧
      opens day window ≤ localTs ∧ localTs < closes day window := by
  have hend : window.endMinute ≤ 1440 := hwindow.2.2.2
  unfold InWindow opens closes secondsPerDay secondsPerMinute
  constructor
  · intro hin
    obtain ⟨hweekday, hlow, hhigh⟩ := hin
    refine ⟨(localTs / 86400).toNat, ?_, by omega, by omega⟩
    rw [Int.toNat_of_nonneg (by omega)]
    exact hweekday
  · intro hin
    obtain ⟨day, hweekday, hlow, hhigh⟩ := hin
    have hday : localTs / 86400 = day := by omega
    refine ⟨?_, by omega, by omega⟩
    rw [← hweekday, ← hday]
    rfl

end Days

section Windows

/-- A window of one local day whose two ends the clock shows, with the first instants that show
them. -/
structure Occurrence (schedule : AvailabilitySchedule) (day : Nat) (window : WeeklyWindow)
    (utcStart utcEnd : Nat) : Prop where
  listed : window ∈ schedule.weekly
  weekday : (day + epochWeekdayOffset) % 7 = window.weekday
  opening : FirstShows (offsetAt schedule) (opens day window) utcStart
  closing : FirstShows (offsetAt schedule) (closes day window) utcEnd

/-- An instant lies between the ends of a window of some local day. -/
def Spanned (schedule : AvailabilitySchedule) (t : Nat) : Prop :=
  ∃ day window utcStart utcEnd, Occurrence schedule day window utcStart utcEnd ∧
    utcStart ≤ t ∧ t < utcEnd

variable {dayStart dayEnd : Nat} {ranges : List AvailableRange} {t : Nat}

theorem windowRange_some {localDay : Int} {range : AvailableRange}
    (h : windowRange schedule dayStart dayEnd localDay window = .ok (some range)) :
    ∃ utcStart utcEnd, 0 ≤ localDay + window.startMinute * secondsPerMinute ∧
      FirstShows (offsetAt schedule) (localDay + window.startMinute * secondsPerMinute) utcStart ∧
      FirstShows (offsetAt schedule) (localDay + window.endMinute * secondsPerMinute) utcEnd ∧
      clip utcStart utcEnd dayStart dayEnd = some range := by
  simp only [windowRange, bind_eq_ok, orRefuse_eq_ok, fitsI64_eq_some] at h
  obtain ⟨_, ⟨_, rfl⟩, _, ⟨_, rfl⟩, opening, hopening, h⟩ := h
  cases opening with
  | none => simp at h
  | some utcStart =>
    simp only [bind_eq_ok] at h
    obtain ⟨closing, hclosing, h⟩ := h
    cases closing with
    | none => simp at h
    | some utcEnd =>
      obtain ⟨hpos, hfirst⟩ := localToUtc_some hopening
      exact ⟨utcStart, utcEnd, hpos, hfirst, (localToUtc_some hclosing).2, pure_eq_ok.mp h⟩

theorem windowRange_shown {found : Option AvailableRange} {utcStart utcEnd : Nat}
    (h : windowRange schedule dayStart dayEnd (day * secondsPerDay : Nat) window = .ok found)
    (hopening : FirstShows (offsetAt schedule) (opens day window) utcStart)
    (hclosing : FirstShows (offsetAt schedule) (closes day window) utcEnd) :
    found = clip utcStart utcEnd dayStart dayEnd := by
  simp only [windowRange, bind_eq_ok, orRefuse_eq_ok, fitsI64_eq_some] at h
  obtain ⟨_, ⟨_, rfl⟩, _, ⟨_, rfl⟩, opening, hopened, h⟩ := h
  rw [localToUtc_shown hopened (opens_nonneg day window) hopening] at h
  simp only [bind_eq_ok] at h
  obtain ⟨closing, hclosed, h⟩ := h
  rw [localToUtc_shown hclosed (closes_nonneg day window) hclosing] at h
  exact (pure_eq_ok.mp h).symm

theorem bmod_signed {n : Nat} (h : n < 2^63) : Int.bmod n (2^64) = n :=
  Int.bmod_eq_of_le_mul_two (by omega) (by omega)

theorem bmod_wrapped {n : Nat} (hwraps : 2^63 ≤ n) (hrepresented : n < 2^64) :
    Int.bmod n (2^64) = n - 2^64 := by
  rw [← Int.sub_bmod_right]
  exact Int.bmod_eq_of_le_mul_two (by omega) (by omega)

/-- Where the signed arithmetic wraps around, the local days of the loop end long before the UTC
day. -/
theorem dayEnd_signed {localDay : Int} {utcEnd : Nat} (haccepted : Accepted schedule)
    (hwindow : window ∈ schedule.weekly)
    (hbefore : localDay < Int.bmod dayEnd (2^64) + maxUtcOffsetSeconds)
    (hclosing : FirstShows (offsetAt schedule)
      (localDay + window.endMinute * secondsPerMinute) utcEnd)
    (hrepresented : dayEnd < 2^64) (hnear : dayEnd < utcEnd + secondsPerDay) : dayEnd < 2^63 := by
  by_contra hwraps
  obtain ⟨hoffset, _⟩ := haccepted.offsets _ (offsetAt_mem schedule utcEnd)
  have hminutes : window.endMinute ≤ 1440 := (haccepted.windows window hwindow).2.2.2
  have hreads := hclosing.reads
  rw [bmod_wrapped (not_lt.mp hwraps) hrepresented] at hbefore
  unfold secondsPerMinute at hreads
  unfold minUtcOffsetSeconds at hoffset
  unfold maxUtcOffsetSeconds at hbefore
  unfold secondsPerDay at hnear
  omega

/-- The weekly ranges cover only instants between the ends of a window, and where the signed
arithmetic wraps around they cover none. -/
theorem weeklyRanges_spanned (h : weeklyRanges schedule dayStart dayEnd = .ok ranges)
    (haccepted : Accepted schedule) (hnext : dayEnd ≤ dayStart + secondsPerDay)
    (hrepresented : dayEnd < 2^64) (ht : t ∈ points ranges) :
    Spanned schedule t ∧ dayEnd < 2^63 := by
  obtain ⟨range, hrange, hlow, hhigh⟩ := ht
  obtain ⟨localDay, window, ⟨k, rfl⟩, hbefore, hwindow, hweekday, hrangeOf⟩ :=
    weeklyRanges_window h hrange
  obtain ⟨utcStart, utcEnd, hpos, hopening, hclosing, hclip⟩ := windowRange_some hrangeOf
  obtain ⟨_, rfl⟩ := clip_eq_some.mp hclip
  obtain ⟨_, _, hstart, hend⟩ := haccepted.windows window hwindow
  constructor
  · -- A local time before 1970 has no instant, so the day is one of those counted.
    have hday : (secondsPerDay : Int) * k = (k.toNat * secondsPerDay : Nat) := by
      unfold minutesPerDay secondsPerDay secondsPerMinute at *
      omega
    rw [hday] at hopening hclosing hweekday
    refine ⟨k.toNat, window, utcStart, utcEnd, ⟨hwindow, ?_, hopening, hclosing⟩, ?_, ?_⟩
    · rw [hweekday, weekdayOf_day]
    · exact (le_max_left _ _).trans hlow
    · exact hhigh.trans_le (min_le_left _ _)
  · apply dayEnd_signed haccepted hwindow hbefore hclosing hrepresented
    have hlast : t < utcEnd := hhigh.trans_le (min_le_left _ _)
    have hfirst : dayStart ≤ t := (le_max_right _ _).trans hlow
    omega

/-- Every day between the first and the last one has a turn in the loop. -/
theorem exists_visited {first last day : Int} (hfrom : first ≤ day) (hto : day ≤ last) :
    ∃ k ∈ List.range (last - first + 1).toNat,
      first * secondsPerDay + (k * secondsPerDay : Nat) = day * secondsPerDay := by
  obtain ⟨k, hk⟩ := Int.eq_ofNat_of_zero_le (Int.sub_nonneg_of_le hfrom)
  refine ⟨k, ?_, ?_⟩
  · rw [List.mem_range]
    omega
  · rw [Nat.cast_mul, ← hk, ← Int.add_mul, add_sub_cancel]

/-- The loop over local days visits every one that may map into the UTC day. -/
theorem weeklyRanges_visits (h : weeklyRanges schedule dayStart dayEnd = .ok ranges)
    (hordered : dayStart ≤ dayEnd) (hfits : dayEnd < 2^63)
    (hlow : dayStart + minUtcOffsetSeconds < ((day + 1) * secondsPerDay : Nat))
    (hhigh : ((day * secondsPerDay : Nat) : Int) < dayEnd + maxUtcOffsetSeconds)
    (hwindow : window ∈ schedule.weekly)
    (hweekday : (day + epochWeekdayOffset) % 7 = window.weekday) :
    ∃ found, windowRange schedule dayStart dayEnd (day * secondsPerDay : Nat) window = .ok found ∧
      ∀ range, found = some range → range ∈ ranges := by
  simp only [weeklyRanges, bind_eq_ok, orRefuse_eq_ok, fitsI64_eq_some, pure_eq_ok] at h
  obtain ⟨_, ⟨_, rfl⟩, _, ⟨_, rfl⟩, _, ⟨_, rfl⟩, _, ⟨_, rfl⟩, _, ⟨_, rfl⟩, found, hfound, rfl⟩ := h
  rw [bmod_signed (hordered.trans_lt hfits), bmod_signed hfits] at hfound
  have hday : (0 : Int) < secondsPerDay := by decide
  have hfrom : (dayStart + minUtcOffsetSeconds) / secondsPerDay ≤ (day : Int) := by
    apply Int.le_of_lt_add_one
    apply Int.ediv_lt_of_lt_mul hday
    rw [Nat.cast_mul, Nat.cast_add, Nat.cast_one] at hlow
    exact hlow
  have hto : (day : Int) ≤ (dayEnd + maxUtcOffsetSeconds - 1) / secondsPerDay := by
    apply Int.le_ediv_of_mul_le hday
    rw [Nat.cast_mul] at hhigh
    exact Int.le_sub_one_of_lt hhigh
  rw [← Int.sub_mul, Int.mul_ediv_cancel _ hday.ne'] at hfound
  generalize (dayStart + minUtcOffsetSeconds) / secondsPerDay = first at hfrom hfound
  generalize (dayEnd + maxUtcOffsetSeconds - 1) / secondsPerDay = last at hto hfound
  obtain ⟨k, hmem, hkth⟩ := exists_visited hfrom hto
  obtain ⟨onDay, honDay, hvisit⟩ := mapM_mem hfound hmem
  rw [hkth, ← Nat.cast_mul] at hvisit
  simp only [localDayRanges, bind_eq_ok, pure_eq_ok] at hvisit
  obtain ⟨windows, hwindows, _, _, rfl⟩ := hvisit
  have hfiltered : window ∈ schedule.weekly.filter
      fun window => window.weekday = weekdayOf (day * secondsPerDay : Nat) := by
    rw [List.mem_filter, decide_eq_true_eq]
    refine ⟨hwindow, ?_⟩
    have hcount := weekdayOf_day day
    omega
  obtain ⟨one, hone, hrange⟩ := mapM_mem hwindows hfiltered
  refine ⟨one, hrange, ?_⟩
  intro range hsome
  rw [hsome] at hone
  exact List.mem_flatten.mpr ⟨_, honDay, List.reduceOption_mem_iff.mpr hone⟩

/-- Where the signed arithmetic holds, the weekly ranges of a UTC day cover the instants between the
ends of a window. -/
theorem spanned_weeklyRanges (h : weeklyRanges schedule dayStart dayEnd = .ok ranges)
    (hfits : dayEnd < 2^63) (haccepted : Accepted schedule) (hstart : dayStart ≤ t)
    (hend : t < dayEnd) (ht : Spanned schedule t) : t ∈ points ranges := by
  obtain ⟨day, window, utcStart, utcEnd, hoccurs, hlow, hhigh⟩ := ht
  obtain ⟨_, hopenOffset⟩ := haccepted.offsets _ (offsetAt_mem schedule utcStart)
  obtain ⟨hcloseOffset, _⟩ := haccepted.offsets _ (offsetAt_mem schedule utcEnd)
  have hopening := hoccurs.opening.reads
  have hclosing := hoccurs.closing.reads
  have hminutes : window.endMinute ≤ 1440 := (haccepted.windows window hoccurs.listed).2.2.2
  obtain ⟨found, hfound, hmem⟩ := weeklyRanges_visits h (hstart.trans hend.le) hfits
    (by unfold closes secondsPerDay secondsPerMinute at *; omega)
    (by unfold opens secondsPerDay secondsPerMinute at *; omega) hoccurs.listed hoccurs.weekday
  have hclip := windowRange_shown hfound hoccurs.opening hoccurs.closing
  refine ⟨_, hmem ⟨max utcStart dayStart, min utcEnd dayEnd⟩ ?_, ?_, ?_⟩
  · rw [hclip]
    exact clip_eq_some.mpr ⟨by omega, rfl⟩
  · exact max_le hlow hstart
  · exact lt_min hhigh hend

end Windows

section Queries

variable {exceptions : List AvailabilityException} {startTs endTs t : Nat}
  {ranges : List AvailableRange}

/-- An exception of a kind holds at an instant. -/
def Excepted (kind : ExceptionKind) (exceptions : List AvailabilityException) (t : Nat) : Prop :=
  ∃ exception ∈ exceptions, exception.kind = kind ∧ exception.fromTs ≤ t ∧ t < exception.untilTs

theorem not_excepted_iff :
    ¬ Excepted .unavailable exceptions t ↔
      ∀ blackout ∈ exceptions.filter isBlocking, t ∈ outside blackout := by
  unfold Excepted isBlocking outside
  simp only [List.mem_filter, decide_eq_true_eq, Set.mem_ofPred_eq, not_exists, not_and, and_imp]
  constructor
  · intro h blackout hmem hkind
    have := h blackout hmem hkind
    omega
  · intro h blackout hmem hkind hlow
    have := h blackout hmem hkind
    omega

/-- The candidates of the UTC day of an instant cover it by a weekly range or by extra availability.
-/
theorem mem_rangesOn {found : List AvailableRange}
    (h : dayRanges schedule exceptions (t / secondsPerDay) = .ok found) :
    ∃ weekly, weeklyRanges schedule (t / secondsPerDay * secondsPerDay)
        (t / secondsPerDay * secondsPerDay + secondsPerDay) = .ok weekly ∧
      t / secondsPerDay * secondsPerDay + secondsPerDay < 2^64 ∧
      (t ∈ points (rangesOn schedule exceptions (t / secondsPerDay)) ↔
        t ∈ points weekly ∨ Excepted .available exceptions t) := by
  rw [rangesOn_eq h]
  simp only [dayRanges, bind_eq_ok, orRefuse_eq_ok, fitsU_eq_some, pure_eq_ok] at h
  obtain ⟨_, ⟨hrepresented, rfl⟩, weekly, hweekly, rfl⟩ := h
  refine ⟨weekly, hweekly, hrepresented, ?_⟩
  have hstart : t / secondsPerDay * secondsPerDay ≤ t := Nat.div_mul_le_self t _
  have hend : t < t / secondsPerDay * secondsPerDay + secondsPerDay :=
    Nat.lt_div_mul_add (by decide)
  rw [points_append, Set.mem_union]
  apply or_congr_right
  unfold Excepted
  simp only [mem_covered, List.mem_filterMap, List.mem_filter, decide_eq_true_eq, clip_eq_some]
  constructor
  · rintro ⟨_, ⟨exception, ⟨hmem, hkind⟩, _, rfl⟩, hlow, hhigh⟩
    exact ⟨exception, hmem, hkind, (le_max_left _ _).trans hlow, hhigh.trans_le (min_le_left _ _)⟩
  · rintro ⟨exception, hmem, hkind, hlow, hhigh⟩
    have hin := max_le hlow hstart
    have hbefore := lt_min hhigh hend
    exact ⟨_, ⟨exception, ⟨hmem, hkind⟩, hin.trans_lt hbefore, rfl⟩, hin, hbefore⟩

/-- The UTC day of an instant ends within the signed 64-bit timestamps. -/
def Signed (t : Nat) : Prop := t / secondsPerDay * secondsPerDay + secondsPerDay < 2^63

instance decidableSigned (t : Nat) : Decidable (Signed t) := inferInstanceAs (Decidable (_ < _))

/-- Outside extra availability, a covered instant lies between the ends of a window. -/
theorem computeRanges_spanned (h : computeRanges schedule exceptions startTs endTs = .ok ranges)
    (haccepted : Accepted schedule) (ht : t ∈ points ranges) :
    startTs ≤ t ∧ t < endTs ∧ ¬ Excepted .unavailable exceptions t ∧
      (Excepted .available exceptions t ∨ Spanned schedule t ∧ Signed t) := by
  rw [(computeRanges_spec h).2] at ht
  obtain ⟨hlow, hhigh, hin, hblocked⟩ := ht
  refine ⟨hlow, hhigh, not_excepted_iff.mpr hblocked, ?_⟩
  obtain ⟨found, hfound⟩ := computeRanges_day h (mem_queryDays_of_mem hlow hhigh)
  obtain ⟨weekly, hweekly, hrepresented, hcover⟩ := mem_rangesOn hfound
  rcases hcover.mp hin with hin | hextra
  · exact .inr (weeklyRanges_spanned hweekly haccepted le_rfl hrepresented hin)
  · exact .inl hextra

/-- Extra availability that no exception takes back is covered. -/
theorem extra_computeRanges (h : computeRanges schedule exceptions startTs endTs = .ok ranges)
    (hlow : startTs ≤ t) (hhigh : t < endTs) (hblocked : ¬ Excepted .unavailable exceptions t)
    (hextra : Excepted .available exceptions t) : t ∈ points ranges := by
  obtain ⟨found, hfound⟩ := computeRanges_day h (mem_queryDays_of_mem hlow hhigh)
  obtain ⟨weekly, _, _, hcover⟩ := mem_rangesOn hfound
  rw [(computeRanges_spec h).2]
  exact ⟨hlow, hhigh, hcover.mpr (.inr hextra), not_excepted_iff.mp hblocked⟩

/-- An instant between the ends of a window is covered unless an exception takes it back. -/
theorem spanned_computeRanges (h : computeRanges schedule exceptions startTs endTs = .ok ranges)
    (haccepted : Accepted schedule) (hlow : startTs ≤ t) (hhigh : t < endTs) (hsigned : Signed t)
    (hblocked : ¬ Excepted .unavailable exceptions t) (ht : Spanned schedule t) :
    t ∈ points ranges := by
  obtain ⟨found, hfound⟩ := computeRanges_day h (mem_queryDays_of_mem hlow hhigh)
  obtain ⟨weekly, hweekly, _, hcover⟩ := mem_rangesOn hfound
  have hin := spanned_weeklyRanges hweekly hsigned haccepted (Nat.div_mul_le_self t _)
    (Nat.lt_div_mul_add (by decide)) ht
  rw [(computeRanges_spec h).2]
  exact ⟨hlow, hhigh, hcover.mpr (.inl hin), not_excepted_iff.mp hblocked⟩

end Queries

section Acceptance

variable {exceptions : List AvailabilityException} {startTs endTs dayStart dayEnd : Nat}
  {localTs localDay : Int}

theorem fitsI64_accepts {E : Type} {x : Int} {e : E} (hlow : -2^63 ≤ x) (hhigh : x < 2^63) :
    orRefuse (fitsI64 x) e = .ok x := by
  rw [orRefuse_eq_ok, fitsI64_eq_some]
  exact ⟨⟨hlow, hhigh⟩, rfl⟩

theorem localToUtc_accepts (haccepted : Accepted schedule)
    (hhigh : localTs + secondsPerDay < 2^63) :
    ∃ found, localToUtc schedule localTs = .ok found := by
  unfold localToUtc
  split_ifs with hneg
  · exact ⟨none, rfl⟩
  · refine exists_foldlM_eq_ok ?_ none
    intro candidate hcandidate best
    obtain ⟨hwest, heast⟩ := haccepted.offsets candidate hcandidate
    unfold minUtcOffsetSeconds at hwest
    unfold maxUtcOffsetSeconds at heast
    unfold secondsPerDay at hhigh
    unfold localCandidate
    rw [fitsI64_accepts (by omega) (by omega), ok_bind]
    split_ifs
    · exact ⟨_, rfl⟩
    · exact ⟨_, rfl⟩

theorem windowRange_accepts (haccepted : Accepted schedule) (hwindow : window ∈ schedule.weekly)
    (hlow : -2^63 ≤ localDay) (hhigh : localDay + 2 * secondsPerDay < 2^63) :
    ∃ found, windowRange schedule dayStart dayEnd localDay window = .ok found := by
  obtain ⟨_, hordered, _, hend⟩ := haccepted.windows window hwindow
  unfold minutesPerDay at hend
  have hstart : (window.startMinute : Int) * secondsPerMinute ≤ secondsPerDay := by
    unfold secondsPerMinute secondsPerDay
    omega
  have hlast : (window.endMinute : Int) * secondsPerMinute ≤ secondsPerDay := by
    unfold secondsPerMinute secondsPerDay
    omega
  have hpos : ∀ minute : Nat, (0 : Int) ≤ minute * secondsPerMinute := by
    intro minute
    unfold secondsPerMinute
    omega
  have hfirst := hpos window.startMinute
  have hsecond := hpos window.endMinute
  obtain ⟨opening, hopening⟩ := @localToUtc_accepts schedule
    (localDay + window.startMinute * secondsPerMinute) haccepted (by omega)
  obtain ⟨closing, hclosing⟩ := @localToUtc_accepts schedule
    (localDay + window.endMinute * secondsPerMinute) haccepted (by omega)
  unfold windowRange
  rw [fitsI64_accepts (by omega) (by omega), ok_bind, fitsI64_accepts (by omega) (by omega),
    ok_bind, hopening, ok_bind]
  cases opening with
  | none => exact ⟨none, rfl⟩
  | some utcStart =>
    dsimp only
    rw [hclosing, ok_bind]
    cases closing with
    | none => exact ⟨none, rfl⟩
    | some utcEnd => exact ⟨_, rfl⟩

theorem localDayRanges_accepts (haccepted : Accepted schedule) (hlow : -2^63 ≤ localDay)
    (hhigh : localDay + 2 * secondsPerDay < 2^63) :
    ∃ found, localDayRanges schedule dayStart dayEnd localDay = .ok found := by
  have hwindows : ∀ window ∈
      schedule.weekly.filter fun window => window.weekday = weekdayOf localDay,
      ∃ found, windowRange schedule dayStart dayEnd localDay window = .ok found := by
    intro window hwindow
    exact windowRange_accepts haccepted (List.mem_filter.mp hwindow).1 hlow hhigh
  obtain ⟨found, hfound⟩ := exists_mapM_eq_ok.mpr hwindows
  have hday : (0 : Int) < secondsPerDay := by decide
  unfold localDayRanges
  dsimp only
  rw [hfound, ok_bind, fitsI64_accepts (by omega) (by omega)]
  exact ⟨_, rfl⟩

theorem localDay_bounds (localTs : Int) :
    localTs - secondsPerDay < localTs / secondsPerDay * secondsPerDay ∧
      localTs / secondsPerDay * secondsPerDay ≤ localTs := by
  have hday : (0 : Int) < secondsPerDay := by decide
  have hsplit := Int.ediv_mul_add_emod localTs secondsPerDay
  have hnonneg := Int.emod_nonneg localTs hday.ne'
  have hless := Int.emod_lt_of_pos localTs hday
  omega

theorem weeklyRanges_accepts (haccepted : Accepted schedule) (hordered : dayStart ≤ dayEnd)
    (hfits : dayEnd + 3 * secondsPerDay ≤ 2^63) :
    ∃ found, weeklyRanges schedule dayStart dayEnd = .ok found := by
  have hday : (0 : Int) < secondsPerDay := by decide
  have hsigned : dayEnd < 2^63 := by omega
  have hwest : -secondsPerDay ≤ minUtcOffsetSeconds := by decide
  have heast : maxUtcOffsetSeconds ≤ secondsPerDay := by decide
  have hwestward : minUtcOffsetSeconds ≤ 0 := by decide
  have heastward : 0 ≤ maxUtcOffsetSeconds := by decide
  have hfloor := localDay_bounds (dayStart + minUtcOffsetSeconds)
  have hceiling := localDay_bounds (dayEnd + maxUtcOffsetSeconds - 1)
  have hdays : ∀ k ∈ List.range (((dayEnd + maxUtcOffsetSeconds - 1) / secondsPerDay *
      secondsPerDay - (dayStart + minUtcOffsetSeconds) / secondsPerDay * secondsPerDay) /
      secondsPerDay + 1).toNat,
      ∃ found, localDayRanges schedule dayStart dayEnd
        ((dayStart + minUtcOffsetSeconds) / secondsPerDay * secondsPerDay +
          (k * secondsPerDay : Nat)) = .ok found := by
    intro k hk
    rw [List.mem_range, ← Int.sub_mul, Int.mul_ediv_cancel _ hday.ne'] at hk
    have hle := Int.mul_le_mul_of_nonneg_right (visited_le hk) hday.le
    rw [Int.add_mul, ← Nat.cast_mul] at hle
    apply localDayRanges_accepts haccepted
    · omega
    · omega
  obtain ⟨found, hfound⟩ := exists_mapM_eq_ok.mpr hdays
  unfold weeklyRanges
  dsimp only
  rw [bmod_signed (hordered.trans_lt hsigned), bmod_signed hsigned,
    fitsI64_accepts (by omega) (by omega), ok_bind,
    fitsI64_accepts (by omega) (by omega), ok_bind, fitsI64_accepts (by omega) (by omega), ok_bind,
    fitsI64_accepts (by omega) (by omega), ok_bind, fitsI64_accepts (by omega) (by omega), ok_bind,
    hfound]
  exact ⟨_, rfl⟩

/-- A query that ends four days before the limit of the signed timestamps, or earlier, is
answered. -/
theorem computeRanges_accepts (haccepted : Accepted schedule)
    (hfits : endTs + 4 * secondsPerDay ≤ 2^63) :
    ∃ ranges, computeRanges schedule exceptions startTs endTs = .ok ranges := by
  have hdays : ∀ day ∈ queryDays startTs endTs,
      ∃ found, dayRanges schedule exceptions day = .ok found := by
    intro day hday
    have hlast : day * secondsPerDay ≤ endTs := by
      rw [mem_queryDays] at hday
      have hround := Nat.div_mul_le_self (endTs - 1) secondsPerDay
      have hle := Nat.mul_le_mul_right secondsPerDay hday.2
      omega
    obtain ⟨weekly, hweekly⟩ := weeklyRanges_accepts haccepted
      (Nat.le_add_right (day * secondsPerDay) secondsPerDay) (by omega)
    simp only [dayRanges, bind_eq_ok, orRefuse_eq_ok, fitsU_eq_some, pure_eq_ok]
    exact ⟨_, _, ⟨by omega, rfl⟩, weekly, hweekly, rfl⟩
  obtain ⟨days, hfound⟩ := exists_mapM_eq_ok.mpr hdays
  simp only [computeRanges, bind_eq_ok, pure_eq_ok]
  exact ⟨_, days, hfound, rfl⟩

end Acceptance

end ChainVerse.MentorshipAvailability
