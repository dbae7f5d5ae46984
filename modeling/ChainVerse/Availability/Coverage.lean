import ChainVerse.Availability.Ranges
import ChainVerse.Framework.Coalescing
import Mathlib.Data.List.Perm.Basic
import Mathlib.Data.List.ReduceOption

namespace ChainVerse.MentorshipAvailability

variable {schedule : AvailabilitySchedule} {exceptions : List AvailabilityException}

/-- The instants that some range of the list contains. -/
abbrev points (ranges : List AvailableRange) : Set Nat :=
  covered AvailableRange.startTs AvailableRange.endTs ranges

abbrev Disjoined (ranges : List AvailableRange) : Prop :=
  Separated AvailableRange.startTs AvailableRange.endTs ranges

section Clipping

theorem clip_eq_some {startTs endTs lower upper : Nat} {range : AvailableRange} :
    clip startTs endTs lower upper = some range ↔
      max startTs lower < min endTs upper ∧ ⟨max startTs lower, min endTs upper⟩ = range := by
  unfold clip
  split_ifs with hempty
  · simp only [false_iff, not_and]
    intro hlt
    omega
  · simp only [Option.some.injEq]
    constructor
    · intro h
      exact ⟨by omega, h⟩
    · exact fun h => h.2

theorem points_clip (ranges : List AvailableRange) (lower upper : Nat) :
    points (ranges.filterMap fun range => clip range.startTs range.endTs lower upper) =
      {t | lower ≤ t ∧ t < upper ∧ t ∈ points ranges} := by
  ext t
  simp only [mem_covered, List.mem_filterMap, clip_eq_some, Set.mem_ofPred_eq]
  constructor
  · rintro ⟨_, ⟨range, hrange, _, rfl⟩, hlow, hhigh⟩
    dsimp only at hlow hhigh
    exact ⟨by omega, by omega, range, hrange, by omega, by omega⟩
  · rintro ⟨hlower, hupper, range, hrange, hlow, hhigh⟩
    exact ⟨_, ⟨range, hrange, by omega, rfl⟩, by dsimp only; omega, by dsimp only; omega⟩

/-- A range lies within its UTC day. -/
def WithinDay (day : Nat) (range : AvailableRange) : Prop :=
  day * secondsPerDay ≤ range.startTs ∧ range.startTs < range.endTs ∧
    range.endTs ≤ day * secondsPerDay + secondsPerDay

theorem clip_withinDay {startTs endTs day : Nat} {range : AvailableRange}
    (h : clip startTs endTs (day * secondsPerDay) (day * secondsPerDay + secondsPerDay) =
      some range) : WithinDay day range := by
  obtain ⟨hlt, rfl⟩ := clip_eq_some.mp h
  exact ⟨by dsimp only; omega, hlt, by dsimp only; omega⟩

theorem windowRange_clips {dayStart dayEnd : Nat} {localDay : Int} {window : WeeklyWindow}
    {range : AvailableRange}
    (h : windowRange schedule dayStart dayEnd localDay window = .ok (some range)) :
    ∃ utcStart utcEnd, clip utcStart utcEnd dayStart dayEnd = some range := by
  simp only [windowRange, bind_eq_ok] at h
  obtain ⟨_, _, _, _, found, _, h⟩ := h
  cases found with
  | none => simp at h
  | some utcStart =>
    simp only [bind_eq_ok] at h
    obtain ⟨found', _, h⟩ := h
    cases found' with
    | none => simp at h
    | some utcEnd => exact ⟨utcStart, utcEnd, pure_eq_ok.mp h⟩

/-- The days that the loop visits lie between its first and its last one. -/
theorem visited_le {first last : Int} {k : Nat} (h : k < (last - first + 1).toNat) :
    first + k ≤ last := by omega

/-- Every weekly range of a UTC day comes from a window of one local day of its loop. -/
theorem weeklyRanges_window {dayStart dayEnd : Nat} {ranges : List AvailableRange}
    (h : weeklyRanges schedule dayStart dayEnd = .ok ranges) {range : AvailableRange}
    (hrange : range ∈ ranges) :
    ∃ (localDay : Int) (window : WeeklyWindow), (secondsPerDay : Int) ∣ localDay ∧
      localDay < Int.bmod dayEnd (2^64) + maxUtcOffsetSeconds ∧
      window ∈ schedule.weekly ∧ window.weekday = weekdayOf localDay ∧
      windowRange schedule dayStart dayEnd localDay window = .ok (some range) := by
  simp only [weeklyRanges, bind_eq_ok, orRefuse_eq_ok, fitsI64_eq_some, pure_eq_ok] at h
  obtain ⟨localMin, _, localMax, ⟨_, hmax⟩, _, ⟨_, rfl⟩, _, ⟨_, rfl⟩, _, ⟨_, rfl⟩, found, hfound,
    rfl⟩ := h
  have hday : (0 : Int) < secondsPerDay := by decide
  rw [← Int.sub_mul, Int.mul_ediv_cancel _ hday.ne'] at hfound
  obtain ⟨onDay, honDay, hrange⟩ := List.mem_flatten.mp hrange
  obtain ⟨k, hcount, hk⟩ := mem_mapM hfound honDay
  rw [List.mem_range] at hcount
  simp only [localDayRanges, bind_eq_ok, pure_eq_ok] at hk
  obtain ⟨windows, hwindows, _, _, rfl⟩ := hk
  obtain ⟨window, hwindow, hrangeOf⟩ := mem_mapM hwindows (List.reduceOption_mem_iff.mp hrange)
  rw [List.mem_filter, decide_eq_true_eq] at hwindow
  refine ⟨_, window, ?_, ?_, hwindow.1, hwindow.2, hrangeOf⟩
  · exact Int.dvd_add (Int.dvd_mul_left _ _) (by rw [Nat.cast_mul]; exact Int.dvd_mul_left _ _)
  · have hle : (localMin / secondsPerDay + k) * secondsPerDay ≤ localMax - 1 :=
      (Int.mul_le_mul_of_nonneg_right (visited_le hcount) hday.le).trans
        (Int.ediv_mul_le _ hday.ne')
    rw [hmax, Nat.cast_mul, ← Int.add_mul]
    exact Int.lt_of_le_sub_one hle

theorem dayRanges_within {day : Nat} {ranges : List AvailableRange}
    (h : dayRanges schedule exceptions day = .ok ranges) {range : AvailableRange}
    (hrange : range ∈ ranges) : WithinDay day range := by
  simp only [dayRanges, bind_eq_ok, orRefuse_eq_ok, fitsU_eq_some, pure_eq_ok] at h
  obtain ⟨_, ⟨_, rfl⟩, weekly, hweekly, rfl⟩ := h
  rcases List.mem_append.mp hrange with hrange | hrange
  · obtain ⟨_, _, _, _, _, _, hwindow⟩ := weeklyRanges_window hweekly hrange
    obtain ⟨utcStart, utcEnd, hclip⟩ := windowRange_clips hwindow
    exact clip_withinDay hclip
  · obtain ⟨exception, _, hclip⟩ := List.mem_filterMap.mp hrange
    exact clip_withinDay hclip

end Clipping

section Sorting

theorem leastBelow_none {bound : Nat} {ranges : List AvailableRange}
    (h : leastBelow bound ranges = none) : ∀ range ∈ ranges, bound ≤ range.startTs := by
  induction ranges with
  | nil => simp
  | cons range ranges ih =>
    unfold leastBelow at h
    split_ifs at h with hlt
    · have hrest := ih (Option.map_eq_none_iff.mp h)
      intro r hr
      rcases List.mem_cons.mp hr with rfl | hr
      · exact not_lt.mp hlt
      · exact hrest r hr

/-- The scan of the selection sort finds a least start. -/
theorem leastBelow_some {bound index : Nat} {ranges : List AvailableRange}
    (h : leastBelow bound ranges = some index) :
    ∃ least, ranges[index]? = some least ∧ least.startTs < bound ∧
      ∀ range ∈ ranges, least.startTs ≤ range.startTs := by
  induction ranges generalizing bound index with
  | nil => cases h
  | cons range ranges ih =>
    unfold leastBelow at h
    split_ifs at h with hlt
    · rw [Option.some.injEq] at h
      rcases hscan : leastBelow range.startTs ranges with _ | later
      · rw [hscan] at h
        subst h
        refine ⟨range, rfl, hlt, fun r hr => ?_⟩
        rcases List.mem_cons.mp hr with rfl | hr
        · exact le_rfl
        · exact leastBelow_none hscan r hr
      · rw [hscan] at h
        subst h
        obtain ⟨least, hget, hbelow, hleast⟩ := ih hscan
        refine ⟨least, hget, hbelow.trans hlt, fun r hr => ?_⟩
        rcases List.mem_cons.mp hr with rfl | hr
        · exact hbelow.le
        · exact hleast r hr
    · obtain ⟨later, hscan, rfl⟩ := Option.map_eq_some_iff.mp h
      obtain ⟨least, hget, hbelow, hleast⟩ := ih hscan
      refine ⟨least, hget, hbelow, fun r hr => ?_⟩
      rcases List.mem_cons.mp hr with rfl | hr
      · exact hbelow.le.trans (not_lt.mp hlt)
      · exact hleast r hr

theorem selectionSort_perm (count : Nat) (ranges : List AvailableRange) :
    (selectionSort count ranges).Perm ranges := by
  induction count generalizing ranges with
  | zero => cases ranges <;> exact List.Perm.refl _
  | succ count ih =>
    cases ranges with
    | nil => exact List.Perm.refl _
    | cons range ranges =>
      unfold selectionSort
      split
      · exact (ih ranges).cons range
      · next index hscan =>
        rw [List.getD_eq_getElem?_getD]
        exact ((ih _).cons _).trans (ranges.getD_set_perm_cons index range)

theorem selectionSort_sorted {count : Nat} {ranges : List AvailableRange}
    (hcount : ranges.length ≤ count) :
    (selectionSort count ranges).Pairwise fun r r' => r.startTs ≤ r'.startTs := by
  induction count generalizing ranges with
  | zero =>
    rw [List.length_eq_zero_iff.mp (Nat.le_zero.mp hcount)]
    exact List.Pairwise.nil
  | succ count ih =>
    cases ranges with
    | nil => exact List.Pairwise.nil
    | cons range ranges =>
      rw [List.length_cons] at hcount
      unfold selectionSort
      split
      · next hscan =>
        refine List.pairwise_cons.mpr ⟨fun r hr => ?_, ih (by omega)⟩
        exact leastBelow_none hscan r ((selectionSort_perm _ _).mem_iff.mp hr)
      · next index hscan =>
        obtain ⟨least, hget, hbelow, hleast⟩ := leastBelow_some hscan
        rw [List.getD_eq_getElem?_getD, hget, Option.getD_some]
        refine List.pairwise_cons.mpr ⟨fun r hr => ?_, ih (by rw [List.length_set]; omega)⟩
        rcases List.mem_or_eq_of_mem_set ((selectionSort_perm _ _).mem_iff.mp hr) with hr | rfl
        · exact hleast r hr
        · exact hbelow.le

end Sorting

section Merging

/-- The range from the start of the first one to the end of the second one. -/
def joinRanges (first second : AvailableRange) : AvailableRange := ⟨first.startTs, second.endTs⟩

theorem joinRanges_joins :
    Joins AvailableRange.startTs AvailableRange.endTs joinRanges := ⟨fun _ _ => rfl, fun _ _ => rfl⟩

theorem pushRange_eq (merged : List AvailableRange) (candidate : AvailableRange) :
    pushRange merged candidate =
      pushSpan AvailableRange.startTs AvailableRange.endTs joinRanges merged candidate := by
  unfold pushRange pushSpan
  cases merged.getLast? with
  | none => rfl
  | some last => rfl

/-- Candidates in the order of their starts are merged into separated ranges over the same
instants. -/
theorem foldl_pushRange_spec {candidates : List AvailableRange}
    (hcandidates : ∀ range ∈ candidates, range.startTs < range.endTs)
    (hsorted : candidates.Pairwise fun r r' => r.startTs ≤ r'.startTs) :
    Disjoined (candidates.foldl pushRange []) ∧
      points (candidates.foldl pushRange []) = points candidates := by
  have hsame : pushRange = pushSpan AvailableRange.startTs AvailableRange.endTs joinRanges := by
    funext merged candidate
    exact pushRange_eq merged candidate
  rw [hsame]
  exact coalesce_spec joinRanges_joins hcandidates hsorted

theorem points_nil : points [] = ∅ := covered_nil

theorem points_append (ranges others : List AvailableRange) :
    points (ranges ++ others) = points ranges ∪ points others := covered_append _ _

theorem points_singleton (range : AvailableRange) :
    points [range] = {t | range.startTs ≤ t ∧ t < range.endTs} := by
  ext t
  simp [mem_covered]

end Merging

section Cutting

/-- The instants that an exception leaves alone. -/
def outside (blackout : AvailabilityException) : Set Nat :=
  {t | t < blackout.fromTs ∨ blackout.untilTs ≤ t}

theorem cutSegment_spec (blackout : AvailabilityException) {segment : AvailableRange}
    (hsegment : segment.startTs < segment.endTs) :
    Disjoined (cutSegment blackout segment) ∧
      points (cutSegment blackout segment) = points [segment] ∩ outside blackout := by
  have hblackout := blackout.nonempty
  unfold cutSegment
  split_ifs with hout hleft hright hright
  · refine ⟨separated_singleton hsegment, ?_⟩
    ext t
    simp only [points_singleton, outside, Set.mem_inter_iff, Set.mem_ofPred_eq]
    omega
  · refine ⟨?_, ?_⟩
    · apply (separated_singleton hleft).append (separated_singleton hright)
      simpa using hblackout
    · ext t
      simp only [points_append, points_singleton, outside, Set.mem_union, Set.mem_inter_iff,
        Set.mem_ofPred_eq]
      omega
  · refine ⟨separated_singleton hleft, ?_⟩
    ext t
    simp only [List.append_nil, points_singleton, outside, Set.mem_inter_iff, Set.mem_ofPred_eq]
    omega
  · refine ⟨separated_singleton hright, ?_⟩
    ext t
    simp only [List.nil_append, points_singleton, outside, Set.mem_inter_iff, Set.mem_ofPred_eq]
    omega
  · refine ⟨separated_nil, ?_⟩
    ext t
    simp only [List.append_nil, points_nil, points_singleton, outside, Set.mem_inter_iff,
      Set.mem_ofPred_eq, Set.mem_empty_iff_false, false_iff, not_and]
    intro hin
    omega

/-- Cutting segments at one exception after another. -/
theorem foldl_cutSegment_spec (blocked : List AvailabilityException)
    {segments : List AvailableRange} (hsegments : Disjoined segments) :
    Disjoined (blocked.foldl (fun segments blackout => segments.flatMap (cutSegment blackout))
        segments) ∧
      points (blocked.foldl (fun segments blackout => segments.flatMap (cutSegment blackout))
        segments) = points segments ∩ {t | ∀ blackout ∈ blocked, t ∈ outside blackout} := by
  induction blocked generalizing segments with
  | nil => exact ⟨hsegments, by simp⟩
  | cons blackout blocked ih =>
    have hcut : Disjoined (segments.flatMap (cutSegment blackout)) ∧
        points (segments.flatMap (cutSegment blackout)) = points segments ∩ outside blackout :=
      hsegments.restrict fun segment hsegment =>
        cutSegment_spec blackout (hsegments.nonempty segment hsegment)
    obtain ⟨hdisjoined, hpoints⟩ := hcut
    obtain ⟨hfolded, hall⟩ := ih hdisjoined
    refine ⟨hfolded, ?_⟩
    rw [List.foldl_cons, hall, hpoints, Set.inter_assoc]
    congr 1
    ext t
    simp only [Set.mem_inter_iff, Set.mem_ofPred_eq, List.forall_mem_cons]

theorem subtractBlocked_spec (blocked : List AvailabilityException)
    {merged : List AvailableRange} (hmerged : Disjoined merged) :
    Disjoined (subtractBlocked blocked merged) ∧
      points (subtractBlocked blocked merged) =
        points merged ∩ {t | ∀ blackout ∈ blocked, t ∈ outside blackout} := by
  unfold subtractBlocked
  split_ifs with hnone
  · subst hnone
    exact ⟨hmerged, by simp⟩
  · exact hmerged.restrict fun range hrange =>
      foldl_cutSegment_spec blocked (separated_singleton (hmerged.nonempty range hrange))

end Cutting

section Schedules

variable (schedule exceptions)

/-- The candidates of a day, none where the computation traps. -/
def rangesOn (day : Nat) : List AvailableRange :=
  (dayRanges schedule exceptions day).toOption.getD []

/-- The schedule and its exceptions leave an instant open, whatever the query. -/
def OpenAt (t : Nat) : Prop :=
  t ∈ points (rangesOn schedule exceptions (t / secondsPerDay)) ∧
    ∀ blackout ∈ exceptions.filter isBlocking, t ∈ outside blackout

/-- The candidates of a day within a query, in the order of their starts. -/
def sortedOn (startTs endTs day : Nat) : List AvailableRange :=
  let candidates := (rangesOn schedule exceptions day).filterMap fun range =>
    clip range.startTs range.endTs startTs endTs
  selectionSort candidates.length candidates

/-- The UTC days that a query touches. -/
def queryDays (startTs endTs : Nat) : List Nat :=
  List.range' (startTs / secondsPerDay) ((endTs - 1) / secondsPerDay + 1 - startTs / secondsPerDay)

variable {schedule exceptions} {startTs endTs : Nat}

theorem mem_queryDays {day : Nat} :
    day ∈ queryDays startTs endTs ↔
      startTs / secondsPerDay ≤ day ∧ day ≤ (endTs - 1) / secondsPerDay := by
  rw [queryDays, List.mem_range'_1]
  omega

theorem mem_queryDays_of_mem {t : Nat} (hlow : startTs ≤ t) (hhigh : t < endTs) :
    t / secondsPerDay ∈ queryDays startTs endTs := by
  rw [mem_queryDays]
  exact ⟨Nat.div_le_div_right hlow, Nat.div_le_div_right (by omega)⟩

theorem rangesOn_eq {day : Nat} {ranges : List AvailableRange}
    (h : dayRanges schedule exceptions day = .ok ranges) :
    rangesOn schedule exceptions day = ranges := by
  rw [rangesOn, h]
  rfl

theorem rangesOn_within {day : Nat} {range : AvailableRange}
    (h : range ∈ rangesOn schedule exceptions day) : WithinDay day range := by
  cases hday : dayRanges schedule exceptions day with
  | error trap =>
    rw [rangesOn, hday] at h
    exact absurd h List.not_mem_nil
  | ok ranges =>
    rw [rangesOn_eq hday] at h
    exact dayRanges_within hday h

theorem points_rangesOn {day t : Nat} (h : t ∈ points (rangesOn schedule exceptions day)) :
    day = t / secondsPerDay := by
  obtain ⟨range, hrange, hlow, hhigh⟩ := h
  obtain ⟨hstart, _, hend⟩ := rangesOn_within hrange
  unfold secondsPerDay at *
  omega

theorem mem_sortedOn {day : Nat} {range : AvailableRange}
    (h : range ∈ sortedOn schedule exceptions startTs endTs day) :
    WithinDay day range ∧ startTs ≤ range.startTs ∧ range.endTs ≤ endTs := by
  obtain ⟨original, horiginal, hclip⟩ :=
    List.mem_filterMap.mp ((selectionSort_perm _ _).mem_iff.mp h)
  obtain ⟨hlt, rfl⟩ := clip_eq_some.mp hclip
  obtain ⟨hstart, _, hend⟩ := rangesOn_within horiginal
  refine ⟨⟨?_, hlt, ?_⟩, ?_, ?_⟩ <;> dsimp only <;> omega

theorem points_sortedOn (day : Nat) :
    points (sortedOn schedule exceptions startTs endTs day) =
      {t | startTs ≤ t ∧ t < endTs ∧ t ∈ points (rangesOn schedule exceptions day)} := by
  rw [← points_clip]
  exact covered_perm (selectionSort_perm _ _)

/-- Day after day the candidates come in the order of their starts. -/
theorem sortedOn_sorted (days : List Nat) (hdays : days.Pairwise (· < ·)) :
    (days.flatMap (sortedOn schedule exceptions startTs endTs)).Pairwise
      fun r r' => r.startTs ≤ r'.startTs := by
  refine List.pairwise_flatMap.mpr ⟨fun day _ => selectionSort_sorted le_rfl, ?_⟩
  apply hdays.imp
  intro day day' hlt range hrange range' hrange'
  obtain ⟨⟨_, hnonempty, hend⟩, _⟩ := mem_sortedOn hrange
  obtain ⟨⟨hstart', _, _⟩, _⟩ := mem_sortedOn hrange'
  have hnext : (day + 1) * secondsPerDay ≤ day' * secondsPerDay :=
    Nat.mul_le_mul_right _ hlt
  rw [Nat.add_mul, one_mul] at hnext
  omega

theorem computeRanges_eq_ok {ranges : List AvailableRange}
    (h : computeRanges schedule exceptions startTs endTs = .ok ranges) :
    ranges = subtractBlocked (exceptions.filter isBlocking)
      (((queryDays startTs endTs).flatMap (sortedOn schedule exceptions startTs endTs)).foldl
        pushRange []) := by
  simp only [computeRanges, bind_eq_ok, pure_eq_ok] at h
  obtain ⟨days, hdays, rfl⟩ := h
  have hmap : days = (queryDays startTs endTs).map (rangesOn schedule exceptions) :=
    mapM_eq_map (fun _ _ => rangesOn_eq) hdays
  rw [hmap, List.foldl_map, List.foldl_flatMap]
  simp only [mergeDay, sortedOn]

/-- What a query answers: the open instants of its interval, as separated ranges. -/
theorem computeRanges_spec {ranges : List AvailableRange}
    (h : computeRanges schedule exceptions startTs endTs = .ok ranges) :
    Disjoined ranges ∧
      points ranges = {t | startTs ≤ t ∧ t < endTs ∧ OpenAt schedule exceptions t} := by
  have hsorted := @sortedOn_sorted schedule exceptions startTs endTs (queryDays startTs endTs)
    List.pairwise_lt_range'
  have hnonempty : ∀ range ∈ (queryDays startTs endTs).flatMap
      (sortedOn schedule exceptions startTs endTs), range.startTs < range.endTs := by
    intro range hrange
    obtain ⟨day, _, hday⟩ := List.mem_flatMap.mp hrange
    exact (mem_sortedOn hday).1.2.1
  obtain ⟨hmerged, hpoints⟩ := foldl_pushRange_spec hnonempty hsorted
  have hopen : ∀ t, t ∈ points ((queryDays startTs endTs).flatMap
      (sortedOn schedule exceptions startTs endTs)) ↔ startTs ≤ t ∧ t < endTs ∧
        t ∈ points (rangesOn schedule exceptions (t / secondsPerDay)) := by
    intro t
    rw [points, covered_flatMap]
    constructor
    · rintro ⟨day, _, ht⟩
      change t ∈ points _ at ht
      rw [points_sortedOn] at ht
      obtain ⟨hlow, hhigh, hin⟩ := ht
      exact ⟨hlow, hhigh, points_rangesOn hin ▸ hin⟩
    · rintro ⟨hlow, hhigh, hin⟩
      refine ⟨t / secondsPerDay, mem_queryDays_of_mem hlow hhigh, ?_⟩
      change t ∈ points _
      rw [points_sortedOn]
      exact ⟨hlow, hhigh, hin⟩
  obtain ⟨hdisjoined, hcut⟩ := subtractBlocked_spec (exceptions.filter isBlocking) hmerged
  rw [computeRanges_eq_ok h]
  refine ⟨hdisjoined, ?_⟩
  rw [hcut]
  ext t
  rw [Set.mem_inter_iff, hpoints, hopen]
  simp only [Set.mem_ofPred_eq, OpenAt, and_assoc]

theorem computeRanges_day {ranges : List AvailableRange} {day : Nat}
    (h : computeRanges schedule exceptions startTs endTs = .ok ranges)
    (hday : day ∈ queryDays startTs endTs) :
    ∃ found, dayRanges schedule exceptions day = .ok found := by
  simp only [computeRanges, bind_eq_ok, pure_eq_ok] at h
  obtain ⟨days, hdays, _⟩ := h
  exact exists_mapM_eq_ok.mp ⟨days, hdays⟩ day hday

/-- A query inside one that can be answered can be answered: it touches no other days. -/
theorem computeRanges_narrower {ranges : List AvailableRange} {startTs' endTs' : Nat}
    (h : computeRanges schedule exceptions startTs endTs = .ok ranges) (hstart : startTs ≤ startTs')
    (hend : endTs' ≤ endTs) :
    ∃ ranges', computeRanges schedule exceptions startTs' endTs' = .ok ranges' := by
  have hnarrow : ∀ day ∈ queryDays startTs' endTs',
      ∃ found, dayRanges schedule exceptions day = .ok found := by
    intro day hday
    rw [mem_queryDays] at hday
    refine computeRanges_day h (mem_queryDays.mpr ⟨?_, ?_⟩)
    · exact (Nat.div_le_div_right hstart).trans hday.1
    · exact hday.2.trans (Nat.div_le_div_right (by omega))
  obtain ⟨found, hfound⟩ := exists_mapM_eq_ok.mpr hnarrow
  simp only [computeRanges, bind_eq_ok, pure_eq_ok]
  exact ⟨_, found, hfound, rfl⟩

end Schedules

section Queries

variable {now : Nat} {s : State} {participant : Address} {fromTs untilTs : Nat}

/-- The schedule's guard rails allow an instant. -/
def Allows (now : Nat) (schedule : AvailabilitySchedule) (t : Nat) : Prop :=
  schedule.enabled = true ∧ schedule.effectiveFrom ≤ t ∧
    saturatingAdd now schedule.leadTimeSeconds ≤ t ∧
    t < saturatingAdd now (min (schedule.bookingHorizonDays * secondsPerDay) (2^64 - 1)) ∧
    (schedule.effectiveUntil ≠ 0 → t < schedule.effectiveUntil)

/-- A participant can be met at an instant, as far as its own calendar goes. -/
def AvailableAt (now : Nat) (s : State) (participant : Address) (t : Nat) : Prop :=
  ∃ schedule, s.schedule participant = some schedule ∧ Allows now schedule t ∧
    OpenAt schedule (loadExceptions s participant) t

theorem bookableWindow_some {startTs endTs : Nat}
    (h : bookableWindow now schedule fromTs untilTs = some (startTs, endTs)) (t : Nat) :
    startTs ≤ t ∧ t < endTs ↔ fromTs ≤ t ∧ t < untilTs ∧ Allows now schedule t := by
  unfold bookableWindow at h
  unfold Allows
  dsimp only at h
  generalize saturatingAdd now schedule.leadTimeSeconds = earliest at h ⊢
  generalize saturatingAdd now (min (schedule.bookingHorizonDays * secondsPerDay) (2^64 - 1)) =
    horizonEnd at h ⊢
  split_ifs at h with hdisabled hbounded hempty hempty
  · simp only [Option.some.injEq, Prod.mk.injEq] at h
    obtain ⟨rfl, rfl⟩ := h
    simp only [Bool.not_eq_false] at hdisabled
    simp only [hdisabled, true_and]
    omega
  · simp only [Option.some.injEq, Prod.mk.injEq] at h
    obtain ⟨rfl, rfl⟩ := h
    simp only [Bool.not_eq_false] at hdisabled
    simp only [hdisabled, true_and, hbounded, false_implies, and_true]
    omega

theorem bookableWindow_none (h : bookableWindow now schedule fromTs untilTs = none) (t : Nat) :
    ¬ (fromTs ≤ t ∧ t < untilTs ∧ Allows now schedule t) := by
  unfold bookableWindow at h
  unfold Allows
  dsimp only at h
  generalize saturatingAdd now schedule.leadTimeSeconds = earliest at h ⊢
  generalize saturatingAdd now (min (schedule.bookingHorizonDays * secondsPerDay) (2^64 - 1)) =
    horizonEnd at h ⊢
  rintro ⟨hfrom, huntil, henabled, heffective, hearliest, hhorizon, hends⟩
  simp only [henabled, Bool.true_eq_false, if_false] at h
  split_ifs at h with hbounded hempty hempty
  · have := hends hbounded
    omega
  · omega

theorem bookableWindow_narrower {fromTs' untilTs' startTs' endTs' : Nat}
    (h : bookableWindow now schedule fromTs' untilTs' = some (startTs', endTs'))
    (hfrom : fromTs ≤ fromTs') (huntil : untilTs' ≤ untilTs) :
    ∃ startTs endTs, bookableWindow now schedule fromTs untilTs = some (startTs, endTs) ∧
      startTs ≤ startTs' ∧ endTs' ≤ endTs := by
  unfold bookableWindow at h ⊢
  dsimp only at h ⊢
  generalize saturatingAdd now schedule.leadTimeSeconds = earliest at h ⊢
  generalize saturatingAdd now (min (schedule.bookingHorizonDays * secondsPerDay) (2^64 - 1)) =
    horizonEnd at h ⊢
  have hearlier : max (max fromTs schedule.effectiveFrom) earliest ≤
      max (max fromTs' schedule.effectiveFrom) earliest := by omega
  have hlater : min untilTs' horizonEnd ≤ min untilTs horizonEnd := by omega
  split_ifs at h with hdisabled hbounded hempty hempty <;>
    simp only [Option.some.injEq, Prod.mk.injEq] at h <;> obtain ⟨rfl, rfl⟩ := h
  · have hcut : min (min untilTs' horizonEnd) schedule.effectiveUntil ≤
        min (min untilTs horizonEnd) schedule.effectiveUntil := by omega
    rw [if_neg hdisabled, if_pos hbounded,
      if_neg fun hle => hempty (hcut.trans (hle.trans hearlier))]
    exact ⟨_, _, rfl, hearlier, hcut⟩
  · rw [if_neg hdisabled, if_neg hbounded,
      if_neg fun hle => hempty (hlater.trans (hle.trans hearlier))]
    exact ⟨_, _, rfl, hearlier, hlater⟩

/-- The ranges of a query cover the instants of its interval at which the participant is
available. -/
theorem queryRanges_spec {ranges : List AvailableRange}
    (h : queryRanges now s participant fromTs untilTs = .ok ranges) :
    Disjoined ranges ∧
      points ranges = {t | fromTs ≤ t ∧ t < untilTs ∧ AvailableAt now s participant t} := by
  simp only [queryRanges, loadSchedule, bind_eq_ok, orRefuse_eq_ok] at h
  obtain ⟨schedule, hschedule, h⟩ := h
  have hiff : ∀ t, AvailableAt now s participant t ↔
      Allows now schedule t ∧ OpenAt schedule (loadExceptions s participant) t := by
    simp [AvailableAt, hschedule]
  split at h
  · next hwindow =>
    have hnone := bookableWindow_none hwindow
    rw [← pure_eq_ok.mp h]
    refine ⟨separated_nil, ?_⟩
    rw [points_nil]
    ext t
    simp only [Set.mem_empty_iff_false, Set.mem_ofPred_eq, false_iff, hiff]
    exact fun hin => hnone t ⟨hin.1, hin.2.1, hin.2.2.1⟩
  · next startTs endTs hwindow =>
    obtain ⟨hdisjoined, hpoints⟩ := computeRanges_spec h
    refine ⟨hdisjoined, ?_⟩
    rw [hpoints]
    ext t
    have hbounds := bookableWindow_some hwindow t
    simp only [Set.mem_ofPred_eq, hiff]
    tauto

theorem queryRanges_narrower {ranges : List AvailableRange} {fromTs' untilTs' : Nat}
    (h : queryRanges now s participant fromTs untilTs = .ok ranges) (hfrom : fromTs ≤ fromTs')
    (huntil : untilTs' ≤ untilTs) :
    ∃ ranges', queryRanges now s participant fromTs' untilTs' = .ok ranges' := by
  simp only [queryRanges, loadSchedule, bind_eq_ok, orRefuse_eq_ok] at h ⊢
  obtain ⟨schedule, hschedule, h⟩ := h
  rcases hwindow' : bookableWindow now schedule fromTs' untilTs' with _ | ⟨startTs', endTs'⟩
  · refine ⟨[], schedule, hschedule, ?_⟩
    rw [hwindow']
    rfl
  · obtain ⟨startTs, endTs, hwindow, hstart, hend⟩ :=
      bookableWindow_narrower hwindow' hfrom huntil
    rw [hwindow] at h
    obtain ⟨ranges', hranges'⟩ := computeRanges_narrower h hstart hend
    refine ⟨ranges', schedule, hschedule, ?_⟩
    rw [hwindow']
    exact hranges'

end Queries

end ChainVerse.MentorshipAvailability
