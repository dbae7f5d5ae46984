import ChainVerse.Framework.Listings
import ChainVerse.Slots.Bookings
import ChainVerse.Slots.Search
import Mathlib.Data.List.Sort

namespace ChainVerse.MentorshipSlots

open MentorshipAvailability (AvailabilitySummary AvailableRange AvailabilitySchedule AvailableAt
  Disjoined points queryRanges queryRanges_spec queryRanges_narrower)

variable {contract : Address} {env : Env contract} {s : State} {now : Nat}
  {calendars : Address → MentorshipAvailability.State}

section Reading

/-- Reading the pages of a list returns the list, unless it is longer than what is read at most. -/
theorem readPages_eq_ok {fetch : Nat → Option (List AvailableRange)}
    {ranges found : List AvailableRange}
    (hfetch : ∀ page, page < maxAvailabilityPages → fetch page =
      some ((ranges.drop (page * availabilityPageSize)).take availabilityPageSize))
    {pages page : Nat} (hpages : page + pages = maxAvailabilityPages)
    (hpage : page * availabilityPageSize ≤ ranges.length) :
    readPages fetch pages page (ranges.take (page * availabilityPageSize)) = .ok found ↔
      ranges.length ≤ maxAvailabilityRanges ∧ ranges = found := by
  simp only [maxAvailabilityPages, availabilityPageSize, maxAvailabilityRanges] at *
  induction pages generalizing page with
  | zero =>
    have hlong : ¬ ranges.length ≤ 192 := by omega
    simp [readPages, hlong]
  | succ pages ih =>
    have hlength : (ranges.take (page * 64)).length + ((ranges.drop (page * 64)).take 64).length =
        min ((page + 1) * 64) ranges.length := by
      simp only [List.length_take, List.length_drop]
      omega
    have happend : ranges.take (page * 64) ++ (ranges.drop (page * 64)).take 64 =
        ranges.take ((page + 1) * 64) := by
      rw [Nat.add_mul, one_mul, List.take_add]
    simp only [readPages, hfetch page (by omega), bind_eq_ok, orRefuse_eq_ok, refuseIf_eq_ok,
      exists_unit, Option.some.injEq, exists_eq_left', happend, maxAvailabilityRanges,
      availabilityPageSize, hlength, not_lt]
    by_cases hmore : (page + 1) * 64 ≤ ranges.length
    · have hfull : ¬ ((ranges.drop (page * 64)).take 64).length < 64 := by
        simp only [List.length_take, List.length_drop]
        omega
      rw [if_neg hfull, ih (by omega) hmore]
      constructor
      · exact fun h => h.2
      · exact fun h => ⟨by omega, h⟩
    · have hlast : ((ranges.drop (page * 64)).take 64).length < 64 := by
        simp only [List.length_take, List.length_drop]
        omega
      rw [if_pos hlast, pure_eq_ok, List.take_of_length_le (by omega)]
      constructor
      · exact fun h => ⟨by omega, h.2⟩
      · exact fun h => ⟨by omega, h.2⟩

theorem availableRanges_eq_ok {cal : MentorshipAvailability.State} {participant : Address}
    {fromTs untilTs page limit : Nat} {ranges : List AvailableRange} :
    MentorshipAvailability.availableRanges now cal participant fromTs untilTs page limit =
        .ok ranges ↔
      fromTs < untilTs ∧ untilTs - fromTs ≤ MentorshipAvailability.maxQuerySpanSeconds ∧
      ¬ (limit = 0 ∨ MentorshipAvailability.maxPageSize < limit ∨
        MentorshipAvailability.maxPage < page) ∧
      ∃ all, queryRanges now cal participant fromTs untilTs = .ok all ∧
        (all.drop (page * limit)).take limit = ranges := by
  simp only [MentorshipAvailability.availableRanges, bind_eq_ok, refuseIf_eq_ok, exists_unit,
    not_le, not_lt, pure_eq_ok]

/-- What the deployed availability contract serves to the page loop. -/
theorem readRanges_eq_ok {participant : Address} {fromTs untilTs : Nat}
    {ranges : List AvailableRange} :
    readRanges (peersAt now calendars) s participant fromTs untilTs = .ok ranges ↔
      ∃ address, s.availability = some address ∧ fromTs < untilTs ∧
        untilTs - fromTs ≤ MentorshipAvailability.maxQuerySpanSeconds ∧
        queryRanges now (calendars address) participant fromTs untilTs = .ok ranges ∧
        ranges.length ≤ maxAvailabilityRanges := by
  simp only [readRanges, availabilityAddress, bind_eq_ok, orRefuse_eq_ok]
  have hpages : ∀ {address all}, fromTs < untilTs →
      untilTs - fromTs ≤ MentorshipAvailability.maxQuerySpanSeconds →
      queryRanges now (calendars address) participant fromTs untilTs = .ok all →
      (readPages (fun page => (peersAt now calendars address).availableRanges participant fromTs
        untilTs page availabilityPageSize) maxAvailabilityPages 0 [] = .ok ranges ↔
        all.length ≤ maxAvailabilityRanges ∧ all = ranges) := by
    intro address all horder hspan hquery
    have hread := @readPages_eq_ok (fun page => (peersAt now calendars address).availableRanges
      participant fromTs untilTs page availabilityPageSize) all ranges
      (fun page hpage => toOption_eq_some.mpr (availableRanges_eq_ok.mpr
        ⟨horder, hspan, by
          simp only [maxAvailabilityPages, availabilityPageSize,
            MentorshipAvailability.maxPageSize, MentorshipAvailability.maxPage] at *
          omega, all, hquery, rfl⟩)) maxAvailabilityPages 0 (Nat.zero_add _) (by omega)
    rwa [Nat.zero_mul, List.take_zero] at hread
  constructor
  · rintro ⟨address, haddress, hread⟩
    have hfirst : ∃ first, (peersAt now calendars address).availableRanges participant fromTs
        untilTs 0 availabilityPageSize = some first := by
      simp only [maxAvailabilityPages, readPages, bind_eq_ok, orRefuse_eq_ok] at hread
      obtain ⟨first, hfirst, _⟩ := hread
      exact ⟨first, hfirst⟩
    obtain ⟨first, hfirst⟩ := hfirst
    obtain ⟨horder, hspan, _, all, hquery, _⟩ :=
      availableRanges_eq_ok.mp (toOption_eq_some.mp hfirst)
    obtain ⟨hlength, rfl⟩ := (hpages horder hspan hquery).mp hread
    exact ⟨address, haddress, horder, hspan, hquery, hlength⟩
  · rintro ⟨address, haddress, horder, hspan, hquery, hlength⟩
    exact ⟨address, haddress, (hpages horder hspan hquery).mpr ⟨hlength, rfl⟩⟩

theorem readSummary_eq_ok {participant : Address} {summary : AvailabilitySummary} :
    readSummary (peersAt now calendars) s participant = .ok summary ↔
      ∃ address schedule, s.availability = some address ∧
        (calendars address).schedule participant = some schedule ∧
        summary = ⟨schedule.participant, schedule.enabled, schedule.version,
          schedule.leadTimeSeconds, schedule.bufferBeforeSeconds, schedule.bufferAfterSeconds,
          schedule.bookingHorizonDays, schedule.effectiveFrom, schedule.effectiveUntil⟩ := by
  simp only [readSummary, availabilityAddress, peersAt, availabilityAt,
    MentorshipAvailability.availabilitySummary, MentorshipAvailability.loadSchedule, bind_eq_ok,
    orRefuse_eq_ok, toOption_eq_some, pure_eq_ok]
  constructor
  · rintro ⟨address, haddress, schedule, hschedule, rfl⟩
    exact ⟨address, schedule, haddress, hschedule, rfl⟩
  · rintro ⟨address, schedule, haddress, hschedule, rfl⟩
    exact ⟨address, haddress, schedule, hschedule, rfl⟩

end Reading

section Slots

/-- Within a search, a slot is covered by what is read for it alone exactly when it is covered by
what is read for the whole search. -/
theorem covered_alone {participant : Address} {startTs endTs a b : Nat}
    {ranges : List AvailableRange}
    (hread : readRanges (peersAt now calendars) s participant startTs endTs = .ok ranges)
    (hstart : startTs ≤ a) (hab : a < b) (hend : b ≤ endTs) :
    (∃ alone, readRanges (peersAt now calendars) s participant a b = .ok alone ∧
      rangesCover alone a b = true) ↔ rangesCover ranges a b = true := by
  obtain ⟨address, haddress, horder, hspan, hquery, _⟩ := readRanges_eq_ok.mp hread
  obtain ⟨hdisjoined, hpoints⟩ := queryRanges_spec hquery
  have hwhole : rangesCover ranges a b = true ↔
      ∀ t, a ≤ t → t < b → AvailableAt now (calendars address) participant t := by
    rw [rangesCover_points hdisjoined hab, hpoints]
    constructor
    · intro hsubset t hlow hhigh
      exact (hsubset ⟨hlow, hhigh⟩).2.2
    · intro hall t ht
      exact ⟨hstart.trans ht.1, ht.2.trans_le hend, hall t ht.1 ht.2⟩
  have halone : ∀ {alone}, queryRanges now (calendars address) participant a b = .ok alone →
      (rangesCover alone a b = true ↔
        ∀ t, a ≤ t → t < b → AvailableAt now (calendars address) participant t) := by
    intro alone hqueryAlone
    obtain ⟨hdisjoinedAlone, hpointsAlone⟩ := queryRanges_spec hqueryAlone
    rw [rangesCover_points hdisjoinedAlone hab, hpointsAlone]
    constructor
    · intro hsubset t hlow hhigh
      exact (hsubset ⟨hlow, hhigh⟩).2.2
    · intro hall t ht
      exact ⟨ht.1, ht.2, hall t ht.1 ht.2⟩
  rw [hwhole]
  constructor
  · rintro ⟨alone, hreadAlone, hcover⟩
    obtain ⟨address', haddress', _, _, hqueryAlone, _⟩ := readRanges_eq_ok.mp hreadAlone
    obtain rfl : address = address' := Option.some.inj (haddress.symm.trans haddress')
    exact (halone hqueryAlone).mp hcover
  · intro hall
    obtain ⟨alone, hqueryAlone⟩ := queryRanges_narrower hquery hstart hend
    have hcover := (halone hqueryAlone).mpr hall
    obtain ⟨hdisjoinedAlone, hpointsAlone⟩ := queryRanges_spec hqueryAlone
    -- The one range that fills the slot is all there is to read.
    have hlength : alone.length ≤ maxAvailabilityRanges := by
      obtain ⟨range, hrange, hlow, hhigh⟩ := rangesCover_iff.mp hcover
      have hinside : points alone ⊆ Set.Ico a b := by
        rw [hpointsAlone]
        exact fun t ht => ⟨ht.1, ht.2.1⟩
      rw [hdisjoinedAlone.eq_singleton (fun _ hr => hdisjoinedAlone.inside hinside hr) hrange hlow
        hhigh]
      simp [maxAvailabilityRanges]
    exact ⟨alone, readRanges_eq_ok.mpr ⟨address, haddress, hab, by omega, hqueryAlone, hlength⟩,
      hcover⟩

/-- Covered instants belong to an enabled schedule. -/
theorem enabled_of_covered {participant : Address} {startTs endTs a b : Nat}
    {ranges : List AvailableRange} {summary : AvailabilitySummary}
    (hread : readRanges (peersAt now calendars) s participant startTs endTs = .ok ranges)
    (hsummary : readSummary (peersAt now calendars) s participant = .ok summary) (hab : a < b)
    (hcover : rangesCover ranges a b = true) : summary.enabled = true := by
  obtain ⟨address, haddress, _, _, hquery, _⟩ := readRanges_eq_ok.mp hread
  obtain ⟨address', schedule, haddress', hschedule, rfl⟩ := readSummary_eq_ok.mp hsummary
  obtain rfl : address = address' := Option.some.inj (haddress.symm.trans haddress')
  obtain ⟨hdisjoined, hpoints⟩ := queryRanges_spec hquery
  have hin : a ∈ points ranges := (rangesCover_points hdisjoined hab).mp hcover ⟨le_rfl, hab⟩
  rw [hpoints] at hin
  obtain ⟨schedule', hschedule', hallows, _⟩ := hin.2.2
  obtain rfl : schedule = schedule' := Option.some.inj (hschedule.symm.trans hschedule')
  exact hallows.1

/-- Nothing stored in this contract is in the way of a participant's session. -/
def Clear (s : State) (participant : Address) (summary : AvailabilitySummary)
    (policy : ProgramPolicy) (startTs endTs : Nat) : Prop :=
  blackoutOverlaps (loadBlackouts s) policy.programId startTs endTs = false ∧
    bookingsConflict (participantBookings s participant) startTs endTs
      summary.bufferBeforeSeconds summary.bufferAfterSeconds = false ∧
    ∃ sessions, sessionsOnDay (participantBookings s participant) startTs = .ok sessions ∧
      sessions < policy.maxSessionsPerDay

/-- Within a search, a participant takes a session that what was read for the search covers and
that nothing stored is in the way of. -/
theorem takes_iff {participant : Address} {startTs endTs a b : Nat} {ranges : List AvailableRange}
    {summary : AvailabilitySummary} {policy : ProgramPolicy}
    (hread : readRanges (peersAt now calendars) s participant startTs endTs = .ok ranges)
    (hsummary : readSummary (peersAt now calendars) s participant = .ok summary)
    (hstart : startTs ≤ a) (hab : a < b) (hend : b ≤ endTs) :
    Takes (peersAt now calendars) s participant summary policy a b ↔
      rangesCover ranges a b = true ∧ Clear s participant summary policy a b := by
  rw [← covered_alone hread hstart hab hend]
  simp only [Takes, validateParticipantSlot_eq_ok, Clear]
  constructor
  · rintro ⟨alone, hreadAlone, _, hcover, hclear⟩
    exact ⟨⟨alone, hreadAlone, hcover⟩, hclear⟩
  · rintro ⟨⟨alone, hreadAlone, hcover⟩, hclear⟩
    exact ⟨alone, hreadAlone, enabled_of_covered hreadAlone hsummary hab hcover, hcover, hclear⟩

/-- The search for one page of a pair's slots. -/
def searchOf (s : State) (mentor mentee : Address) (policy : ProgramPolicy)
    (mentorSummary menteeSummary : AvailabilitySummary) (page limit : Nat) : Search :=
  ⟨policy, mentorSummary, menteeSummary, participantBookings s mentor,
    participantBookings s mentee, loadBlackouts s, page, limit⟩

theorem accepts_eq_true {search : Search} {t : Nat} :
    search.accepts t = true ↔ isFree search t (t + search.policy.durationSeconds) = .ok true := by
  constructor
  · intro h
    unfold Search.accepts at h
    rcases hfree : isFree search t (t + search.policy.durationSeconds) with trap | free
    · rw [hfree] at h
      cases h
    · rw [hfree] at h
      exact congrArg _ h
  · exact accepts_of_isFree

/-- The checks that are left when neither a blackout nor a booking is in the way. -/
theorem isFree_of_unblocked {search : Search} {t e : Nat}
    (hblackout : blackoutOverlaps search.blackouts search.policy.programId t e = false)
    (hmentor : bookingsConflict search.mentorBookings t e search.mentorSummary.bufferBeforeSeconds
      search.mentorSummary.bufferAfterSeconds = false)
    (hmentee : bookingsConflict search.menteeBookings t e search.menteeSummary.bufferBeforeSeconds
      search.menteeSummary.bufferAfterSeconds = false) :
    isFree search t e = .ok true ↔
      (∃ n, sessionsOnDay search.mentorBookings t = .ok n ∧
        n < search.policy.maxSessionsPerDay) ∧
      ∃ n, sessionsOnDay search.menteeBookings t = .ok n ∧
        n < search.policy.maxSessionsPerDay := by
  unfold isFree
  rw [if_neg (by simp [hblackout, hmentor, hmentee])]
  simp only [bind_eq_ok]
  constructor
  · rintro ⟨n, hn, h⟩
    split_ifs at h with hfull
    · cases h
    · obtain ⟨n', hn', h⟩ := bind_eq_ok.mp h
      exact ⟨⟨n, hn, not_le.mp hfull⟩, n', hn', by simpa using pure_eq_ok.mp h⟩
  · rintro ⟨⟨n, hn, hlt⟩, n', hn', hlt'⟩
    refine ⟨n, hn, ?_⟩
    rw [if_neg (not_le.mpr hlt)]
    exact bind_eq_ok.mpr ⟨n', hn', by simpa using hlt'⟩

theorem isFree_unblocked {search : Search} {t e : Nat} (h : isFree search t e = .ok true) :
    blackoutOverlaps search.blackouts search.policy.programId t e = false ∧
      bookingsConflict search.mentorBookings t e search.mentorSummary.bufferBeforeSeconds
        search.mentorSummary.bufferAfterSeconds = false ∧
      bookingsConflict search.menteeBookings t e search.menteeSummary.bufferBeforeSeconds
        search.menteeSummary.bufferAfterSeconds = false := by
  unfold isFree at h
  by_cases hblocked : blackoutOverlaps search.blackouts search.policy.programId t e = true ∨
      bookingsConflict search.mentorBookings t e search.mentorSummary.bufferBeforeSeconds
        search.mentorSummary.bufferAfterSeconds = true ∨
      bookingsConflict search.menteeBookings t e search.menteeSummary.bufferBeforeSeconds
        search.menteeSummary.bufferAfterSeconds = true
  · rw [if_pos hblocked] at h
    cases h
  · simpa only [not_or, Bool.not_eq_true] using hblocked

theorem accepts_iff {mentor mentee : Address} {policy : ProgramPolicy}
    {mentorSummary menteeSummary : AvailabilitySummary} {page limit t : Nat} :
    (searchOf s mentor mentee policy mentorSummary menteeSummary page limit).accepts t = true ↔
      Clear s mentor mentorSummary policy t (t + policy.durationSeconds) ∧
        Clear s mentee menteeSummary policy t (t + policy.durationSeconds) := by
  rw [accepts_eq_true]
  constructor
  · intro hfree
    obtain ⟨hblackout, hmentor, hmentee⟩ := isFree_unblocked hfree
    obtain ⟨hsessions, hsessions'⟩ := (isFree_of_unblocked hblackout hmentor hmentee).mp hfree
    exact ⟨⟨hblackout, hmentor, hsessions⟩, hblackout, hmentee, hsessions'⟩
  · rintro ⟨⟨hblackout, hmentor, hsessions⟩, _, hmentee, hsessions'⟩
    exact (isFree_of_unblocked hblackout hmentor hmentee).mpr ⟨hsessions, hsessions'⟩

end Slots

section Window

variable {policy : ProgramPolicy} {sm sn : AvailabilitySummary}

/-- The first instant that a search looks at. -/
def searchStart (env : Env contract) (sm sn : AvailabilitySummary) (fromTs : Nat) : Nat :=
  max fromTs (saturatingAdd env.timestamp (max sm.leadTimeSeconds sn.leadTimeSeconds))

/-- The booking horizon of a pair. -/
def pairHorizon (sm sn : AvailabilitySummary) : Nat :=
  min (sm.bookingHorizonDays * secondsPerDay) (sn.bookingHorizonDays * secondsPerDay)

def searchEnd (env : Env contract) (sm sn : AvailabilitySummary) (untilTs : Nat) : Nat :=
  min untilTs (saturatingAdd env.timestamp (pairHorizon sm sn))

/-- While the horizon is representable, a search looks at the sessions that booking finds timely. -/
theorem timely_iff {fromTs untilTs t : Nat} (hm : sm.bookingHorizonDays * secondsPerDay < 2^64)
    (hn : sn.bookingHorizonDays * secondsPerDay < 2^64)
    (hhorizon : env.timestamp + pairHorizon sm sn < 2^64) :
    fromTs ≤ t ∧ t + policy.durationSeconds ≤ untilTs ∧
        Timely env sm sn policy t (t + policy.durationSeconds) ↔
      searchStart env sm sn fromTs ≤ t ∧
        t + policy.durationSeconds ≤ searchEnd env sm sn untilTs := by
  have hduration := policy.duration_pos
  simp only [Timely, searchStart, searchEnd, saturatingAdd, pairHorizon] at *
  generalize max sm.leadTimeSeconds sn.leadTimeSeconds = lead
  generalize min (sm.bookingHorizonDays * secondsPerDay)
    (sn.bookingHorizonDays * secondsPerDay) = horizon at *
  constructor
  · rintro ⟨hfrom, huntil, _, hends, hlead, _, _, _, hlatest⟩
    exact ⟨by omega, by omega⟩
  · rintro ⟨hstart, hend⟩
    exact ⟨by omega, by omega, trivial, by omega, by omega, hm, hn, hhorizon, by omega⟩

theorem readRanges_inside {participant : Address} {startTs endTs a b : Nat}
    {ranges : List AvailableRange}
    (hread : readRanges (peersAt now calendars) s participant startTs endTs = .ok ranges)
    (hab : a < b) (hcover : rangesCover ranges a b = true) : startTs ≤ a ∧ b ≤ endTs := by
  obtain ⟨_, _, _, _, hquery, _⟩ := readRanges_eq_ok.mp hread
  obtain ⟨hdisjoined, hpoints⟩ := queryRanges_spec hquery
  have hsubset := (rangesCover_points hdisjoined hab).mp hcover
  rw [hpoints] at hsubset
  have hfirst := (hsubset ⟨le_rfl, hab⟩).1
  have hlast := (@hsubset (b - 1) ⟨by omega, by omega⟩).2.1
  omega

end Window

section Agreement

variable {peers : Peers} {mentor mentee : Address} {programId : Bytes32}
  {fromTs untilTs page limit : Nat}

theorem isSlotBookable_eq_true {t : Nat} :
    isSlotBookable env peers s mentor mentee programId t = .ok true ↔
      mentor ≠ mentee ∧ ∃ policy, s.policy programId = some policy ∧
        ∃ endTs, validateSlot env peers s mentor mentee policy t = .ok endTs := by
  simp only [isSlotBookable, loadPolicy, bind_eq_ok, refuseIf_eq_ok, exists_unit, orRefuse_eq_ok]
  refine and_congr_right fun _ => exists_congr fun policy => and_congr_right fun _ => ?_
  cases hvalid : validateSlot env peers s mentor mentee policy t with
  | ok endTs => simp
  | error trap => cases trap <;> simp

/-- The starts that a search of a range is for: those on the grid of the program whose slot lies in
the range and can be booked. -/
def Wanted (env : Env contract) (peers : Peers) (s : State) (mentor mentee : Address)
    (programId : Bytes32) (fromTs untilTs t : Nat) : Prop :=
  ∃ policy, s.policy programId = some policy ∧ policy.granularitySeconds ∣ t ∧ fromTs ≤ t ∧
    t + policy.durationSeconds ≤ untilTs ∧
    isSlotBookable env peers s mentor mentee programId t = .ok true

theorem wanted_iff {policy : ProgramPolicy} {sm sn : AvailabilitySummary} {t : Nat}
    (hparties : mentor ≠ mentee) (hpolicy : s.policy programId = some policy)
    (hsm : readSummary peers s mentor = .ok sm) (hsn : readSummary peers s mentee = .ok sn) :
    Wanted env peers s mentor mentee programId fromTs untilTs t ↔
      policy.granularitySeconds ∣ t ∧
      (fromTs ≤ t ∧ t + policy.durationSeconds ≤ untilTs ∧
        Timely env sm sn policy t (t + policy.durationSeconds)) ∧
      Takes peers s mentor sm policy t (t + policy.durationSeconds) ∧
      Takes peers s mentee sn policy t (t + policy.durationSeconds) := by
  simp only [Wanted, isSlotBookable_eq_true, validateSlot_eq_ok]
  constructor
  · rintro ⟨policy', hpolicy', hgrid, hfrom, huntil, _, policy'', hpolicy'', endTs, sm', sn', hsm',
      hsn', htimely, hm, hn⟩
    obtain rfl : policy = policy' := Option.some.inj (hpolicy.symm.trans hpolicy')
    obtain rfl : policy = policy'' := Option.some.inj (hpolicy.symm.trans hpolicy'')
    obtain rfl : sm = sm' := Except.ok.inj (hsm.symm.trans hsm')
    obtain rfl : sn = sn' := Except.ok.inj (hsn.symm.trans hsn')
    obtain rfl := htimely.1
    exact ⟨hgrid, ⟨hfrom, huntil, htimely⟩, hm, hn⟩
  · rintro ⟨hgrid, ⟨hfrom, huntil, htimely⟩, hm, hn⟩
    exact ⟨policy, hpolicy, hgrid, hfrom, huntil, hparties, policy, hpolicy, _, sm, sn, hsm, hsn,
      htimely, hm, hn⟩

/-- What a search finds in the ranges that both participants have within its bounds. -/
theorem mem_freeStarts {policy : ProgramPolicy} {sm sn : AvailabilitySummary}
    {startTs endTs t : Nat} {ms ns : List AvailableRange}
    (hsm : readSummary (peersAt now calendars) s mentor = .ok sm)
    (hsn : readSummary (peersAt now calendars) s mentee = .ok sn)
    (hms : readRanges (peersAt now calendars) s mentor startTs endTs = .ok ms)
    (hns : readRanges (peersAt now calendars) s mentee startTs endTs = .ok ns) :
    t ∈ (searchOf s mentor mentee policy sm sn page limit).freeStarts (realOverlaps ms ns) ↔
      policy.granularitySeconds ∣ t ∧
      (startTs ≤ t ∧ t + policy.durationSeconds ≤ endTs) ∧
      Takes (peersAt now calendars) s mentor sm policy t (t + policy.durationSeconds) ∧
      Takes (peersAt now calendars) s mentee sn policy t (t + policy.durationSeconds) := by
  obtain ⟨_, _, _, _, hmentor, _⟩ := readRanges_eq_ok.mp hms
  obtain ⟨_, _, _, _, hmentee, _⟩ := readRanges_eq_ok.mp hns
  have hlong : t < t + policy.durationSeconds := Nat.lt_add_of_pos_right policy.duration_pos
  have hboth := rangesCover_overlaps (queryRanges_spec hmentor).1 (queryRanges_spec hmentee).1 hlong
  have hfits : (∃ o ∈ realOverlaps ms ns, t ∈ gridStarts policy o) ↔
      policy.granularitySeconds ∣ t ∧ rangesCover ms t (t + policy.durationSeconds) = true ∧
        rangesCover ns t (t + policy.durationSeconds) = true := by
    rw [← hboth, rangesCover_iff]
    simp only [mem_gridStarts]
    constructor
    · rintro ⟨o, ho, hgrid, hstart, hend⟩
      exact ⟨hgrid, o, ho, hstart, hend⟩
    · rintro ⟨hgrid, o, ho, hstart, hend⟩
      exact ⟨o, ho, hgrid, hstart, hend⟩
  simp only [Search.freeStarts, List.mem_filter, List.mem_flatMap, accepts_iff]
  rw [show (searchOf s mentor mentee policy sm sn page limit).policy = policy from rfl, hfits]
  constructor
  · rintro ⟨⟨hgrid, hm, hn⟩, hclear, hclear'⟩
    obtain ⟨hstart, hend⟩ := readRanges_inside hms hlong hm
    exact ⟨hgrid, ⟨hstart, hend⟩, (takes_iff hms hsm hstart hlong hend).mpr ⟨hm, hclear⟩,
      (takes_iff hns hsn hstart hlong hend).mpr ⟨hn, hclear'⟩⟩
  · rintro ⟨hgrid, ⟨hstart, hend⟩, hm, hn⟩
    obtain ⟨hm, hclear⟩ := (takes_iff hms hsm hstart hlong hend).mp hm
    obtain ⟨hn, hclear'⟩ := (takes_iff hns hsn hstart hlong hend).mp hn
    exact ⟨⟨hgrid, hm, hn⟩, hclear, hclear'⟩

theorem scanned_nil {search : Search} (h : 0 < search.limit) : Scanned search [] 0 [] := by
  refine ⟨rfl, by simp [Search.pageOf], ?_⟩
  rw [target_eq, List.length_nil]
  omega

/-- The time of the smaller booking horizon is representable. -/
def HorizonFits (env : Env contract) (peers : Peers) (s : State) (mentor mentee : Address) :
    Prop :=
  ∀ sm sn, readSummary peers s mentor = .ok sm → readSummary peers s mentee = .ok sn →
    env.timestamp + pairHorizon sm sn < 2^64

/-- A page is a part of one sorted list of all that is wanted. -/
theorem findSlots_page {slots : List Slot}
    (hhorizon : HorizonFits env (peersAt env.timestamp calendars) s mentor mentee)
    (h : findSlots env (peersAt env.timestamp calendars) s mentor mentee programId fromTs untilTs
      page limit = .ok slots) :
    ∃ starts : List Nat, starts.Pairwise (· < ·) ∧
      (∀ t, t ∈ starts ↔ Wanted env (peersAt env.timestamp calendars) s mentor mentee programId
        fromTs untilTs t) ∧
      slots.map (·.startTs) = (starts.drop (page * limit)).take limit ∧
      ∀ slot ∈ slots, ∃ policy, s.policy programId = some policy ∧
        slot.endTs = slot.startTs + policy.durationSeconds := by
  simp only [findSlots, bind_eq_ok, refuseIf_eq_ok, exists_unit, loadPolicy, orRefuse_eq_ok,
    fitsU_eq_some] at h
  obtain ⟨hparties, _, _, hpaging, _, policy, hpolicy, sm, hsm, sn, hsn, _, ⟨hm, rfl⟩, _, ⟨hn, rfl⟩, h⟩ := h
  have hlimit : 0 < limit := by omega
  have hwindow := @timely_iff _ env policy sm sn fromTs untilTs
  change (if searchEnd env sm sn untilTs ≤ searchStart env sm sn fromTs then _ else _) = _ at h
  by_cases hempty : searchEnd env sm sn untilTs ≤ searchStart env sm sn fromTs
  · rw [if_pos hempty] at h
    obtain rfl := pure_eq_ok.mp h
    refine ⟨[], List.Pairwise.nil, fun t => ?_, by simp, by simp⟩
    simp only [List.not_mem_nil, false_iff, wanted_iff hparties hpolicy hsm hsn,
      hwindow hm hn (hhorizon sm sn hsm hsn)]
    rintro ⟨_, ⟨hstart, hend⟩, _⟩
    have hduration := policy.duration_pos
    omega
  · rw [if_neg hempty] at h
    simp only [bind_eq_ok] at h
    obtain ⟨ms, hms, ns, hns, hscan⟩ := h
    obtain ⟨_, _, _, _, hmentor, _⟩ := readRanges_eq_ok.mp hms
    obtain ⟨_, _, _, _, hmentee, _⟩ := readRanges_eq_ok.mp hns
    have hpage := @scanOverlaps_spec (searchOf s mentor mentee policy sm sn page limit) _
      ⟨maxCollectedCandidates * 8, 0, []⟩ [] slots (scanned_nil hlimit) hscan
    rw [List.nil_append] at hpage
    refine ⟨(searchOf s mentor mentee policy sm sn page limit).freeStarts (realOverlaps ms ns),
      (flatMap_gridStarts_sorted policy (realOverlaps_disjoined (queryRanges_spec hmentor).1
        (queryRanges_spec hmentee).1)).filter _, fun t => ?_, ?_, ?_⟩
    · rw [wanted_iff hparties hpolicy hsm hsn, hwindow hm hn (hhorizon sm sn hsm hsn)]
      exact mem_freeStarts hsm hsn hms hns
    · rw [hpage, Search.pageOf, List.map_map]
      exact List.map_id _
    · intro slot hslot
      rw [hpage] at hslot
      obtain ⟨t, _, rfl⟩ := List.mem_map.mp hslot
      exact ⟨policy, hpolicy, rfl⟩

/-- A slot that a search lists is taken by a booking under a new id. -/
theorem wanted_booked {env : Env contract} {slot : Slot} {caller : Address} {id : Bytes32}
    (hwanted : Wanted env peers s mentor mentee programId fromTs untilTs slot.startTs)
    (hend : ∃ policy, s.policy programId = some policy ∧
      slot.endTs = slot.startTs + policy.durationSeconds)
    (hmay : MayBook env s caller mentor mentee id) (hfresh : s.booking id = none) :
    ∃ s', bookSlot env peers s caller id mentor mentee programId slot.startTs =
      .ok (slot.endTs, s') := by
  obtain ⟨_, _, _, _, _, hbookable⟩ := hwanted
  obtain ⟨_, policy, hpolicy, endTs, hvalid⟩ := isSlotBookable_eq_true.mp hbookable
  obtain ⟨policy', hpolicy', hslot⟩ := hend
  obtain rfl : policy = policy' := Option.some.inj (hpolicy.symm.trans hpolicy')
  obtain ⟨_, _, _, _, htimely, _⟩ := validateSlot_eq_ok.mp hvalid
  rw [hslot, ← htimely.1]
  exact ⟨_, (bookSlot_eq_ok hfresh).mpr ⟨hmay, policy, hpolicy, hvalid, rfl⟩⟩

/-- The pages of a search up to one that is not full list what can be booked, in order and without
a gap, and every listed slot is taken by a booking. -/
theorem findSlots_lists_bookable {pages : Nat → List Slot} {last : Nat}
    (hhorizon : HorizonFits env (peersAt env.timestamp calendars) s mentor mentee)
    (hpages : ∀ page ≤ last, findSlots env (peersAt env.timestamp calendars) s mentor mentee
      programId fromTs untilTs page limit = .ok (pages page))
    (hlast : (pages last).length < limit) :
    let listed := (List.range (last + 1)).flatMap pages
    (listed.map (·.startTs)).Pairwise (· < ·) ∧
    (∀ t, t ∈ listed.map (·.startTs) ↔ Wanted env (peersAt env.timestamp calendars) s mentor
      mentee programId fromTs untilTs t) ∧
    ∀ slot ∈ listed, ∀ caller id, MayBook env s caller mentor mentee id → s.booking id = none →
      ∃ s', bookSlot env (peersAt env.timestamp calendars) s caller id mentor mentee programId
        slot.startTs = .ok (slot.endTs, s') := by
  intro listed
  obtain ⟨starts, hsorted, hwanted, hstarts, _⟩ := findSlots_page hhorizon (hpages last le_rfl)
  -- Every page is cut from the same list, as a sorted list is determined by its members.
  have hsame : ∀ page ≤ last, (pages page).map (·.startTs) =
      (starts.drop (page * limit)).take limit := by
    intro page hpage
    obtain ⟨starts', hsorted', hwanted', hstarts', _⟩ := findSlots_page hhorizon (hpages page hpage)
    rw [hstarts', hsorted'.eq_of_mem_iff hsorted fun t => (hwanted' t).trans (hwanted t).symm]
  have hlength : starts.length ≤ (last + 1) * limit := by
    have hshort := congrArg List.length hstarts
    rw [List.length_map, List.length_take, List.length_drop] at hshort
    rw [Nat.add_mul]
    omega
  have hlisted : listed.map (·.startTs) = starts := by
    have hcut : listed.map (·.startTs) =
        (List.range (last + 1)).flatMap fun page => (starts.drop (page * limit)).take limit := by
      rw [List.map_flatMap]
      apply List.flatMap_congr
      intro page hpage
      exact hsame page (Nat.lt_succ_iff.mp (List.mem_range.mp hpage))
    rw [hcut, flatMap_pages, List.take_of_length_le hlength]
  rw [hlisted]
  refine ⟨hsorted, hwanted, ?_⟩
  intro slot hslot caller id hmay hfresh
  have hmem : slot.startTs ∈ starts := hlisted ▸ List.mem_map_of_mem hslot
  obtain ⟨page, hpage, honpage⟩ := List.mem_flatMap.mp hslot
  obtain ⟨_, _, _, _, hends⟩ :=
    findSlots_page hhorizon (hpages page (Nat.lt_succ_iff.mp (List.mem_range.mp hpage)))
  exact wanted_booked ((hwanted _).mp hmem) (hends slot honpage) hmay hfresh

/-- A schedule of one UTC hour on Sundays, bookable thirty days ahead. -/
def sampleSchedule (participant : Address) : AvailabilitySchedule :=
  ⟨participant, 1, 0, [], [⟨0, 540, 600⟩], 0, 0, 0, 30, 1, 0, true, 1, 10⟩

/-- Everybody is available for one more stretch of time. -/
def sampleCalendars (fromTs untilTs : Nat) (h : fromTs < untilTs) :
    Address → MentorshipAvailability.State := fun _ =>
  { schedule := fun p => some (sampleSchedule p)
    exceptionIds := fun _ => [5]
    availabilityException := fun _ id =>
      if id = 5 then some ⟨5, .available, fromTs, untilTs, 0, 10, h⟩ else none }

theorem findSlots_lists_bookable_sample :
    let s := (machine ⟨0⟩).run State.empty sampleSetup
    let peers := peersAt sampleEnv.timestamp (sampleCalendars 3600 7200 (by decide))
    let slots : List Slot := [⟨3600, 5400, 1, 1⟩, ⟨4500, 6300, 1, 1⟩, ⟨5400, 7200, 1, 1⟩]
    (slots.map (·.startTs)).Pairwise (· < ·) ∧
    (∀ t, t ∈ slots.map (·.startTs) ↔ Wanted sampleEnv peers s ⟨1⟩ ⟨2⟩ 1 600 86400 t) ∧
    ∀ slot ∈ slots, ∀ caller id, MayBook sampleEnv s caller ⟨1⟩ ⟨2⟩ id → s.booking id = none →
      ∃ s', bookSlot sampleEnv peers s caller id ⟨1⟩ ⟨2⟩ 1 slot.startTs =
        .ok (slot.endTs, s') := by
  intro s peers slots
  have hsummary : ∀ p, readSummary peers s p = .ok ⟨p, true, 1, 0, 0, 0, 30, 1, 0⟩ := fun _ => rfl
  have hhorizon : HorizonFits sampleEnv peers s ⟨1⟩ ⟨2⟩ := by
    intro sm sn hsm hsn
    obtain rfl := Except.ok.inj ((hsummary _).symm.trans hsm)
    obtain rfl := Except.ok.inj ((hsummary _).symm.trans hsn)
    decide
  have hpages : findSlots sampleEnv peers s ⟨1⟩ ⟨2⟩ 1 600 86400 0 8 = .ok slots := by
    decide +kernel
  have hlast : slots.length < 8 := by
    show 3 < 8
    decide
  have hall : ∀ page ≤ 0, findSlots sampleEnv peers s ⟨1⟩ ⟨2⟩ 1 600 86400 page 8 = .ok slots := by
    intro page hpage
    rw [Nat.le_zero.mp hpage]
    exact hpages
  exact @findSlots_lists_bookable _ sampleEnv s _ ⟨1⟩ ⟨2⟩ 1 600 86400 8 (fun _ => slots) 0 hhorizon
    hall hlast

/-- An invocation fifteen days before the last representable instant. -/
def lateEnv : Env ⟨0⟩ := .signedByAll ⟨0⟩ (213503982334586 * 86400) (by decide)

/-- Where the booking horizon is not representable, a search lists a slot that cannot be booked. -/
theorem findSlots_past_horizon :
    let s := (machine ⟨0⟩).run State.empty sampleSetup
    let now := 213503982334586 * 86400
    let peers := peersAt now (sampleCalendars (now + 3600) (now + 5400) (by omega))
    findSlots lateEnv peers s ⟨1⟩ ⟨2⟩ 1 now (now + 86400) 0 8 =
        .ok [⟨now + 3600, now + 5400, 1, 1⟩] ∧
      isSlotBookable lateEnv peers s ⟨1⟩ ⟨2⟩ 1 (now + 3600) = .ok false := by
  decide +kernel

end Agreement

end ChainVerse.MentorshipSlots
