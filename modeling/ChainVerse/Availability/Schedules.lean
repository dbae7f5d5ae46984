import ChainVerse.Availability.WallClock

namespace ChainVerse.MentorshipAvailability

variable {contract : Address} {schedule : AvailabilitySchedule}

section Windows

/-- A local time falls on the weekday and inside the minutes of a window. -/
def InWindow (localTs : Int) (window : WeeklyWindow) : Prop :=
  (localTs / secondsPerDay + epochWeekdayOffset) % 7 = window.weekday ∧
    window.startMinute * secondsPerMinute ≤ localTs % secondsPerDay ∧
    localTs % secondsPerDay < window.endMinute * secondsPerMinute

instance decidableInWindow (localTs : Int) (window : WeeklyWindow) :
    Decidable (InWindow localTs window) := inferInstanceAs (Decidable (_ ∧ _ ∧ _))

/-- A local time falls inside one of the weekly windows. -/
def InWindows (weekly : List WeeklyWindow) (localTs : Int) : Prop :=
  ∃ window ∈ weekly, InWindow localTs window

instance decidableInWindows (weekly : List WeeklyWindow) (localTs : Int) :
    Decidable (InWindows weekly localTs) :=
  inferInstanceAs (Decidable (∃ window ∈ weekly, InWindow localTs window))

theorem inWindows_append {weekly others : List WeeklyWindow} {localTs : Int} :
    InWindows (weekly ++ others) localTs ↔ InWindows weekly localTs ∨ InWindows others localTs := by
  simp only [InWindows, List.mem_append, or_and_right, exists_or]

theorem inWindows_singleton {window : WeeklyWindow} {localTs : Int} :
    InWindows [window] localTs ↔ InWindow localTs window := by simp [InWindows]

theorem pushWindow_concat (normalized : List WeeklyWindow) (last window : WeeklyWindow) :
    pushWindow (normalized ++ [last]) window =
      if last.weekday = window.weekday ∧ window.startMinute ≤ last.endMinute then
        normalized ++ [⟨last.weekday, last.startMinute,
          if last.endMinute < window.endMinute then window.endMinute else last.endMinute⟩]
      else normalized ++ [last] ++ [window] := by
  unfold pushWindow
  rw [List.getLast?_concat, List.dropLast_concat]

/-- Two windows of a weekday that touch allow together the local times of the merged one. -/
theorem inWindow_merged {last window : WeeklyWindow} (hweekday : last.weekday = window.weekday)
    (hstart : last.startMinute ≤ window.startMinute) (htouch : window.startMinute ≤ last.endMinute)
    (localTs : Int) :
    InWindow localTs ⟨last.weekday, last.startMinute,
        if last.endMinute < window.endMinute then window.endMinute else last.endMinute⟩ ↔
      InWindow localTs last ∨ InWindow localTs window := by
  unfold InWindow
  dsimp only
  rw [← hweekday]
  unfold secondsPerMinute
  split_ifs <;> omega

theorem validWindow_merged {last window : WeeklyWindow} (hlast : ValidWindow last)
    (hwindow : ValidWindow window) :
    ValidWindow ⟨last.weekday, last.startMinute,
      if last.endMinute < window.endMinute then window.endMinute else last.endMinute⟩ := by
  obtain ⟨hday, hnonempty, hlow, hhigh⟩ := hlast
  obtain ⟨_, _, _, hlater⟩ := hwindow
  refine ⟨hday, ?_, hlow, ?_⟩ <;> dsimp only <;> split_ifs <;> omega

theorem validWindows_concat {windows : List WeeklyWindow} {window : WeeklyWindow}
    (hwindows : ∀ w ∈ windows, ValidWindow w) (hwindow : ValidWindow window) :
    ∀ w ∈ windows ++ [window], ValidWindow w := by
  intro w hw
  rcases List.mem_append.mp hw with hw | hw
  · exact hwindows w hw
  · rw [List.mem_singleton.mp hw]
    exact hwindow

theorem getLast?_concat_of {windows : List WeeklyWindow} {window : WeeklyWindow}
    {p : WeeklyWindow → Prop} (h : p window) : ∀ last ∈ (windows ++ [window]).getLast?, p last := by
  intro last hlast
  rw [List.getLast?_concat, Option.mem_some_iff] at hlast
  rwa [← hlast]

/-- A window is merged into the last one of its weekday that it touches without a change of the
local times that the windows allow. -/
theorem pushWindow_spec {normalized : List WeeklyWindow} {window : WeeklyWindow}
    (hnormalized : ∀ w ∈ normalized, ValidWindow w) (hwindow : ValidWindow window)
    (hordered : ∀ last ∈ normalized.getLast?, last.weekday = window.weekday →
      last.startMinute ≤ window.startMinute) :
    (∀ w ∈ pushWindow normalized window, ValidWindow w) ∧
      (∀ last ∈ (pushWindow normalized window).getLast?, last.weekday = window.weekday ∧
        last.startMinute ≤ window.startMinute) ∧
      ∀ localTs, InWindows (pushWindow normalized window) localTs ↔
        InWindows normalized localTs ∨ InWindow localTs window := by
  have hadded : ∀ localTs, InWindows (normalized ++ [window]) localTs ↔
      InWindows normalized localTs ∨ InWindow localTs window := by
    intro localTs
    rw [inWindows_append, inWindows_singleton]
  rcases List.eq_nil_or_concat' normalized with rfl | ⟨init, last, rfl⟩
  · exact ⟨validWindows_concat hnormalized hwindow, getLast?_concat_of ⟨rfl, le_rfl⟩, hadded⟩
  · rw [pushWindow_concat]
    by_cases hmerge : last.weekday = window.weekday ∧ window.startMinute ≤ last.endMinute
    · rw [if_pos hmerge]
      obtain ⟨hweekday, htouch⟩ := hmerge
      have hstart := hordered last (by simp) hweekday
      have hinit : ∀ w ∈ init, ValidWindow w := fun w hw =>
        hnormalized w (List.mem_append_left _ hw)
      have hmerged := validWindow_merged (hnormalized last (by simp)) hwindow
      refine ⟨validWindows_concat hinit hmerged, getLast?_concat_of ⟨hweekday, hstart⟩, ?_⟩
      intro localTs
      rw [inWindows_append, inWindows_append, inWindows_singleton, inWindows_singleton, or_assoc,
        inWindow_merged hweekday hstart htouch]
    · rw [if_neg hmerge]
      exact ⟨validWindows_concat hnormalized hwindow, getLast?_concat_of ⟨rfl, le_rfl⟩, hadded⟩

/-- What the normalization accepts is a list of valid windows, and it leaves the local times that
they allow. -/
theorem normalizeFrom_spec {previous : Option WeeklyWindow}
    {normalized windows result : List WeeklyWindow}
    (h : normalizeFrom previous normalized windows = .ok result)
    (hnormalized : ∀ w ∈ normalized, ValidWindow w)
    (hlast : ∀ last ∈ normalized.getLast?, ∃ p, previous = some p ∧ last.weekday = p.weekday ∧
      last.startMinute ≤ p.startMinute) :
    (∀ w ∈ result, ValidWindow w) ∧ ∀ localTs, InWindows result localTs ↔
      InWindows normalized localTs ∨ InWindows windows localTs := by
  induction windows generalizing previous normalized with
  | nil =>
    rw [normalizeFrom, pure_eq_ok] at h
    subst h
    exact ⟨hnormalized, fun localTs => by simp [InWindows]⟩
  | cons window windows ih =>
    simp only [normalizeFrom, bind_eq_ok, refuseIf_eq_ok, exists_unit, not_not] at h
    obtain ⟨hwindow, hafter, hrest⟩ := h
    have hordered : ∀ last ∈ normalized.getLast?, last.weekday = window.weekday →
        last.startMinute ≤ window.startMinute := by
      intro last hmem hweekday
      obtain ⟨p, rfl, hsame, hstart⟩ := hlast last hmem
      simp only [Option.any_some, before, decide_eq_true_eq] at hafter
      omega
    obtain ⟨hpushed, hnewLast, hallowed⟩ := pushWindow_spec hnormalized hwindow hordered
    obtain ⟨hvalid, hall⟩ := ih hrest hpushed fun last hmem => ⟨window, rfl, hnewLast last hmem⟩
    refine ⟨hvalid, fun localTs => ?_⟩
    rw [hall, hallowed, or_assoc, ← inWindows_singleton, ← inWindows_append, List.singleton_append]

theorem normalizeWindows_spec {windows result : List WeeklyWindow}
    (h : normalizeWindows windows = .ok result) :
    (∀ w ∈ result, ValidWindow w) ∧
      ∀ localTs, InWindows result localTs ↔ InWindows windows localTs := by
  simp only [normalizeWindows, bind_eq_ok, refuseIf_eq_ok, exists_unit] at h
  obtain ⟨_, _, h⟩ := h
  obtain ⟨hvalid, hall⟩ := normalizeFrom_spec h (fun w hw => absurd hw List.not_mem_nil)
    (fun last hlast => by simp at hlast)
  refine ⟨hvalid, fun localTs => ?_⟩
  rw [hall]
  simp [InWindows]

end Windows

section Acceptance

/-- What a schedule that has passed the checks of `setSchedule` satisfies. -/
structure Accepted (schedule : AvailabilitySchedule) : Prop where
  offsets : ∀ offset ∈ offsets schedule, ValidOffset offset
  changes : schedule.offsetChanges.Pairwise fun c c' => c.effectiveFrom < c'.effectiveFrom
  windows : ∀ window ∈ schedule.weekly, ValidWindow window

theorem validateChanges_spec {changes : List OffsetChange} {previousFrom : Nat}
    {previousOffset : Int} {u : Unit}
    (h : validateChanges previousFrom previousOffset changes = .ok u) :
    (∀ change ∈ changes, previousFrom < change.effectiveFrom ∧
      ValidOffset change.utcOffsetSeconds) ∧
      changes.Pairwise fun c c' => c.effectiveFrom < c'.effectiveFrom := by
  induction changes generalizing previousFrom previousOffset with
  | nil => exact ⟨fun change hchange => absurd hchange List.not_mem_nil, List.Pairwise.nil⟩
  | cons change changes ih =>
    simp only [validateChanges, validateOffset, bind_eq_ok, refuseIf_eq_ok, exists_unit, not_not]
      at h
    obtain ⟨hfrom, hoffset, _, hrest⟩ := h
    obtain ⟨hlater, hsorted⟩ := ih hrest
    have hfirst : previousFrom < change.effectiveFrom := by omega
    refine ⟨?_, List.pairwise_cons.mpr ⟨fun c hc => (hlater c hc).1, hsorted⟩⟩
    intro c hc
    rcases List.mem_cons.mp hc with rfl | hc
    · exact ⟨hfirst, hoffset⟩
    · exact ⟨hfirst.trans (hlater c hc).1, (hlater c hc).2⟩

/-- A stored schedule keeps the offsets of its input and the local times that its windows allow. -/
theorem setSchedule_accepted {env : Env contract} {s s' : State} {participant : Address}
    {input : ScheduleInput} (h : setSchedule env s participant input = .ok (schedule, s')) :
    Accepted schedule ∧ schedule.utcOffsetSeconds = input.utcOffsetSeconds ∧
      schedule.offsetChanges = input.offsetChanges ∧
      ∀ localTs, InWindows schedule.weekly localTs ↔ InWindows input.weekly localTs := by
  simp only [setSchedule, validateOffset, bind_eq_ok, requireAuth_eq_ok, refuseIf_eq_ok,
    exists_unit, not_not, pure_eq_ok, Prod.mk.injEq] at h
  obtain ⟨_, _, hoffset, _, hchanges, weekly, hweekly, _, _, _, _, version, _, rfl, _⟩ := h
  obtain ⟨hvalid, hsorted⟩ := validateChanges_spec hchanges
  obtain ⟨hwindows, hallowed⟩ := normalizeWindows_spec hweekly
  refine ⟨⟨?_, hsorted, hwindows⟩, rfl, rfl, hallowed⟩
  intro offset hmem
  rcases List.mem_cons.mp hmem with hbase | hmem
  · rw [hbase]
    exact hoffset
  · obtain ⟨change, hchange, rfl⟩ := List.mem_map.mp hmem
    exact (hvalid change hchange).2

end Acceptance

section LocalTimes

variable {contract : Address} {env : Env contract} {s s' : State} {participant : Address}
  {input : ScheduleInput} {schedule : AvailabilitySchedule} {localTs candidate : Int}
  {best result : Option Nat}

section Candidates

theorem localCandidate_ok :
    (∃ result, localCandidate schedule localTs best candidate = .ok result) ↔
      -2^63 ≤ localTs - candidate ∧ localTs - candidate < 2^63 := by
  simp only [localCandidate, bind_eq_ok, orRefuse_eq_ok, fitsI64_eq_some]
  constructor
  · rintro ⟨_, _, ⟨hfits, _⟩, _⟩
    exact hfits
  · intro hfits
    by_cases hskip : localTs - candidate < 0 ∨
        offsetAt schedule (localTs - candidate).toNat ≠ candidate
    · exact ⟨best, _, ⟨hfits, rfl⟩, by rw [if_pos hskip]; rfl⟩
    · exact ⟨_, _, ⟨hfits, rfl⟩, by rw [if_neg hskip]; rfl⟩

theorem localCandidate_error {x : Abort AvailabilityError}
    (h : localCandidate schedule localTs best candidate = .error x) : x = .overflow := by
  simp only [localCandidate, bind_eq_error, orRefuse_eq_error] at h
  rcases h with ⟨_, rfl⟩ | ⟨utc, _, h⟩
  · rfl
  · split_ifs at h
    · exact absurd h pure_ne_error
    · exact absurd h pure_ne_error

/-- All the candidates are tried, and a subtraction that does not fit traps. -/
theorem foldlM_localCandidate (candidates : List Int) (best : Option Nat) :
    (∃ result, candidates.foldlM (localCandidate schedule localTs) best = .ok result) ∧
        (∀ candidate ∈ candidates, -2^63 ≤ localTs - candidate ∧ localTs - candidate < 2^63) ∨
      candidates.foldlM (localCandidate schedule localTs) best = .error .overflow ∧
        ∃ candidate ∈ candidates, ¬ (-2^63 ≤ localTs - candidate ∧ localTs - candidate < 2^63) := by
  induction candidates generalizing best with
  | nil => exact .inl ⟨⟨best, rfl⟩, fun candidate hmem => absurd hmem List.not_mem_nil⟩
  | cons first rest ih =>
    cases hfirst : localCandidate schedule localTs best first with
    | error x =>
      right
      refine ⟨?_, first, List.mem_cons_self, fun hfits => ?_⟩
      · rw [List.foldlM_cons, hfirst, localCandidate_error hfirst]
        rfl
      · obtain ⟨result, hok⟩ := localCandidate_ok.mpr hfits
        rw [hfirst] at hok
        cases hok
    | ok next =>
      have hfits := localCandidate_ok.mp ⟨next, hfirst⟩
      rw [List.foldlM_cons, hfirst, ok_bind]
      rcases ih next with ⟨hok, hall⟩ | ⟨herror, candidate, hmem, hover⟩
      · exact .inl ⟨hok, List.forall_mem_cons.mpr ⟨hfits, hall⟩⟩
      · exact .inr ⟨herror, candidate, List.mem_cons_of_mem _ hmem, hover⟩

end Candidates

section Conversion

/-- Under an accepted schedule a local time that stays within an `i64` under each of the offsets is
converted to the first instant that shows it, or to none if no instant does; any other one traps. -/
theorem localToUtc_accepted (h : setSchedule env s participant input = .ok (schedule, s'))
    (hpos : 0 ≤ localTs) :
    ((∀ offset ∈ offsets schedule, localTs - offset < 2^63) →
        ∃ result, localToUtc schedule localTs = .ok result ∧
          LeastOf {u | wallClock schedule u = localTs} result) ∧
      ((∃ offset ∈ offsets schedule, 2^63 ≤ localTs - offset) →
        localToUtc schedule localTs = .error .overflow) := by
  have haccepted := (setSchedule_accepted h).1
  have hlow : ∀ offset ∈ offsets schedule, -2^63 ≤ localTs - offset := by
    intro offset hoffset
    have hvalid := (haccepted.offsets offset hoffset).2
    unfold maxUtcOffsetSeconds at hvalid
    omega
  have hconversion : localToUtc schedule localTs =
      (offsets schedule).foldlM (localCandidate schedule localTs) none := by
    rw [localToUtc, if_neg (not_lt.mpr hpos)]
    rfl
  have htried := @foldlM_localCandidate schedule localTs (offsets schedule) none
  rw [← hconversion] at htried
  rcases htried with ⟨⟨result, hresult⟩, hall⟩ | ⟨herror, offset, hoffset, hover⟩
  · refine ⟨fun _ => ⟨result, hresult, localToUtc_spec hresult hpos⟩, ?_⟩
    rintro ⟨offset, hoffset, hover⟩
    exact absurd (hall offset hoffset).2 (not_lt.mpr hover)
  · refine ⟨fun hfits => ?_, fun _ => herror⟩
    exact absurd ⟨hlow offset hoffset, hfits offset hoffset⟩ hover

/-- A schedule at UTC-12:00 with one window. -/
def sampleWestInput : ScheduleInput := ⟨1, -43200, [], [⟨0, 60, 120⟩], 0, 0, 0, 30, 1, 0⟩

def sampleWest : AvailabilitySchedule :=
  ⟨⟨1⟩, 1, -43200, [], [⟨0, 60, 120⟩], 0, 0, 0, 30, 1, 0, true, 1, 10⟩

theorem localToUtc_accepted_sample :
    setSchedule Env.sample State.empty ⟨1⟩ sampleWestInput =
        .ok (sampleWest, putSchedule State.empty sampleWest) ∧
      ∃ result, localToUtc sampleWest 100 = .ok result ∧
        LeastOf {u | wallClock sampleWest u = 100} result := by
  have hset : setSchedule Env.sample State.empty ⟨1⟩ sampleWestInput =
      .ok (sampleWest, putSchedule State.empty sampleWest) := rfl
  exact ⟨hset, (localToUtc_accepted hset (by decide)).1 (by decide)⟩

/-- An instant shows the last local time there is, and its conversion traps. -/
theorem last_local_time_traps :
    setSchedule Env.sample State.empty ⟨1⟩ sampleWestInput =
        .ok (sampleWest, putSchedule State.empty sampleWest) ∧
      wallClock sampleWest (2^63 - 1 + 43200) = 2^63 - 1 ∧
      localToUtc sampleWest (2^63 - 1) = .error .overflow :=
  ⟨rfl, by decide, by decide⟩

end Conversion

end LocalTimes

end ChainVerse.MentorshipAvailability
