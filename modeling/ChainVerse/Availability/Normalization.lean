import ChainVerse.Framework.Tables
import ChainVerse.Availability.Schedules

namespace ChainVerse.MentorshipAvailability

variable {contract : Address}

section Coverage

/-- The weekdays and minutes that a list of windows covers. -/
def coverage (windows : List WeeklyWindow) : Set (Nat × Nat) :=
  { point | ∃ window ∈ windows, window.weekday = point.1 ∧ window.startMinute ≤ point.2 ∧
    point.2 < window.endMinute }

/-- A valid window covers a minute exactly when it allows the local time at which that minute of
the first week begins. -/
theorem inWindow_minute {window : WeeklyWindow} (hvalid : ValidWindow window) {weekday minute : Nat}
    (hweekday : weekday ≤ 6) (hminute : minute < minutesPerDay) :
    InWindow (((weekday : Int) - epochWeekdayOffset) * secondsPerDay + minute * secondsPerMinute)
        window ↔
      window.weekday = weekday ∧ window.startMinute ≤ minute ∧ minute < window.endMinute := by
  obtain ⟨hday, _, _, hend⟩ := hvalid
  have hmod : ((minute : Int) * 60) / 86400 = 0 := by
    unfold minutesPerDay at hminute
    omega
  unfold InWindow epochWeekdayOffset secondsPerDay secondsPerMinute
  unfold minutesPerDay at hminute
  push_cast
  omega

theorem mem_coverage_iff {windows : List WeeklyWindow} (hvalid : ∀ w ∈ windows, ValidWindow w)
    {weekday minute : Nat} :
    (weekday, minute) ∈ coverage windows ↔ weekday ≤ 6 ∧ minute < minutesPerDay ∧
      InWindows windows
        (((weekday : Int) - epochWeekdayOffset) * secondsPerDay + minute * secondsPerMinute) := by
  constructor
  · rintro ⟨window, hmem, hday, hstart, hend⟩
    obtain ⟨hweekday, _, _, hlast⟩ := hvalid window hmem
    dsimp only at hday hstart hend
    have hbound : weekday ≤ 6 := hday ▸ hweekday
    have hminute : minute < minutesPerDay := by omega
    exact ⟨hbound, hminute, window, hmem,
      (inWindow_minute (hvalid window hmem) hbound hminute).mpr ⟨hday, hstart, hend⟩⟩
  · rintro ⟨hbound, hminute, window, hmem, hin⟩
    exact ⟨window, hmem, (inWindow_minute (hvalid window hmem) hbound hminute).mp hin⟩

/-- Lists of valid windows that allow the same local times cover the same minutes. -/
theorem coverage_congr {windows others : List WeeklyWindow}
    (hwindows : ∀ w ∈ windows, ValidWindow w) (hothers : ∀ w ∈ others, ValidWindow w)
    (h : ∀ localTs, InWindows windows localTs ↔ InWindows others localTs) :
    coverage windows = coverage others := by
  ext ⟨weekday, minute⟩
  rw [mem_coverage_iff hwindows, mem_coverage_iff hothers, h]

end Coverage

section Canonical

/-- A window of an earlier weekday, or one that ends before the other one of its weekday starts. -/
def Apart (window next : WeeklyWindow) : Prop :=
  window.weekday < next.weekday ∨
    window.weekday = next.weekday ∧ window.endMinute < next.startMinute

theorem apart_trans {w w' w'' : WeeklyWindow} (hvalid : ValidWindow w') (h : Apart w w')
    (h' : Apart w' w'') : Apart w w'' := by
  obtain ⟨_, hnonempty, _, _⟩ := hvalid
  unfold Apart at *
  omega

theorem before_of_apart {window next : WeeklyWindow} (hvalid : ValidWindow window)
    (h : Apart window next) : before window next = true := by
  obtain ⟨_, hnonempty, _, _⟩ := hvalid
  rw [before, decide_eq_true_iff]
  unfold Apart at h
  omega

/-- What the normalization leaves: windows in the order of the week, with a gap between any two of
a weekday. -/
structure Canonical (windows : List WeeklyWindow) : Prop where
  valid : ∀ window ∈ windows, ValidWindow window
  apart : windows.Pairwise Apart

theorem pairwise_apart_concat {init : List WeeklyWindow} {last : WeeklyWindow} :
    (init ++ [last]).Pairwise Apart ↔ init.Pairwise Apart ∧ ∀ w ∈ init, Apart w last := by
  simp [List.pairwise_append]

/-- A window that does not come before the last one keeps the list canonical. -/
theorem pushWindow_canonical {normalized : List WeeklyWindow} {window : WeeklyWindow}
    (hnormalized : Canonical normalized) (hwindow : ValidWindow window)
    (hordered : ∀ last ∈ normalized.getLast?, last.weekday < window.weekday ∨
      last.weekday = window.weekday ∧ last.startMinute ≤ window.startMinute) :
    Canonical (pushWindow normalized window) := by
  have hvalid := (pushWindow_spec hnormalized.valid hwindow fun last hlast hweekday => by
    rcases hordered last hlast with h | h
    · omega
    · exact h.2).1
  refine ⟨hvalid, ?_⟩
  rcases List.eq_nil_or_concat' normalized with rfl | ⟨init, last, rfl⟩
  · exact List.pairwise_singleton _ _
  · obtain ⟨hinit, hlast⟩ := pairwise_apart_concat.mp hnormalized.apart
    have hvalidLast := hnormalized.valid last (by simp)
    rw [pushWindow_concat]
    by_cases hmerge : last.weekday = window.weekday ∧ window.startMinute ≤ last.endMinute
    -- The merged window starts where the last one did, so what was apart from it still is.
    · rw [if_pos hmerge]
      exact pairwise_apart_concat.mpr ⟨hinit, hlast⟩
    · rw [if_neg hmerge]
      have hlater : Apart last window := by
        have := hordered last (by simp)
        unfold Apart
        omega
      refine pairwise_apart_concat.mpr ⟨hnormalized.apart, ?_⟩
      intro w hw
      rcases List.mem_append.mp hw with hw | hw
      · exact apart_trans hvalidLast (hlast w hw) hlater
      · rw [List.mem_singleton.mp hw]
        exact hlater

theorem pushWindow_length (normalized : List WeeklyWindow) (window : WeeklyWindow) :
    0 < (pushWindow normalized window).length ∧
      (pushWindow normalized window).length ≤ normalized.length + 1 := by
  rcases List.eq_nil_or_concat' normalized with rfl | ⟨init, last, rfl⟩
  · exact ⟨Nat.one_pos, le_rfl⟩
  · rw [pushWindow_concat]
    split_ifs <;> simp

/-- The loop keeps the windows canonical, and returns no more of them than it was given. -/
theorem normalizeFrom_canonical {previous : Option WeeklyWindow}
    {normalized windows result : List WeeklyWindow}
    (h : normalizeFrom previous normalized windows = .ok result)
    (hnormalized : Canonical normalized)
    (hlast : ∀ last ∈ normalized.getLast?, ∃ p, previous = some p ∧ last.weekday = p.weekday ∧
      last.startMinute ≤ p.startMinute) :
    Canonical result ∧ result.length ≤ normalized.length + windows.length ∧
      (0 < normalized.length + windows.length → 0 < result.length) := by
  induction windows generalizing previous normalized with
  | nil =>
    rw [normalizeFrom, pure_eq_ok] at h
    subst h
    exact ⟨hnormalized, le_rfl, id⟩
  | cons window windows ih =>
    simp only [normalizeFrom, bind_eq_ok, refuseIf_eq_ok, exists_unit, not_not] at h
    obtain ⟨hwindow, hafter, hrest⟩ := h
    have hordered : ∀ last ∈ normalized.getLast?, last.weekday < window.weekday ∨
        last.weekday = window.weekday ∧ last.startMinute ≤ window.startMinute := by
      intro last hmem
      obtain ⟨p, rfl, hsame, hstart⟩ := hlast last hmem
      simp only [Option.any_some, before, decide_eq_true_eq] at hafter
      omega
    have hnewLast := (pushWindow_spec hnormalized.valid hwindow fun last hmem hweekday => by
      rcases hordered last hmem with h | h
      · omega
      · exact h.2).2.1
    obtain ⟨hsome, hlength⟩ := pushWindow_length normalized window
    obtain ⟨hcanonical, hle, hpos⟩ := ih hrest (pushWindow_canonical hnormalized hwindow hordered)
      fun last hmem => ⟨window, rfl, hnewLast last hmem⟩
    refine ⟨hcanonical, ?_, fun _ => hpos (by omega)⟩
    rw [List.length_cons]
    omega

theorem normalizeFrom_valid {previous : Option WeeklyWindow}
    {normalized windows result : List WeeklyWindow}
    (h : normalizeFrom previous normalized windows = .ok result) :
    ∀ w ∈ windows, ValidWindow w := by
  induction windows generalizing previous normalized with
  | nil => exact fun _ hw => absurd hw List.not_mem_nil
  | cons window windows ih =>
    simp only [normalizeFrom, bind_eq_ok, refuseIf_eq_ok, exists_unit, not_not] at h
    obtain ⟨hwindow, _, hrest⟩ := h
    exact List.forall_mem_cons.mpr ⟨hwindow, ih hrest⟩

/-- A window apart from the last one is added to the list as it is. -/
theorem pushWindow_of_apart {normalized : List WeeklyWindow} {window : WeeklyWindow}
    (h : ∀ last ∈ normalized.getLast?, Apart last window) :
    pushWindow normalized window = normalized ++ [window] := by
  rcases List.eq_nil_or_concat' normalized with rfl | ⟨init, last, rfl⟩
  · rfl
  · have hapart := h last (by simp)
    unfold Apart at hapart
    rw [pushWindow_concat, if_neg (by omega)]

/-- The loop passes canonical windows through unchanged. -/
theorem normalizeFrom_of_canonical {normalized windows : List WeeklyWindow}
    (h : Canonical (normalized ++ windows)) :
    normalizeFrom normalized.getLast? normalized windows = .ok (normalized ++ windows) := by
  induction windows generalizing normalized with
  | nil => rw [List.append_nil]; rfl
  | cons window windows ih =>
    have hwindow : ValidWindow window := h.valid window (by simp)
    have happart : ∀ last ∈ normalized.getLast?, Apart last window := fun last hlast =>
      (List.pairwise_append.mp h.apart).2.2 last (List.mem_of_getLast? hlast) window (by simp)
    have hafter : ¬ normalized.getLast?.any (before window) = true := by
      rw [Option.any_eq_true]
      rintro ⟨last, hlast, hbefore⟩
      have hlater := before_of_apart (h.valid last
        (List.mem_append_left _ (List.mem_of_getLast? hlast))) (happart last hlast)
      simp only [before, decide_eq_true_eq] at hbefore hlater
      omega
    rw [List.append_cons] at h
    have hrest := ih h
    rw [List.getLast?_concat, ← List.append_cons] at hrest
    simp only [normalizeFrom, bind_eq_ok, refuseIf_eq_ok, exists_unit, not_not]
    refine ⟨hwindow, hafter, ?_⟩
    rw [pushWindow_of_apart happart]
    exact hrest

end Canonical

section Normalization

theorem canonical_nil : Canonical [] :=
  ⟨fun _ hw => absurd hw List.not_mem_nil, List.Pairwise.nil⟩

/-- What is accepted has between one window and the limit, and so has what is returned. -/
theorem normalizeWindows_canonical {windows result : List WeeklyWindow}
    (h : normalizeWindows windows = .ok result) :
    Canonical result ∧ 0 < result.length ∧ result.length ≤ maxWeeklyWindows := by
  simp only [normalizeWindows, bind_eq_ok, refuseIf_eq_ok, exists_unit] at h
  obtain ⟨hsome, hlimit, h⟩ := h
  obtain ⟨hcanonical, hle, hpos⟩ := normalizeFrom_canonical h canonical_nil fun last hlast => by
    simp at hlast
  rw [List.length_nil, Nat.zero_add] at hle hpos
  exact ⟨hcanonical, hpos (by omega), by omega⟩

theorem normalizeWindows_of_canonical {windows : List WeeklyWindow} (h : Canonical windows)
    (hsome : 0 < windows.length) (hlimit : windows.length ≤ maxWeeklyWindows) :
    normalizeWindows windows = .ok windows := by
  simp only [normalizeWindows, bind_eq_ok, refuseIf_eq_ok, exists_unit]
  exact ⟨by omega, by omega, @normalizeFrom_of_canonical [] windows h⟩

/-- The normalization of accepted windows covers the same weekdays and minutes, in the order of the
week and with a gap between any two windows of a weekday, and is its own normalization. -/
theorem normalizeWindows_normal {windows result : List WeeklyWindow}
    (h : normalizeWindows windows = .ok result) :
    coverage result = coverage windows ∧
      result.Pairwise (fun window next => before window next = true) ∧
      result.Pairwise (fun window next => window.weekday = next.weekday →
        window.endMinute < next.startMinute) ∧
      normalizeWindows result = .ok result := by
  obtain ⟨hcanonical, hsome, hlimit⟩ := normalizeWindows_canonical h
  obtain ⟨hvalid, hall⟩ := normalizeWindows_spec h
  have hinput : ∀ w ∈ windows, ValidWindow w := by
    simp only [normalizeWindows, bind_eq_ok, refuseIf_eq_ok, exists_unit] at h
    exact normalizeFrom_valid h.2.2
  refine ⟨coverage_congr hvalid hinput hall, ?_, ?_,
    normalizeWindows_of_canonical hcanonical hsome hlimit⟩
  · exact hcanonical.apart.imp_of_mem fun hmem _ hapart => before_of_apart (hvalid _ hmem) hapart
  · refine hcanonical.apart.imp fun hapart hsame => ?_
    unfold Apart at hapart
    omega

/-- Two windows of a Monday that touch, a nested one, and a window of the day after. -/
def weekSample : List WeeklyWindow := [⟨1, 540, 720⟩, ⟨1, 600, 660⟩, ⟨1, 720, 780⟩, ⟨2, 540, 600⟩]

theorem normalizeWindows_normal_sample :
    normalizeWindows [⟨1, 540, 780⟩, ⟨2, 540, 600⟩] = .ok [⟨1, 540, 780⟩, ⟨2, 540, 600⟩] :=
  (@normalizeWindows_normal weekSample _ (by rfl)).2.2.2

end Normalization

section Schedules

/-- Every stored schedule holds windows that their normalization leaves as they are. -/
def Normalized (s : State) : Prop :=
  ∀ participant, ∀ schedule ∈ s.schedule participant,
    normalizeWindows schedule.weekly = .ok schedule.weekly

variable {env : Env contract} {s s' : State}

theorem putSchedule_normalized {schedule : AvailabilitySchedule} (hs : Normalized s)
    (h : normalizeWindows schedule.weekly = .ok schedule.weekly) :
    Normalized (putSchedule s schedule) := by
  intro participant stored hstored
  rcases update_row_cases hstored with ⟨_, rfl⟩ | ⟨_, hold⟩
  · exact h
  · exact hs participant stored hold

theorem setSchedule_normalized {participant : Address} {input : ScheduleInput}
    {schedule : AvailabilitySchedule} (hs : Normalized s)
    (h : setSchedule env s participant input = .ok (schedule, s')) : Normalized s' := by
  simp only [setSchedule, bind_eq_ok, requireAuth_eq_ok, refuseIf_eq_ok, exists_unit, pure_eq_ok,
    Prod.mk.injEq] at h
  obtain ⟨_, _, _, _, _, weekly, hweekly, _, _, _, _, version, _, rfl, rfl⟩ := h
  obtain ⟨hcanonical, hsome, hlimit⟩ := normalizeWindows_canonical hweekly
  exact putSchedule_normalized hs (normalizeWindows_of_canonical hcanonical hsome hlimit)

theorem setEnabled_normalized {participant : Address} {enabled : Bool} (hs : Normalized s)
    (h : setEnabled env s participant enabled = .ok s') : Normalized s' := by
  simp only [setEnabled, loadSchedule, bind_eq_ok, requireAuth_eq_ok, exists_unit,
    orRefuse_eq_ok] at h
  obtain ⟨_, schedule, hschedule, h⟩ := h
  split_ifs at h
  · rw [pure_eq_ok] at h
    rwa [← h]
  · obtain ⟨version, _, h⟩ := bind_eq_ok.mp h
    rw [pure_eq_ok] at h
    subst h
    exact putSchedule_normalized hs (hs participant schedule hschedule)

theorem addException_schedule {participant : Address} {input : ExceptionInput}
    (h : addException env s participant input = .ok s') : s'.schedule = s.schedule := by
  simp only [addException, bind_eq_ok, requireAuth_eq_ok, exists_unit] at h
  obtain ⟨_, h⟩ := h
  split_ifs at h
  simp only [bind_eq_ok, refuseIf_eq_ok, exists_unit, pure_eq_ok] at h
  obtain ⟨_, _, _, rfl⟩ := h
  rfl

theorem step_normalized {i : Input contract} {o : Option AvailabilitySchedule} (hs : Normalized s)
    (h : (machine contract).step s i = .ok (o, s')) : Normalized s' := by
  obtain ⟨env, call⟩ := i
  cases call with
  | setSchedule participant input =>
    obtain ⟨⟨schedule, t⟩, hset, h⟩ := bind_eq_ok.mp h
    rw [pure_eq_ok, Prod.mk.injEq] at h
    rw [← h.2]
    exact setSchedule_normalized hs hset
  | setEnabled participant enabled =>
    obtain ⟨t, hset, h⟩ := map_eq_ok.mp h
    rw [Prod.mk.injEq] at h
    rw [← h.2]
    exact setEnabled_normalized hs hset
  | addException participant input =>
    obtain ⟨t, hadd, h⟩ := map_eq_ok.mp h
    rw [Prod.mk.injEq] at h
    rw [Normalized, ← h.2, addException_schedule hadd]
    exact hs
  | removeException participant id =>
    obtain ⟨t, hremove, h⟩ := map_eq_ok.mp h
    simp only [removeException, bind_eq_ok, requireAuth_eq_ok, refuseIf_eq_ok, exists_unit,
      pure_eq_ok] at hremove
    obtain ⟨_, _, rfl⟩ := hremove
    rw [Prod.mk.injEq] at h
    rw [← h.2]
    exact hs

/-- A schedule that is replaced by one with its own windows keeps them, in every reachable state. -/
theorem run_normalized (is : List (Input contract)) :
    Normalized ((machine contract).run State.empty is) :=
  Machine.run_invariant (fun _ _ h => by simp [State.empty] at h)
    (fun _ _ _ _ hs h => step_normalized hs h) is

end Schedules

end ChainVerse.MentorshipAvailability
