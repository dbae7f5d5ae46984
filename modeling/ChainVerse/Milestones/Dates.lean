import ChainVerse.Milestones.Schedules

namespace ChainVerse.ScholarshipMilestones

section Releases

variable {contract : Address} {env : Env contract} {s s' : State} {admin : Address}
  {awardId : Bytes32} {index : Nat} {milestone : Milestone} {schedule : MilestoneSchedule}

/-- A milestone of an award is unreleased in one state and released in the next one. -/
structure Marks (s s' : State) (awardId : Bytes32) (index : Nat) (milestone : Milestone) : Prop where
  before : ∃ schedule, s.schedule awardId = some schedule ∧
    schedule.milestones[index]? = some milestone
  unreleased : milestone.released = false
  after : ∃ schedule marked, s'.schedule awardId = some schedule ∧
    schedule.milestones[index]? = some marked ∧ marked.released = true

theorem marks_release (hs : s.Sound)
    (h : Releasable env s admin awardId index schedule milestone) :
    Marks s (putSchedule s { schedule with
      milestones := schedule.milestones.set index { milestone with released := true } })
      awardId index milestone := by
  have hid := (hs awardId schedule h.found).1
  have hin := (List.getElem?_eq_some_iff.mp h.stands).1
  refine ⟨⟨schedule, h.found, h.stands⟩, h.unreleased, { schedule with
    milestones := schedule.milestones.set index { milestone with released := true } },
    { milestone with released := true }, ?_, List.getElem?_set_self hin, rfl⟩
  rw [putSchedule, ← hid]
  exact Function.update_self _ _ _

/-- A milestone is marked by a change of its award's schedule. -/
theorem Marks.changed (h : Marks s s' awardId index milestone) :
    s.schedule awardId ≠ s'.schedule awardId := by
  intro hsame
  obtain ⟨⟨schedule, hfound, hstands⟩, hunreleased, written, marked, hwritten, hmarked, hreleased⟩ := h
  rw [← hsame, hfound, Option.some.injEq] at hwritten
  subst hwritten
  rw [hstands, Option.some.injEq] at hmarked
  rw [← hmarked, hunreleased] at hreleased
  cases hreleased

/-- A write marks only milestones of the schedule that is written. -/
theorem Marks.written {written : MilestoneSchedule}
    (h : Marks s (putSchedule s written) awardId index milestone) :
    awardId = written.awardId ∧ ∃ marked, written.milestones[index]? = some marked ∧
      marked.released = true := by
  obtain ⟨_, _, written', marked, hwritten, hmarked, hreleased⟩ := id h
  rcases update_row_cases hwritten with ⟨hsame, rfl⟩ | ⟨hother, _⟩
  · exact ⟨hsame, marked, hmarked, hreleased⟩
  · exact absurd (Function.update_of_ne hother _ _).symm h.changed

/-- A schedule that is written keeps every unreleased milestone unreleased. -/
theorem not_marks_put {written : MilestoneSchedule}
    (h : ∀ schedule milestone marked, s.schedule written.awardId = some schedule →
      schedule.milestones[index]? = some milestone → milestone.released = false →
      written.milestones[index]? = some marked → marked.released = false) :
    ¬ Marks s (putSchedule s written) awardId index milestone := by
  intro hmarks
  obtain ⟨rfl, marked, hmarked, hreleased⟩ := hmarks.written
  obtain ⟨schedule, hfound, hstands⟩ := hmarks.before
  rw [h schedule milestone marked hfound hstands hmarks.unreleased hmarked] at hreleased
  cases hreleased

/-- A stored schedule is the only one under its award's id. -/
theorem same_schedule (hs : s.Sound) {stored found : MilestoneSchedule}
    (hstored : s.schedule awardId = some stored)
    (hfound : s.schedule stored.awardId = some found) : stored = found := by
  rw [(hs awardId stored hstored).1, hstored, Option.some.injEq] at hfound
  exact hfound

/-- Only a release marks a milestone released. -/
theorem step_marks {i : Input contract} {u : Unit} (hs : s.Sound)
    (h : (machine contract).step s i = .ok (u, s')) (hmarks : Marks s s' awardId index milestone) :
    ∃ admin schedule, i.call = .releaseMilestone admin awardId index ∧
      Releasable i.env s admin awardId index schedule milestone := by
  cases step_effect h with
  | setAdmin => exact absurd rfl hmarks.changed
  | define habsent =>
    refine absurd hmarks (not_marks_put fun schedule _ _ hfound => ?_)
    rw [habsent] at hfound
    cases hfound
  | activate hstored =>
    refine absurd hmarks (not_marks_put fun schedule _ _ hfound hstands hunreleased hmarked => ?_)
    obtain rfl := same_schedule hs hstored hfound
    rw [hstands, Option.some.injEq] at hmarked
    rwa [← hmarked]
  | amend _ _ _ _ huntouched =>
    refine absurd hmarks (not_marks_put fun _ _ marked _ _ _ hmarked => ?_)
    exact (huntouched marked (List.mem_of_getElem? hmarked)).2
  | verify hstored hverified =>
    refine absurd hmarks (not_marks_put fun schedule found marked hfound hstands hunreleased
      hmarked => ?_)
    obtain rfl := same_schedule hs hstored hfound
    dsimp only at hmarked
    rw [List.getElem?_set] at hmarked
    split_ifs at hmarked with hposition
    · subst hposition
      rw [hverified, Option.some.injEq] at hstands
      rw [Option.some.injEq] at hmarked
      rw [← hmarked, hstands]
      exact hunreleased
    · rw [hstands, Option.some.injEq] at hmarked
      rwa [← hmarked]
  | @release caller id position schedule released hcall hreleasable =>
    obtain ⟨rfl, marked, hmarked, hreleased⟩ := hmarks.written
    obtain ⟨found, hfound, hstands⟩ := hmarks.before
    obtain rfl := same_schedule hs hreleasable.found hfound
    obtain rfl := (hs _ _ hreleasable.found).1
    dsimp only at hmarked
    rw [List.getElem?_set] at hmarked
    split_ifs at hmarked with hposition
    · subst hposition
      rw [hreleasable.stands, Option.some.injEq] at hstands
      subst hstands
      exact ⟨caller, schedule, hcall, hreleasable⟩
    -- Elsewhere the written schedule holds what it held, which was unreleased.
    · rw [hstands, Option.some.injEq] at hmarked
      rw [← hmarked, hmarks.unreleased] at hreleased
      cases hreleased

end Releases

section Runs

variable {contract : Address}

/-- What a call marks as released is due by the time of the call. -/
def PaidOnTime (e : Entry State (Input contract) Unit) : Prop :=
  ∀ awardId index milestone, Marks e.pre e.post awardId index milestone →
    milestone.dueAt ≤ e.input.env.timestamp

/-- A call that asks for the release of a releasable milestone comes no earlier than the milestone is
due. -/
def Waits (s : State) (i : Input contract) : Prop :=
  ∀ admin awardId index, i.call = .releaseMilestone admin awardId index →
    ∀ schedule milestone, Releasable i.env s admin awardId index schedule milestone →
      milestone.dueAt ≤ i.env.timestamp

/-- A call for the release of a releasable milestone is accepted and marks it. -/
theorem exists_release {earlier later : List (Input contract)} {env : Env contract} {admin : Address}
    {awardId : Bytes32} {index : Nat} {schedule : MilestoneSchedule} {milestone : Milestone}
    (h : Releasable env ((machine contract).run State.empty earlier) admin awardId index schedule
      milestone) :
    ∃ e ∈ (machine contract).journal State.empty
        (earlier ++ ⟨env, .releaseMilestone admin awardId index⟩ :: later),
      e.input.env = env ∧ Marks e.pre e.post awardId index milestone := by
  have hstep : (machine contract).step ((machine contract).run State.empty earlier)
      ⟨env, .releaseMilestone admin awardId index⟩ = .ok ((), _) :=
    map_eq_ok.mpr ⟨_, releaseMilestone_eq_ok.mpr ⟨schedule, milestone, h, rfl⟩, rfl⟩
  exact ⟨_, Machine.mem_journal hstep, rfl, marks_release (run_sound earlier) h⟩

/-- In every run, no milestone is paid before it is due exactly when no call asks for the release of
one that is releasable and not yet due. -/
theorem run_paidOnTime (is : List (Input contract)) :
    (∀ e ∈ (machine contract).journal State.empty is, PaidOnTime e) ↔
      ∀ earlier i, earlier ++ [i] <+: is → Waits ((machine contract).run State.empty earlier) i := by
  constructor
  · intro htime earlier i hprefix admin awardId index hcall schedule milestone hreleasable
    obtain ⟨later, rfl⟩ := hprefix
    obtain ⟨env, call⟩ := i
    subst hcall
    obtain ⟨e, he, henv, hmarks⟩ := exists_release hreleasable
    rw [← henv]
    rw [List.append_assoc, List.singleton_append] at htime
    exact htime e he awardId index milestone hmarks
  · intro hwaits e he awardId index milestone hmarks
    obtain ⟨hstep, earlier, hprefix, hpre⟩ := Machine.journal_prefix he
    have hsound : e.pre.Sound := by
      rw [hpre]
      exact run_sound earlier
    obtain ⟨admin, schedule, hcall, hreleasable⟩ := step_marks hsound hstep hmarks
    rw [hpre] at hreleasable
    exact hwaits earlier e.input hprefix admin awardId index hcall schedule milestone hreleasable

/-- The first milestone of `sampleRelease` is due at 30 and verified at 20. -/
theorem sampleRelease_releasable :
    Releasable .sampleLater ((machine ⟨0⟩).run State.empty (sampleRelease.take 4)) ⟨1⟩ 7 0
      ⟨7, 101, "USDC", 1, true, 10, 10, 0,
        [⟨0, .enrollment, 1, 5000, 50, 30, true, false⟩,
          ⟨1, .completion, 2, 5000, 51, 40, false, false⟩]⟩
      ⟨0, .enrollment, 1, 5000, 50, 30, true, false⟩ where
  admin := by decide +kernel
  found := by decide +kernel
  active := rfl
  stands := rfl
  unreleased := rfl
  verified := rfl
  inOrder := by simp

/-- It is released at 20. -/
theorem sampleRelease_early :
    ¬ ∀ is : List (Input ⟨0⟩), ∀ e ∈ (machine ⟨0⟩).journal State.empty is, PaidOnTime e := by
  intro htime
  obtain ⟨e, he, henv, hmarks⟩ := @exists_release _ _ [] _ _ _ _ _ _ sampleRelease_releasable
  have hdue : 30 ≤ e.input.env.timestamp := htime _ e he 7 0 _ hmarks
  rw [henv] at hdue
  exact absurd hdue (by decide)

end Runs

end ChainVerse.ScholarshipMilestones
