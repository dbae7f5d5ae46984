import ChainVerse.Capacity.Contract
import ChainVerse.Framework.Listings
import ChainVerse.Framework.Tables
import ChainVerse.Host.Issuance

namespace ChainVerse.MentorshipCapacity

variable {contract : Address} {env : Env contract} {s s' t : State} {key : Address × Bytes32}

/-- An accepted call of a run, with the stores around it. -/
abbrev Step (contract : Address) := Entry State (Input contract) Unit

section Calls

/-- The mentor and the program that a call reserves for. -/
def Call.reserves : Call → Option (Address × Bytes32)
  | .reserveMentorCapacity _ mentor programId _ => some (mentor, programId)
  | _ => none

def Call.releases : Call → Option (Address × Bytes32)
  | .releaseMentorCapacity _ mentor programId => some (mentor, programId)
  | _ => none

/-- The program that a call configures. -/
def Call.configures : Call → Option Bytes32
  | .setProgramCapacity _ programId _ _ => some programId
  | _ => none

/-- The reservations made so far. -/
def made (es : List (Step contract)) : List (Address × Bytes32) :=
  es.filterMap fun e => e.input.call.reserves

/-- The reservations released so far. -/
def released (es : List (Step contract)) : List (Address × Bytes32) :=
  es.filterMap fun e => e.input.call.releases

end Calls

section Counters

def State.concurrent (s : State) (mentor : Address) : Nat :=
  ((s.utilization mentor).map MentorCapacityUtilization.currentConcurrent).getD 0

def State.count (s : State) (key : Address × Bytes32) : Nat := (s.mentorProgramCount key).getD 0

def State.active (s : State) (programId : Bytes32) : Option Nat :=
  (s.programConfig programId).map ProgramCapacityConfig.activeCount

/-- Records are stored under what they name. -/
structure State.Keyed (s : State) : Prop where
  utilization : ∀ mentor utilization, s.utilization mentor = some utilization →
    utilization.mentor = mentor
  program : ∀ programId config, s.programConfig programId = some config →
    config.programId = programId

theorem keyed_empty : State.empty.Keyed := ⟨nofun, nofun⟩

/-- The counters of one mentor and program go up by one. -/
structure Raises (s s' : State) (key : Address × Bytes32) : Prop where
  concurrent : s'.concurrent = Function.update s.concurrent key.1 (s.concurrent key.1 + 1)
  count : s'.count = Function.update s.count key (s.count key + 1)
  active : s'.active = Function.update s.active key.2 ((s.active key.2).map (· + 1))

/-- Everything that an accepted call can do to the counters. -/
inductive Effect (s s' : State) (call : Call) : Prop where
  | quiet (unreserved : call.reserves = none) (unreleased : call.releases = none)
      (unconfigured : call.configures = none) (concurrent : s'.concurrent = s.concurrent)
      (count : s'.count = s.count) (active : s'.active = s.active)
  | configure (programId : Bytes32) (unreserved : call.reserves = none)
      (unreleased : call.releases = none) (configured : call.configures = some programId)
      (concurrent : s'.concurrent = s.concurrent) (count : s'.count = s.count)
      (active : s'.active = Function.update s.active programId (some 0))
  | reserve (key : Address × Bytes32) (reserved : call.reserves = some key)
      (unreleased : call.releases = none) (unconfigured : call.configures = none)
      (raises : Raises s s' key)
  | release (key : Address × Bytes32) (unreserved : call.reserves = none)
      (released : call.releases = some key) (unconfigured : call.configures = none)
      (lowers : Raises s' s key)

/-- Where a program is configured its active count is moved, and nothing else is. -/
theorem adjustActiveCount_ok {programId : Bytes32} {adjust : Nat → Option Nat} (hs : s.Keyed)
    (h : adjustActiveCount s programId adjust = .ok s') :
    s'.utilization = s.utilization ∧ s'.mentorProgramCount = s.mentorProgramCount ∧ s'.Keyed ∧
      ∃ moved, s'.active = Function.update s.active programId moved ∧
        (s.active programId).map adjust = moved.map some := by
  rcases hfound : s.programConfig programId with _ | config
  · simp only [adjustActiveCount, hfound, pure_eq_ok] at h
    subst h
    have hnone : s.active programId = none := by rw [State.active, hfound, Option.map_none]
    refine ⟨rfl, rfl, hs, none, ?_, ?_⟩
    · rw [← hnone, Function.update_eq_self]
    · rw [hnone]
      rfl
  · simp only [adjustActiveCount, hfound, bind_eq_ok, orRefuse_eq_ok, pure_eq_ok] at h
    obtain ⟨activeCount, hadjust, rfl⟩ := h
    have hid := hs.program programId config hfound
    refine ⟨rfl, rfl, ⟨hs.utilization, ?_⟩, some activeCount, ?_, ?_⟩
    · exact forall_update_row hs.program rfl rfl
    · rw [← hid]
      exact Function.comp_update (Option.map ProgramCapacityConfig.activeCount) _ _ _
    · rw [State.active, hfound, Option.map_some, Option.map_some, hadjust]
      rfl

theorem utilizationOf_counts (hs : s.Keyed) (env : Env contract) (mentor : Address) :
    (utilizationOf env s mentor).mentor = mentor ∧
      (utilizationOf env s mentor).currentConcurrent = s.concurrent mentor := by
  unfold utilizationOf State.concurrent
  rcases hfound : s.utilization mentor with _ | utilization
  · exact ⟨rfl, rfl⟩
  · exact ⟨hs.utilization mentor utilization hfound, rfl⟩

theorem resetWeek_counts (utilization : MentorCapacityUtilization) (nowWeek : Nat) :
    (utilization.resetWeek nowWeek).mentor = utilization.mentor ∧
      (utilization.resetWeek nowWeek).currentConcurrent = utilization.currentConcurrent := by
  unfold MentorCapacityUtilization.resetWeek
  split_ifs
  · exact ⟨rfl, rfl⟩
  · exact ⟨rfl, rfl⟩

/-- What a reservation or a release writes for the mentor, and for the mentor in the program. -/
theorem counters_written {utilization : MentorCapacityUtilization} {mentor : Address}
    {programId : Bytes32} {count : Nat} (hs : s.Keyed) (hmentor : utilization.mentor = mentor)
    (hwritten : t = setMentorProgramCount (putMentorCapacityUtilization s utilization) mentor programId
      count) :
    t.concurrent = Function.update s.concurrent mentor utilization.currentConcurrent ∧
      t.count = Function.update s.count (mentor, programId) count ∧ t.active = s.active ∧ t.Keyed := by
  subst hwritten
  refine ⟨?_, ?_, rfl, ⟨forall_update_row hs.utilization rfl rfl, hs.program⟩⟩
  · rw [← hmentor]
    exact Function.comp_update
      (fun row => (Option.map MentorCapacityUtilization.currentConcurrent row).getD 0) _ _ _
  · exact Function.comp_update (fun row : Option Nat => row.getD 0) _ _ _

/-- The counters after the mentor's and the mentor's in the program have been written, and the program's
moved. -/
theorem counters_moved {utilization : MentorCapacityUtilization} {mentor : Address}
    {programId : Bytes32} {count : Nat} {adjust : Nat → Option Nat} (hs : s.Keyed)
    (hmentor : utilization.mentor = mentor)
    (h : adjustActiveCount (setMentorProgramCount (putMentorCapacityUtilization s utilization) mentor
      programId count) programId adjust = .ok s') :
    s'.concurrent = Function.update s.concurrent mentor utilization.currentConcurrent ∧
      s'.count = Function.update s.count (mentor, programId) count ∧ s'.Keyed ∧
      ∃ moved, s'.active = Function.update s.active programId moved ∧
        (s.active programId).map adjust = moved.map some := by
  obtain ⟨hconcurrent, hcount, hactive, hkeyed⟩ := counters_written hs hmentor rfl
  obtain ⟨hutilization, hcounts, hkeyed', moved, hmoved, hadjust⟩ := adjustActiveCount_ok hkeyed h
  rw [hactive] at hmoved hadjust
  refine ⟨?_, ?_, hkeyed', moved, hmoved, hadjust⟩
  · rw [← hconcurrent]
    funext m
    rw [State.concurrent, hutilization]
    rfl
  · rw [← hcount]
    funext k
    rw [State.count, hcounts]
    rfl

theorem reserve_effect {core mentor : Address} {programId : Bytes32} {weeklyHours : Nat}
    (hs : s.Keyed) (h : reserveMentorCapacity env s core mentor programId weeklyHours = .ok s') :
    Raises s s' (mentor, programId) ∧ s'.Keyed := by
  simp only [reserveMentorCapacity, bind_eq_ok, orRefuse_eq_ok, fitsU_eq_some] at h
  obtain ⟨_, ⟨_, rfl⟩, _, _, _, ⟨_, rfl⟩, hadjust⟩ := h
  obtain ⟨hmentor, hconcurrent⟩ := utilizationOf_counts hs env mentor
  obtain ⟨hreset, hkept⟩ := resetWeek_counts (utilizationOf env s mentor) (currentWeek env)
  obtain ⟨hconcurrents, hcounts, hkeyed, moved, hactive, hmoved⟩ :=
    counters_moved hs (by exact hreset.trans hmentor) hadjust
  refine ⟨⟨?_, hcounts, ?_⟩, hkeyed⟩
  · rw [hconcurrents, hkept, hconcurrent]
  · have hraised : moved = (s.active programId).map (· + 1) := by
      rcases hold : s.active programId with _ | a
      · rw [hold] at hmoved
        exact (Option.map_eq_none_iff.mp hmoved.symm)
      · rw [hold, Option.map_some] at hmoved
        obtain ⟨next, rfl, hnext⟩ := Option.map_eq_some_iff.mp hmoved.symm
        rw [← (fitsU_eq_some.mp hnext.symm).2]
        rfl
    rw [hactive, hraised]

/-- A written entry is taken back. -/
theorem update_back {K V : Type} [DecidableEq K] {f g : K → V} {k : K} {v : V}
    (h : g = Function.update f k v) : f = Function.update g k (f k) := by
  rw [h, Function.update_idem, Function.update_eq_self]

theorem release_effect {core mentor : Address} {programId : Bytes32} (hs : s.Keyed)
    (h : releaseMentorCapacity env s core mentor programId = .ok s') :
    Raises s' s (mentor, programId) ∧ s'.Keyed := by
  simp only [releaseMentorCapacity, bind_eq_ok, orRefuse_eq_ok, checkedSub_eq_some] at h
  obtain ⟨utilization, hfound, _, ⟨hsome, rfl⟩, count, hcount, _, ⟨hcounted, rfl⟩, hadjust⟩ := h
  have hmentor := hs.utilization mentor utilization hfound
  obtain ⟨hconcurrents, hcounts, hkeyed, moved, hactive, hmoved⟩ := counters_moved hs (by exact hmentor) hadjust
  have hconcurrent : s.concurrent mentor = utilization.currentConcurrent := by
    rw [State.concurrent, hfound]
    rfl
  have hcountOf : s.count (mentor, programId) = count := by
    have hrow : s.mentorProgramCount (mentor, programId) = some count := hcount
    rw [State.count, hrow]
    rfl
  refine ⟨⟨?_, ?_, ?_⟩, hkeyed⟩
  · have hback := update_back hconcurrents
    rw [hconcurrents, Function.update_self]
    rw [hconcurrents, hconcurrent] at hback
    dsimp only at hback ⊢
    rwa [Nat.sub_add_cancel hsome]
  · have hback := update_back hcounts
    rw [hcounts, Function.update_self]
    rw [hcounts, hcountOf] at hback
    rwa [Nat.sub_add_cancel hcounted]
  · have hlowered : s.active programId = moved.map (· + 1) := by
      rcases hold : s.active programId with _ | a
      · rw [hold] at hmoved
        rw [Option.map_eq_none_iff.mp hmoved.symm]
        rfl
      · rw [hold, Option.map_some] at hmoved
        obtain ⟨next, rfl, hnext⟩ := Option.map_eq_some_iff.mp hmoved.symm
        obtain ⟨hpositive, rfl⟩ := checkedSub_eq_some.mp hnext.symm
        rw [Option.map_some, Nat.sub_add_cancel hpositive]
    have hback := update_back hactive
    rwa [hactive, Function.update_self, ← hlowered, ← hactive]

/-- What an accepted call does to the counters. -/
theorem step_effect {i : Input contract} {u : Unit} (hs : s.Keyed)
    (h : (machine contract).step s i = .ok (u, s')) : Effect s s' i.call ∧ s'.Keyed := by
  obtain ⟨env, call⟩ := i
  simp only [machine, map_eq_ok, Prod.mk.injEq, true_and] at h
  obtain ⟨_, h, rfl⟩ := h
  cases call with
  | initializeContract =>
    simp only [execute, initializeContract, bind_eq_ok, exists_unit, pure_eq_ok] at h
    obtain ⟨_, _, rfl⟩ := h
    exact ⟨.quiet rfl rfl rfl rfl rfl rfl, hs.utilization, hs.program⟩
  | setMentorCapacity =>
    simp only [execute, setMentorCapacity, bind_eq_ok, exists_unit, pure_eq_ok] at h
    obtain ⟨_, _, rfl⟩ := h
    exact ⟨.quiet rfl rfl rfl rfl rfl rfl, hs.utilization, hs.program⟩
  | setProgramCapacity admin programId =>
    simp only [execute, setProgramCapacity, bind_eq_ok, exists_unit, pure_eq_ok] at h
    obtain ⟨_, _, rfl⟩ := h
    refine ⟨.configure programId rfl rfl rfl rfl rfl ?_, hs.utilization, ?_⟩
    · exact Function.comp_update (Option.map ProgramCapacityConfig.activeCount) _ _ _
    · exact forall_update_row hs.program rfl rfl
  | reserveMentorCapacity core mentor programId =>
    have hreserve : reserveMentorCapacity env s core mentor programId _ = .ok _ := h
    obtain ⟨hraises, hkeyed⟩ := reserve_effect hs hreserve
    exact ⟨.reserve (mentor, programId) rfl rfl rfl hraises, hkeyed⟩
  | releaseMentorCapacity core mentor programId =>
    have hrelease : releaseMentorCapacity env s core mentor programId = .ok _ := h
    obtain ⟨hlowers, hkeyed⟩ := release_effect hs hrelease
    exact ⟨.release (mentor, programId) rfl rfl rfl hlowers, hkeyed⟩

end Counters

end ChainVerse.MentorshipCapacity
