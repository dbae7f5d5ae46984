import ChainVerse.Capacity.Tallies
import ChainVerse.Framework.Listings

namespace ChainVerse.MentorshipCapacity

variable {contract : Address} {env : Env contract} {s s' : State} {es : List (Step contract)}

section Counting

variable {e : Step contract} {key : Address × Bytes32}

theorem made_quiet (h : e.input.call.reserves = none) : made (es ++ [e]) = made es := by
  rw [made, filterMap_snoc, h, Option.toList_none, List.append_nil, made]

theorem made_reserve (h : e.input.call.reserves = some key) : made (es ++ [e]) = made es ++ [key] := by
  rw [made, filterMap_snoc, h, Option.toList_some, made]

theorem released_quiet (h : e.input.call.releases = none) : released (es ++ [e]) = released es := by
  rw [released, filterMap_snoc, h, Option.toList_none, List.append_nil, released]

theorem released_release (h : e.input.call.releases = some key) :
    released (es ++ [e]) = released es ++ [key] := by
  rw [released, filterMap_snoc, h, Option.toList_some, released]

/-- The counters by mentor, and by mentor and program, follow the reservations. -/
structure Counted (s : State) (es : List (Step contract)) : Prop where
  keyed : s.Keyed
  concurrent : Tracks (fun mentor => some (s.concurrent mentor)) Prod.fst (released es) (made es)
  count : Tracks (fun key => some (s.count key)) id (released es) (made es)

/-- So does the count of every program that has been configured. -/
def ActiveCounted (s : State) (es : List (Step contract)) : Prop :=
  Tracks s.active Prod.snd (released es) (made es)

/-- All reservations of the program have been released. -/
def AtRest (es : List (Step contract)) (programId : Bytes32) : Prop :=
  (released es).countP (fun key => key.2 = programId) =
    (made es).countP fun key => key.2 = programId

/-- Programs are configured only when all their reservations have been released. -/
def ConfiguredAtRest (es : List (Step contract)) : Prop :=
  ∀ earlier e later, es = earlier ++ e :: later → ∀ programId,
    e.input.call.configures = some programId → AtRest earlier programId

theorem counted_empty : Counted State.empty ([] : List (Step contract)) where
  keyed := keyed_empty
  concurrent := tracks_total.mpr fun _ => rfl
  count := tracks_total.mpr fun _ => rfl

/-- The raised counters, as counters that may be missing. -/
theorem Raises.total (h : Raises s s' key) :
    (fun mentor => some (s'.concurrent mentor)) =
        Function.update (fun mentor => some (s.concurrent mentor)) key.1
          ((some (s.concurrent key.1)).map (· + 1)) ∧
      (fun k => some (s'.count k)) =
        Function.update (fun k => some (s.count k)) key ((some (s.count key)).map (· + 1)) := by
  refine ⟨?_, ?_⟩
  · rw [h.concurrent]
    exact Function.comp_update some _ _ _
  · rw [h.count]
    exact Function.comp_update some _ _ _

/-- Every accepted call keeps the counters by mentor. -/
theorem Effect.counted (h : Effect s s' e.input.call) (hs : Counted s es) (hkeyed : s'.Keyed) :
    Counted s' (es ++ [e]) := by
  refine ⟨hkeyed, ?_, ?_⟩
  · cases h with
    | quiet hunreserved hunreleased _ hconcurrent =>
      rw [made_quiet hunreserved, released_quiet hunreleased, hconcurrent]
      exact hs.concurrent
    | configure _ hunreserved hunreleased _ hconcurrent =>
      rw [made_quiet hunreserved, released_quiet hunreleased, hconcurrent]
      exact hs.concurrent
    | reserve key hreserved hunreleased _ hraises =>
      rw [made_reserve hreserved, released_quiet hunreleased]
      exact hs.concurrent.raise hraises.total.1
    | release key hunreserved hreleased _ hlowers =>
      rw [made_quiet hunreserved, released_release hreleased]
      exact hs.concurrent.lower hlowers.total.1
  · cases h with
    | quiet hunreserved hunreleased _ _ hcount =>
      rw [made_quiet hunreserved, released_quiet hunreleased, hcount]
      exact hs.count
    | configure _ hunreserved hunreleased _ _ hcount =>
      rw [made_quiet hunreserved, released_quiet hunreleased, hcount]
      exact hs.count
    | reserve key hreserved hunreleased _ hraises =>
      rw [made_reserve hreserved, released_quiet hunreleased]
      exact hs.count.raise hraises.total.2
    | release key hunreserved hreleased _ hlowers =>
      rw [made_quiet hunreserved, released_release hreleased]
      exact hs.count.lower hlowers.total.2

/-- And the active counts, where a program is configured at rest. -/
theorem Effect.activeCounted (h : Effect s s' e.input.call) (hs : ActiveCounted s es)
    (hrest : ∀ programId, e.input.call.configures = some programId → AtRest es programId) :
    ActiveCounted s' (es ++ [e]) := by
  unfold ActiveCounted at hs ⊢
  cases h with
  | quiet hunreserved hunreleased _ _ _ hactive =>
    rw [made_quiet hunreserved, released_quiet hunreleased, hactive]
    exact hs
  | configure programId hunreserved hunreleased hconfigured _ _ hactive =>
    rw [made_quiet hunreserved, released_quiet hunreleased]
    exact hs.restart (hrest programId hconfigured) hactive
  | reserve key hreserved hunreleased _ hraises =>
    rw [made_reserve hreserved, released_quiet hunreleased]
    exact hs.raise hraises.active
  | release key hunreserved hreleased _ hlowers =>
    rw [made_quiet hunreserved, released_release hreleased]
    exact hs.lower hlowers.active

theorem ConfiguredAtRest.left {later : List (Step contract)} (h : ConfiguredAtRest (es ++ later)) :
    ConfiguredAtRest es := by
  intro before e after hes
  exact h before e (after ++ later) (by rw [hes, List.append_assoc, List.cons_append])

/-- The counters of every run, those by program where programs are configured at rest. -/
theorem run_counted (is : List (Input contract)) :
    Counted ((machine contract).run State.empty is) ((machine contract).journal State.empty is) ∧
      (ConfiguredAtRest ((machine contract).journal State.empty is) →
        ActiveCounted ((machine contract).run State.empty is)
          ((machine contract).journal State.empty is)) := by
  refine @Machine.run_journal_invariant _ _ _ _ (machine contract)
    (fun s es => Counted s es ∧ (ConfiguredAtRest es → ActiveCounted s es)) State.empty
    ⟨counted_empty, fun _ _ _ hn => nomatch hn⟩ ?_ is
  intro es s i o s' hs h
  obtain ⟨hcounted, hactive⟩ := hs
  obtain ⟨heffect, hkeyed⟩ := step_effect hcounted.keyed h
  refine ⟨Effect.counted (e := ⟨s, i, o, s'⟩) heffect hcounted hkeyed, fun hrest => ?_⟩
  exact Effect.activeCounted (e := ⟨s, i, o, s'⟩) heffect (hactive hrest.left)
    fun programId hconfigured => hrest es ⟨s, i, o, s'⟩ [] rfl programId hconfigured

end Counting

section Releases

theorem adjustActiveCount_accepts {programId : Bytes32} {adjust : Nat → Option Nat}
    (h : ∀ active, s.active programId = some active → adjust active ≠ none) :
    ∃ s', adjustActiveCount s programId adjust = .ok s' := by
  rcases hfound : s.programConfig programId with _ | config
  · exact ⟨s, by rw [adjustActiveCount, hfound]; rfl⟩
  · have hactive : s.active programId = some config.activeCount := by
      rw [State.active, hfound, Option.map_some]
    obtain ⟨moved, hmoved⟩ := Option.ne_none_iff_exists'.mp (h _ hactive)
    simp only [adjustActiveCount, hfound, hmoved, bind_eq_ok, orRefuse_eq_ok, pure_eq_ok]
    exact ⟨_, moved, rfl, rfl⟩

/-- A release goes through when none of the three counters stands at zero. -/
theorem release_accepts {core mentor : Address} {programId : Bytes32}
    (hconcurrent : 0 < s.concurrent mentor) (hcount : 0 < s.count (mentor, programId))
    (hactive : ∀ active, s.active programId = some active → 0 < active) :
    ∃ s', releaseMentorCapacity env s core mentor programId = .ok s' := by
  obtain ⟨utilization, hutilization⟩ : ∃ u, s.utilization mentor = some u := by
    apply Option.ne_none_iff_exists'.mp
    intro hnone
    rw [State.concurrent, hnone] at hconcurrent
    exact Nat.lt_irrefl 0 hconcurrent
  obtain ⟨count, hrow⟩ : ∃ n, s.mentorProgramCount (mentor, programId) = some n := by
    apply Option.ne_none_iff_exists'.mp
    intro hnone
    rw [State.count, hnone] at hcount
    exact Nat.lt_irrefl 0 hcount
  rw [State.concurrent, hutilization] at hconcurrent
  rw [State.count, hrow] at hcount
  simp only [releaseMentorCapacity, bind_eq_ok, orRefuse_eq_ok, checkedSub_eq_some]
  have hlowers : ∀ active, s.active programId = some active → checkedSub active 1 ≠ none := by
    intro active hstored
    have hpositive : 1 ≤ active := hactive active hstored
    rw [checkedSub, if_pos hpositive]
    exact Option.some_ne_none _
  obtain ⟨s', hs'⟩ := @adjustActiveCount_accepts (setMentorProgramCount
    (putMentorCapacityUtilization s { utilization with
      currentConcurrent := utilization.currentConcurrent - 1
      updatedAt := env.timestamp }) mentor programId (count - 1)) programId _ hlowers
  exact ⟨s', utilization, hutilization, _, ⟨hconcurrent, rfl⟩, count, hrow, _, ⟨hcount, rfl⟩, hs'⟩

end Releases

section Exactness

/-- Each counter is the number of its reservations that have been made and not yet released. -/
def Exact (s : State) (es : List (Step contract)) : Prop :=
  (∀ mentor, s.concurrent mentor + (released es).countP (fun key => key.1 = mentor) =
      (made es).countP fun key => key.1 = mentor) ∧
    (∀ key, s.count key + (released es).countP (fun k => k = key) =
      (made es).countP fun k => k = key) ∧
    ∀ programId config, s.programConfig programId = some config →
      config.activeCount + (released es).countP (fun key => key.2 = programId) =
        (made es).countP fun key => key.2 = programId

/-- A mentor is released from a program only as often as they were reserved for it. -/
def Balanced (is : List (Input contract)) : Prop :=
  ∀ earlier i, earlier ++ [i] <+: is → ∀ key, i.call.releases = some key →
    (released ((machine contract).journal State.empty earlier)).countP (fun k => k = key) <
      (made ((machine contract).journal State.empty earlier)).countP fun k => k = key

theorem exact_iff : Exact s es ↔ (∀ mentor, s.concurrent mentor +
      (released es).countP (fun key => key.1 = mentor) = (made es).countP fun key => key.1 = mentor) ∧
    (∀ key, s.count key + (released es).countP (fun k => k = key) =
      (made es).countP fun k => k = key) ∧ ActiveCounted s es := by
  refine and_congr_right fun _ => and_congr_right fun _ => ?_
  constructor
  · intro h programId active hactive
    obtain ⟨config, hfound, rfl⟩ := Option.map_eq_some_iff.mp hactive
    exact h programId config hfound
  · intro h programId config hfound
    apply h programId
    rw [State.active, hfound, Option.map_some]

theorem Counted.exact (h : Counted s es) (hactive : ActiveCounted s es) : Exact s es :=
  exact_iff.mpr ⟨tracks_total.mp h.concurrent, tracks_total.mp h.count, hactive⟩

/-- Where the counters are exact, a reservation that is outstanding can be released. -/
theorem Counted.releases (h : Counted s es) (hactive : ActiveCounted s es) {i : Input contract}
    {key : Address × Bytes32} (hreleases : i.call.releases = some key)
    (hheld : (released es).countP (fun k => k = key) < (made es).countP fun k => k = key) :
    ∃ s', (machine contract).step s i = .ok ((), s') := by
  have hcounts := tracks_total.mp h.count
  have hle : ∀ k, (released es).countP (fun x => x = k) ≤ (made es).countP fun x => x = k := by
    intro k
    have := hcounts k
    simp only [id] at this
    omega
  obtain ⟨env, call⟩ := i
  cases call with
  | releaseMentorCapacity core mentor programId =>
    cases hreleases
    have hmentor := @countP_lt_of_count_lt _ _ _ _ _ (fun k => decide (k.1 = mentor)) hle hheld
      (decide_eq_true rfl)
    have hprogram := @countP_lt_of_count_lt _ _ _ _ _ (fun k => decide (k.2 = programId)) hle hheld
      (decide_eq_true rfl)
    have hconcurrent := tracks_total.mp h.concurrent mentor
    have hcount := hcounts (mentor, programId)
    simp only [id] at hcount
    obtain ⟨s', hs'⟩ := @release_accepts _ env s core mentor programId (by omega) (by omega) (by
      intro active hstored
      have := hactive programId active hstored
      omega)
    refine ⟨s', ?_⟩
    simp only [machine, execute, hs', map_eq_ok, Prod.mk.injEq, true_and]
    exact ⟨s', rfl, rfl⟩
  | _ => cases hreleases

end Exactness

/-- In every run in which mentors are released only as often as reserved, the counters are exact in every
state and every release succeeds just when each program is configured only while none of its reservations
is outstanding. -/
theorem run_capacity (is : List (Input contract)) (hbalanced : Balanced is) :
    ((∀ earlier, earlier <+: is → Exact ((machine contract).run State.empty earlier)
        ((machine contract).journal State.empty earlier)) ∧
      ∀ earlier i, earlier ++ [i] <+: is → i.call.releases ≠ none →
        ∃ s', (machine contract).step ((machine contract).run State.empty earlier) i = .ok ((), s')) ↔
      ConfiguredAtRest ((machine contract).journal State.empty is) := by
  constructor
  · intro hexact before e after hes programId hconfigured
    obtain ⟨js, _, _, hjournal, hrun, hstep⟩ := Machine.journal_split hes
    have hpre := (@run_counted contract js).1
    rw [hrun, hjournal] at hpre
    obtain ⟨heffect, _⟩ := step_effect hpre.keyed hstep
    obtain ⟨next, hprefix, hpost, hlines⟩ := Machine.journal_upto hes
    have hnext := hexact.1 next hprefix
    rw [hpost, hlines, exact_iff] at hnext
    cases heffect with
    | quiet _ _ hunconfigured => rw [hconfigured] at hunconfigured; cases hunconfigured
    | reserve _ _ _ hunconfigured => rw [hconfigured] at hunconfigured; cases hunconfigured
    | release _ _ _ hunconfigured => rw [hconfigured] at hunconfigured; cases hunconfigured
    | configure other hunreserved hunreleased hother _ _ hactive =>
      rw [hconfigured, Option.some.injEq] at hother
      subst hother
      have hzero := hnext.2.2 programId 0 (by rw [hactive, Function.update_self])
      rwa [made_quiet hunreserved, released_quiet hunreleased, Nat.zero_add] at hzero
  · intro hrest
    have hprefix : ∀ earlier, earlier <+: is →
        Counted ((machine contract).run State.empty earlier)
            ((machine contract).journal State.empty earlier) ∧
          ActiveCounted ((machine contract).run State.empty earlier)
            ((machine contract).journal State.empty earlier) := by
      intro earlier hearlier
      obtain ⟨later, rfl⟩ := hearlier
      rw [Machine.journal_append] at hrest
      obtain ⟨hcounted, hactive⟩ := @run_counted contract earlier
      exact ⟨hcounted, hactive hrest.left⟩
    refine ⟨?_, ?_⟩
    · intro earlier hearlier
      obtain ⟨hcounted, hactive⟩ := hprefix earlier hearlier
      exact hcounted.exact hactive
    · intro earlier i hi hreleases
      obtain ⟨key, hkey⟩ := Option.ne_none_iff_exists'.mp hreleases
      obtain ⟨hcounted, hactive⟩ := hprefix earlier ((List.prefix_append _ _).trans hi)
      exact hcounted.releases hactive hkey (hbalanced earlier i hi key hkey)

theorem balanced_nil : Balanced ([] : List (Input contract)) := by
  intro earlier i hi
  have hlength := hi.length_le
  rw [List.length_append, List.length_singleton, List.length_nil] at hlength
  omega

theorem Balanced.snoc {is : List (Input contract)} {i : Input contract} (h : Balanced is)
    (hi : ∀ key, i.call.releases = some key →
      (released ((machine contract).journal State.empty is)).countP (fun k => k = key) <
        (made ((machine contract).journal State.empty is)).countP fun k => k = key) :
    Balanced (is ++ [i]) := by
  intro earlier j hj
  rcases List.prefix_concat_iff.mp hj with heq | hearlier
  · obtain ⟨rfl, rfl⟩ := List.append_inj' heq rfl |>.imp_right (List.singleton_inj.mp ·)
    exact hi
  · exact h earlier j hearlier

section Samples

/-- A program is configured between a reservation and its release. -/
def sampleReconfigured : List (Input ⟨0⟩) :=
  [⟨.sample, .initializeContract ⟨1⟩⟩,
    ⟨.sample, .reserveMentorCapacity ⟨2⟩ ⟨3⟩ 7 4⟩,
    ⟨.sample, .setProgramCapacity ⟨1⟩ 7 10 10⟩]

def sampleRelease : Input ⟨0⟩ := ⟨.sampleLater, .releaseMentorCapacity ⟨2⟩ ⟨3⟩ 7⟩

theorem sampleRelease_balanced : Balanced (sampleReconfigured ++ [sampleRelease]) := by
  refine Balanced.snoc (Balanced.snoc (Balanced.snoc (Balanced.snoc balanced_nil ?_) ?_) ?_) ?_
  · intro key hkey
    cases hkey
  · intro key hkey
    cases hkey
  · intro key hkey
    cases hkey
  · intro key hkey
    cases hkey
    decide +kernel

theorem sampleRelease_refused :
    ((machine ⟨0⟩).step ((machine ⟨0⟩).run State.empty sampleReconfigured) sampleRelease).isOk =
      false := by
  decide +kernel

theorem run_capacity_sample :
    ¬ConfiguredAtRest ((machine ⟨0⟩).journal State.empty (sampleReconfigured ++ [sampleRelease])) := by
  intro hrest
  have hreleases := ((run_capacity _ sampleRelease_balanced).mpr hrest).2 sampleReconfigured
    sampleRelease (List.prefix_refl _) (Option.some_ne_none _)
  obtain ⟨s', hs'⟩ := hreleases
  have hrefused := sampleRelease_refused
  rw [hs'] at hrefused
  cases hrefused

/-- The program that is configured anew counts from zero, and the mentor's release is refused. -/
theorem not_run_capacity : ¬∀ is : List (Input ⟨0⟩), Balanced is →
    (∀ earlier, earlier <+: is → Exact ((machine ⟨0⟩).run State.empty earlier)
        ((machine ⟨0⟩).journal State.empty earlier)) ∧
      ∀ earlier i, earlier ++ [i] <+: is → i.call.releases ≠ none →
        ∃ s', (machine ⟨0⟩).step ((machine ⟨0⟩).run State.empty earlier) i = .ok ((), s') := by
  intro hall
  obtain ⟨s', hs'⟩ := (hall _ sampleRelease_balanced).2 sampleReconfigured sampleRelease
    (List.prefix_refl _) (Option.some_ne_none _)
  have hrefused := sampleRelease_refused
  rw [hs'] at hrefused
  cases hrefused

end Samples

end ChainVerse.MentorshipCapacity
