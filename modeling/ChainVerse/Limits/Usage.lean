import ChainVerse.Framework.Tables
import ChainVerse.Limits.Contract
import ChainVerse.Framework.Listings
import ChainVerse.Framework.Simulations

namespace ChainVerse.ScholarshipRateLimits

section Buckets

variable {contract : Address} {env : Env contract} {s s' : State}

/-- An accepted call of a run, with the stores around it. -/
abbrev Step (contract : Address) := Entry State (Input contract) Answer

/-- The actor may take an action of this tier. -/
def State.trusts (s : State) (actor : Address) (config : ActionConfig) : Prop :=
  config.riskTier = .high ∨ config.riskTier = .critical → hasServiceAuth s actor = true

/-- What `check_and_record` asks for where `used` calls are in the bucket. -/
structure Admits (env : Env contract) (s : State) (actor : Address) (config : ActionConfig)
    (used : Nat) : Prop where
  signed : env.signers actor = true
  resets : (env.timestamp / config.windowSeconds + 1) * config.windowSeconds < 2^64
  trusted : s.trusts actor config
  below : used < config.maxCount
  room : used = 0 → s.bucketCount < maxBuckets

/-- The store after a call is added to a bucket. -/
def State.recordAt (s : State) (k : BucketKey) : State :=
  { s with
    bucket := Function.update s.bucket k (s.bucket k + 1)
    bucketCount := if s.bucket k = 0 then s.bucketCount + 1 else s.bucketCount }

section Checks

@[simp] theorem requireTier_eq_ok {actor : Address} {config : ActionConfig} {u : Unit} :
    requireTier s actor config = .ok u ↔ s.trusts actor config := by
  cases htier : config.riskTier <;> simp [requireTier, State.trusts, htier]

@[simp] theorem countBucket_eq_ok {current n : Nat} : countBucket s current = .ok n ↔
    (current = 0 → s.bucketCount < maxBuckets) ∧
      (if current = 0 then s.bucketCount + 1 else s.bucketCount) = n := by
  by_cases hcurrent : current = 0
  · simp only [countBucket, hcurrent, if_true, bind_eq_ok, exists_unit, refuseIf_eq_ok, not_le,
      orRefuse_eq_ok, fitsU_eq_some, true_imp_iff]
    constructor
    · rintro ⟨hroom, _, hn⟩
      exact ⟨hroom, hn⟩
    · rintro ⟨hroom, hn⟩
      have hsmall : maxBuckets < 2^63 := by decide
      exact ⟨hroom, by omega, hn⟩
  · simp [countBucket, hcurrent]

theorem windowId_eq_ok {config : ActionConfig} {n : Nat} (h : 0 < (config.windowSeconds : Nat)) :
    windowId env config = .ok n ↔ env.timestamp / config.windowSeconds = n := by
  simp only [windowId, bind_eq_ok, exists_unit, refuseIf_eq_ok, pure_eq_ok, and_iff_right_iff_imp]
  exact fun _ => h.ne'

/-- `check_and_record` accepts exactly what it admits, and adds it to its bucket. -/
theorem checkAndRecord_eq_ok {actor : Address} {action : Action} {remaining : Nat}
    (hwindow : 0 < ((getActionConfig s action).windowSeconds : Nat)) :
    checkAndRecord env s actor action = .ok (remaining, s') ↔
      let config := getActionConfig s action
      let k := ((actor, action), env.timestamp / config.windowSeconds)
      Admits env s actor config (s.bucket k) ∧ config.maxCount - (s.bucket k + 1) = remaining ∧
        s.recordAt k = s' := by
  simp only [checkAndRecord, bind_eq_ok, exists_unit, requireAuth_eq_ok, windowId_eq_ok hwindow,
    orRefuse_eq_ok, fitsU_eq_some, requireTier_eq_ok, refuseIf_eq_ok, not_le, countBucket_eq_ok,
    pure_eq_ok, Prod.mk.injEq]
  constructor
  · rintro ⟨hsigned, _, rfl, _, ⟨_, rfl⟩, _, ⟨hresets, rfl⟩, htrusted, hbelow, _, ⟨_, rfl⟩, _,
      ⟨hroom, rfl⟩, hremaining, hs'⟩
    exact ⟨⟨hsigned, hresets, htrusted, hbelow, hroom⟩, hremaining, hs'⟩
  · rintro ⟨⟨hsigned, hresets, htrusted, hbelow, hroom⟩, hremaining, hs'⟩
    have hnext := Nat.le_mul_of_pos_right
      (env.timestamp / (getActionConfig s action).windowSeconds + 1) hwindow
    have hmax := (getActionConfig s action).maxCount.isLt
    exact ⟨hsigned, _, rfl, _, ⟨by omega, rfl⟩, _, ⟨hresets, rfl⟩, htrusted, hbelow, _,
      ⟨by omega, rfl⟩, _, ⟨hroom, rfl⟩, hremaining, hs'⟩

theorem currentUsage_eq {actor : Address} {action : Action}
    (hwindow : 0 < ((getActionConfig s action).windowSeconds : Nat))
    (hresets : (env.timestamp / (getActionConfig s action).windowSeconds + 1) *
      (getActionConfig s action).windowSeconds < 2^64) :
    let config := getActionConfig s action
    let id := env.timestamp / config.windowSeconds
    currentUsage env s actor action = .ok (s.bucket ((actor, action), id),
      config.maxCount - s.bucket ((actor, action), id), (id + 1) * config.windowSeconds) := by
  have hnext := Nat.le_mul_of_pos_right
    (env.timestamp / (getActionConfig s action).windowSeconds + 1) hwindow
  simp only [currentUsage, bind_eq_ok, windowId_eq_ok hwindow, orRefuse_eq_ok, fitsU_eq_some,
    pure_eq_ok]
  exact ⟨_, rfl, _, ⟨by omega, rfl⟩, _, ⟨hresets, rfl⟩, rfl⟩

end Checks

/-- The bucket that a call has been added to. -/
def recorded (e : Step contract) : Option BucketKey :=
  match e.input.call with
  | .checkAndRecord actor action =>
    some ((actor, action),
      e.input.env.timestamp / (getActionConfig e.pre action).windowSeconds)
  | _ => none

/-- Every window that can be in force has a length. -/
def State.Windowed (s : State) : Prop :=
  ∀ action, 0 < ((getActionConfig s action).windowSeconds : Nat)

/-- Everything an accepted call can have done to windows and buckets. -/
inductive Effect (s : State) : Option BucketKey → State → Prop where
  | aside {s' : State} (windowed : s'.Windowed) (buckets : s'.bucket = s.bucket)
      (counts : s'.bucketCount = s.bucketCount) : Effect s none s'
  | record {k : BucketKey} : Effect s (some k) (s.recordAt k)

section Inversion

theorem windowed_congr (hs : s.Windowed) (h : s'.actionConfig = s.actionConfig) : s'.Windowed := by
  intro action
  rw [getActionConfig, h]
  exact hs action

theorem windowed_empty : State.empty.Windowed := by
  intro action
  show 0 < (defaultWindowSeconds : Nat)
  decide

theorem windowed_seeded (h : s.actionConfig = seedDefaults) : s.Windowed := by
  intro action
  rw [getActionConfig, h]
  cases action <;> decide

/-- What an accepted entry point has done. -/
theorem step_effect {i : Input contract} {o : Answer} (hs : s.Windowed)
    (h : (machine contract).step s i = .ok (o, s')) : Effect s (recorded ⟨s, i, o, s'⟩) s' := by
  obtain ⟨env, call⟩ := i
  cases call with
  | initializeContract =>
    simp only [machine, execute, map_eq_ok, initializeContract, bind_eq_ok, exists_unit,
      pure_eq_ok, Prod.mk.injEq] at h
    obtain ⟨_, ⟨_, _, rfl⟩, _, rfl⟩ := h
    exact .aside (windowed_seeded rfl) rfl rfl
  | setActionConfig admin action riskTier windowSeconds maxCount =>
    simp only [machine, execute, map_eq_ok, setActionConfig, bind_eq_ok, exists_unit,
      refuseIf_eq_ok, pure_eq_ok, Prod.mk.injEq] at h
    obtain ⟨_, ⟨_, hpositive, _, rfl⟩, _, rfl⟩ := h
    refine .aside ?_ rfl rfl
    intro named
    by_cases hnamed : named = action
    · rw [hnamed]
      simp only [getActionConfig, Function.update_self, Option.getD_some]
      exact Nat.pos_of_ne_zero hpositive
    · simp only [getActionConfig, Function.update_of_ne hnamed]
      exact hs named
  | grantServiceAuth =>
    simp only [machine, execute, map_eq_ok, grantServiceAuth, setServiceAuth, bind_eq_ok,
      exists_unit, pure_eq_ok, Prod.mk.injEq] at h
    obtain ⟨_, ⟨_, rfl⟩, _, rfl⟩ := h
    exact .aside (windowed_congr hs rfl) rfl rfl
  | revokeServiceAuth =>
    simp only [machine, execute, map_eq_ok, revokeServiceAuth, setServiceAuth, bind_eq_ok,
      exists_unit, pure_eq_ok, Prod.mk.injEq] at h
    obtain ⟨_, ⟨_, rfl⟩, _, rfl⟩ := h
    exact .aside (windowed_congr hs rfl) rfl rfl
  | checkAndRecord actor action =>
    simp only [machine, execute, map_eq_ok, Prod.map, Prod.mk.injEq, id] at h
    obtain ⟨⟨remaining, t⟩, hcheck, _, rfl⟩ := h
    obtain ⟨_, _, hrecord⟩ := (checkAndRecord_eq_ok (hs action)).mp hcheck
    have hrecorded : recorded ⟨s, ⟨env, .checkAndRecord actor action⟩, o, t⟩ =
        some ((actor, action), env.timestamp / (getActionConfig s action).windowSeconds) := rfl
    rw [hrecorded]
    show Effect s _ t
    rw [← hrecord]
    exact .record

end Inversion

end Buckets

variable {contract : Address} {env : Env contract} {s s' : State} {es : List (Step contract)}

/-- The buckets after the calls `es`: each holds the calls that have been added to it, and there are as
many of them as are counted. -/
structure Counted (s : State) (es : List (Step contract)) : Prop where
  windowed : s.Windowed
  counted : ∀ k, s.bucket k = es.countP fun e => recorded e = some k
  finite : {k | s.bucket k ≠ 0}.Finite
  number : {k | s.bucket k ≠ 0}.ncard = s.bucketCount

section Runs

theorem counted_empty : Counted State.empty ([] : List (Step contract)) where
  windowed := windowed_empty
  counted k := rfl
  finite := by
    have hnone : {k | State.empty.bucket k ≠ 0} = ∅ := Set.eq_empty_of_forall_notMem fun k h => h rfl
    rw [hnone]
    exact Set.finite_empty
  number := by
    have hnone : {k | State.empty.bucket k ≠ 0} = ∅ := Set.eq_empty_of_forall_notMem fun k h => h rfl
    rw [hnone, Set.ncard_empty]
    rfl

/-- A recorded call adds to its bucket, which it opens if it is the first one in there. -/
theorem Counted.record (hc : Counted s es) {e : Step contract} {k : BucketKey}
    (hk : recorded e = some k) : Counted (s.recordAt k) (es ++ [e]) := by
  refine ⟨windowed_congr hc.windowed rfl, ?_, ?_, ?_⟩
  · intro x
    rw [countP_snoc, ← hc.counted x, hk]
    show Function.update s.bucket k (s.bucket k + 1) x = _
    by_cases hx : x = k
    · rw [hx, Function.update_self]
      simp
    · have hother : ¬ k = x := fun heq => hx heq.symm
      rw [Function.update_of_ne hx]
      simp [hother]
  · exact finite_update_row (p := fun n => n ≠ 0) hc.finite k (s.bucket k + 1)
  · have hnumber := ncard_update_row (p := fun n => n ≠ 0) hc.finite k (s.bucket k + 1)
    have hopen : s.bucket k + 1 ≠ 0 := Nat.succ_ne_zero _
    rw [hc.number, if_pos hopen] at hnumber
    show Set.ncard {x | Function.update s.bucket k (s.bucket k + 1) x ≠ 0} =
      if s.bucket k = 0 then s.bucketCount + 1 else s.bucketCount
    by_cases hzero : s.bucket k = 0
    · have hclosed : ¬ s.bucket k ≠ 0 := not_not.mpr hzero
      rw [if_neg hclosed] at hnumber
      rw [if_pos hzero]
      exact hnumber
    · rw [if_pos hzero] at hnumber
      rw [if_neg hzero]
      exact Nat.succ.inj hnumber

theorem Effect.counted {e : Step contract} (h : Effect s (recorded e) s') (hc : Counted s es) :
    Counted s' (es ++ [e]) := by
  generalize hrecorded : recorded e = k at h
  cases h with
  | aside hwindowed hbuckets hcounts =>
    refine ⟨hwindowed, ?_, ?_, ?_⟩
    · intro k
      rw [hbuckets, hc.counted, countP_snoc, hrecorded]
      rfl
    · rw [hbuckets]
      exact hc.finite
    · rw [hbuckets, hcounts]
      exact hc.number
  | record => exact hc.record hrecorded

theorem run_counted (is : List (Input contract)) :
    Counted ((machine contract).run State.empty is) ((machine contract).journal State.empty is) :=
  Machine.run_journal_invariant counted_empty
    (fun _ _ _ _ _ hc h => (step_effect hc.windowed h).counted hc) is

end Runs

section Windows

/-- The time `t` lies in the window of length `w` that `now` lies in. -/
def inWindow (w now t : Nat) : Bool := now / w * w ≤ t ∧ t < (now / w + 1) * w

theorem inWindow_iff {w : Nat} (hw : 0 < w) (now t : Nat) :
    inWindow w now t = true ↔ t / w = now / w := by
  rw [Nat.div_eq_iff hw, inWindow, decide_eq_true_eq, Nat.add_mul, Nat.one_mul]
  omega

/-- A call of an actor for an action. -/
def isFor (actor : Address) (action : Action) (e : Step contract) : Bool :=
  e.input.call = .checkAndRecord actor action

/-- The window number under which a call is counted. -/
def windowNumber (action : Action) (e : Step contract) : Nat :=
  e.input.env.timestamp / (getActionConfig e.pre action).windowSeconds

/-- The bucket of a window has the calls that lie in the window, as long as no call made under another
window length lies in it or has its number. -/
theorem countP_recorded {actor : Address} {action : Action} {w now : Nat} (hw : 0 < w)
    (hwindow : ∀ e ∈ es, isFor actor action e = true →
      inWindow w now e.input.env.timestamp = true ∨ windowNumber action e = now / w →
        ((getActionConfig e.pre action).windowSeconds : Nat) = w) :
    es.countP (fun e => recorded e = some ((actor, action), now / w)) =
      (es.filter (isFor actor action)).countP fun e => inWindow w now e.input.env.timestamp := by
  rw [List.countP_filter]
  apply List.countP_congr
  intro e he
  obtain ⟨pre, ⟨env, call⟩, output, post⟩ := e
  have hlength := hwindow _ he
  cases call with
  | checkAndRecord named other =>
    by_cases hfor : named = actor ∧ other = action
    · obtain ⟨rfl, rfl⟩ := hfor
      have hsame := hlength (decide_eq_true rfl)
      simp only [inWindow_iff hw, windowNumber] at hsame
      have hnumber : env.timestamp / (getActionConfig pre other).windowSeconds = now / w ↔
          env.timestamp / w = now / w := by
        constructor
        · intro hcounted
          rwa [hsame (.inr hcounted)] at hcounted
        · intro hlies
          rwa [hsame (.inl hlies)]
      simp [recorded, isFor, hnumber, inWindow_iff hw]
    · simp [recorded, isFor, hfor]
  | initializeContract => simp [recorded, isFor]
  | setActionConfig => simp [recorded, isFor]
  | grantServiceAuth => simp [recorded, isFor]
  | revokeServiceAuth => simp [recorded, isFor]

end Windows

/-- After every run, as long as no call of the actor for the action was made under another window length
and lies in the current window or has its number, the usage is the number of the calls that lie in the
current window, and a further call is accepted exactly when that number is below the maximum and nothing
else stands against it. -/
theorem run_usage (is : List (Input contract)) (env : Env contract) {actor : Address}
    {action : Action}
    (hwindow : ∀ e ∈ (machine contract).journal State.empty is, isFor actor action e = true →
      let w := (getActionConfig ((machine contract).run State.empty is) action).windowSeconds
      inWindow w env.timestamp e.input.env.timestamp = true ∨
          windowNumber action e = env.timestamp / w →
        (getActionConfig e.pre action).windowSeconds = w) :
    let m := machine contract
    let s := m.run State.empty is
    let config := getActionConfig s action
    let id := env.timestamp / config.windowSeconds
    let used := ((m.journal State.empty is).filter (isFor actor action)).countP fun e =>
      inWindow config.windowSeconds env.timestamp e.input.env.timestamp
    ((id + 1) * config.windowSeconds < 2^64 →
        currentUsage env s actor action =
          .ok (used, config.maxCount - used, (id + 1) * config.windowSeconds)) ∧
      ((∃ remaining s', m.step s ⟨env, .checkAndRecord actor action⟩ =
          .ok (.remaining remaining, s')) ↔ Admits env s actor config used) ∧
      s.bucketCount = {k | s.bucket k ≠ 0}.ncard := by
  intro m s config id used
  have hcounted : Counted s (m.journal State.empty is) := run_counted is
  have hlength : 0 < (config.windowSeconds : Nat) := hcounted.windowed action
  have hused : s.bucket ((actor, action), id) = used :=
    (hcounted.counted _).trans (countP_recorded hlength fun e he hfor hnear =>
      congrArg Fin.val (hwindow e he hfor hnear))
  refine ⟨?_, ?_, hcounted.number.symm⟩
  · intro hresets
    rw [← hused]
    exact currentUsage_eq hlength hresets
  · rw [← hused]
    constructor
    · intro haccepted
      obtain ⟨remaining, s', hstep⟩ := haccepted
      obtain ⟨⟨count, t⟩, hcheck, _⟩ := map_eq_ok.mp hstep
      exact ((checkAndRecord_eq_ok hlength).mp hcheck).1
    · intro hadmits
      have hcheck := (checkAndRecord_eq_ok hlength).mpr ⟨hadmits, rfl, rfl⟩
      exact ⟨_, _, map_eq_ok.mpr ⟨_, hcheck, rfl⟩⟩

section Samples

/-- A browsing actor, under windows of ten seconds. -/
def sampleCalls : List (Input ⟨0⟩) :=
  [⟨.sample, .initializeContract ⟨1⟩⟩, ⟨.sample, .setActionConfig ⟨1⟩ .discovery .low 10 5⟩,
    ⟨.sample, .checkAndRecord ⟨2⟩ .discovery⟩]

/-- The same, and then the windows become twice as long. -/
def sampleLonger : List (Input ⟨0⟩) :=
  sampleCalls ++ [⟨.sampleLater, .setActionConfig ⟨1⟩ .discovery .low 20 5⟩]

def sampleLatest : Env ⟨0⟩ := .signedByAll ⟨0⟩ 100 (by decide)

/-- The same, and one more call, long after the windows have become longer. -/
def sampleReturn : List (Input ⟨0⟩) :=
  sampleLonger ++ [⟨sampleLatest, .checkAndRecord ⟨2⟩ .discovery⟩]

theorem run_usage_sample :
    currentUsage sampleLatest ((machine ⟨0⟩).run State.empty sampleReturn) ⟨2⟩ .discovery =
      .ok (1, 4, 120) :=
  (run_usage sampleReturn sampleLatest (by decide)).1 (by decide)

/-- A payout is refused although none has been made. And a call at time 10 counts for the window of
twenty seconds that starts at time 20. -/
theorem usage_of_another_window :
    (machine ⟨0⟩).verdicts State.empty
        [⟨.sample, .initializeContract ⟨1⟩⟩, ⟨.sample, .checkAndRecord ⟨2⟩ .payout⟩] =
      [none, some (.err .serviceAuthRequired)] ∧
      currentUsage Env.sampleLater ((machine ⟨0⟩).run State.empty sampleLonger) ⟨2⟩ .discovery =
        .ok (1, 4, 40) ∧
      (((machine ⟨0⟩).journal State.empty sampleLonger).filter (isFor ⟨2⟩ .discovery)).countP
        (fun e => inWindow 20 20 e.input.env.timestamp) = 0 := by
  refine ⟨?_, ?_, ?_⟩
  · decide
  · decide
  · decide

end Samples

end ChainVerse.ScholarshipRateLimits
