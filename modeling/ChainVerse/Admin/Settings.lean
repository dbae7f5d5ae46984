import ChainVerse.Admin.Versions

namespace ChainVerse.ScholarshipAdmin

variable {contract : Address} {s s' : State} {o : Answer} {i : Input contract} {es : List (Step contract)}

section Exposure

/-- The names that are let through are none of them empty, and none of them twice. -/
theorem checkNames_eq_ok {cohorts : List Symbol} {u : Unit} : ∀ {seen : List Symbol},
    checkNames seen cohorts = .ok u ↔ cohorts.Nodup ∧ ∀ cohort ∈ cohorts, cohort ≠ "" ∧ cohort ∉ seen := by
  induction cohorts with
  | nil =>
    intro seen
    simp [checkNames]
  | cons cohort cohorts ih =>
    intro seen
    simp only [checkNames, bind_eq_ok, exists_unit, refuseIf_eq_ok, ih, List.nodup_cons, List.forall_mem_cons,
      List.mem_append, List.mem_singleton, not_or]
    constructor
    · rintro ⟨hnamed, hnew, hnodup, hrest⟩
      refine ⟨⟨?_, hnodup⟩, ⟨hnamed, hnew⟩, ?_⟩
      · intro hin
        exact (hrest cohort hin).2.2 rfl
      · intro c hc
        exact ⟨(hrest c hc).1, (hrest c hc).2.1⟩
    · rintro ⟨⟨hout, hnodup⟩, ⟨hnamed, hnew⟩, hrest⟩
      refine ⟨hnamed, hnew, hnodup, ?_⟩
      intro c hc
      refine ⟨(hrest c hc).1, (hrest c hc).2, ?_⟩
      rintro rfl
      exact hout hc

theorem checkCohorts_eq_ok {cohorts : List Symbol} {state : FlagState} {u : Unit} :
    checkCohorts cohorts state = .ok u ↔
      cohorts.length ≤ 32 ∧ (cohorts.Nodup ∧ "" ∉ cohorts) ∧ (state = .cohortsOnly → cohorts ≠ []) := by
  have hnames : (∀ cohort ∈ cohorts, cohort ≠ "" ∧ cohort ∉ ([] : List Symbol)) ↔ "" ∉ cohorts := by
    constructor
    · intro h hin
      exact (h "" hin).1 rfl
    · intro h cohort hin
      refine ⟨?_, List.not_mem_nil⟩
      rintro rfl
      exact h hin
  simp only [checkCohorts, bind_eq_ok, exists_unit, refuseIf_eq_ok, checkNames_eq_ok, hnames, not_lt, not_and,
    ne_eq]
  rfl

/-- Whether a call sets the flag, and whether it lets the cohort in. -/
def setsFlag (flag : Flag) (environment : Environment) (e : Step contract) : Prop :=
  ∃ admin state cohorts, e.input.call = .setFlag admin flag environment state cohorts

def letsIn (flag : Flag) (environment : Environment) (cohort : Symbol) (e : Step contract) : Prop :=
  ∃ admin state cohorts, e.input.call = .setFlag admin flag environment state cohorts ∧
    (state = .on ∨ state = .cohortsOnly ∧ cohort ∈ cohorts)

theorem isEnabled_eq_true {flag : Flag} {environment : Environment} {cohort : Symbol} :
    isEnabled s flag environment cohort = true ↔ ∃ c, s.flag.current (flag, environment) = some c ∧
      (c.state = .on ∨ c.state = .cohortsOnly ∧ cohort ∈ c.cohorts) := by
  unfold isEnabled
  cases s.flag.current (flag, environment) with
  | none => simp
  | some c => cases hstate : c.state <;> simp [hstate]

/-- What a call does to the flag that is in force. -/
theorem flag_step (h : Effect i.env s i.call o s') (k : Flag × Environment) :
    (∃ c : FlagConfig, i.call = .setFlag c.updatedBy c.flag c.environment c.state c.cohorts ∧ c.key = k ∧
        s'.flag.current k = some c) ∨
      ¬ setsFlag k.1 k.2 (⟨s, i, o, s'⟩ : Step contract) ∧ s'.flag.current k = s.flag.current k := by
  obtain ⟨env, call⟩ := i
  have hother : ∀ {call : Call}, (∀ admin state cohorts, call ≠ .setFlag admin k.1 k.2 state cohorts) →
      ¬ setsFlag k.1 k.2 (⟨s, ⟨env, call⟩, o, s'⟩ : Step contract) := by
    rintro call hcall ⟨admin, state, cohorts, hset⟩
    exact hcall admin state cohorts hset
  cases h with
  | flagged c count =>
    by_cases hk : k = c.key
    · refine .inl ⟨c, rfl, hk.symm, ?_⟩
      rw [hk]
      exact Function.update_self _ _ _
    · refine .inr ⟨hother ?_, Function.update_of_ne hk _ _⟩
      intro admin state cohorts heq
      injection heq with _ hflag henvironment
      exact hk (Prod.ext hflag.symm henvironment.symm)
  | initialized => exact .inr ⟨hother nofun, rfl⟩
  | pinned => exact .inr ⟨hother nofun, rfl⟩
  | configured => exact .inr ⟨hother nofun, rfl⟩
  | restored => exact .inr ⟨hother nofun, rfl⟩

theorem enabled_step (h : Effect i.env s i.call o s') (flag : Flag) (environment : Environment)
    (cohort : Symbol) : isEnabled s' flag environment cohort = true ↔
      letsIn flag environment cohort (⟨s, i, o, s'⟩ : Step contract) ∨
        isEnabled s flag environment cohort = true ∧
          ¬ setsFlag flag environment (⟨s, i, o, s'⟩ : Step contract) := by
  rw [isEnabled_eq_true]
  rcases flag_step h (flag, environment) with ⟨c, hcall, hkey, hcurrent⟩ | ⟨hother, hcurrent⟩
  · obtain ⟨rfl, rfl⟩ := Prod.mk.inj hkey
    have hsets : setsFlag c.flag c.environment (⟨s, i, o, s'⟩ : Step contract) := ⟨_, _, _, hcall⟩
    rw [hcurrent]
    constructor
    · rintro ⟨_, heq, hstate⟩
      cases heq
      exact .inl ⟨_, _, _, hcall, hstate⟩
    · rintro (⟨admin, state, cohorts, hset, hstate⟩ | ⟨_, hother⟩)
      · have hsame := hcall.symm.trans hset
        cases hsame
        exact ⟨c, rfl, hstate⟩
      · exact absurd hsets hother
  · rw [hcurrent, ← isEnabled_eq_true]
    constructor
    · intro henabled
      exact .inr ⟨henabled, hother⟩
    · rintro (⟨admin, state, cohorts, hset, _⟩ | ⟨henabled, _⟩)
      · exact absurd ⟨admin, state, cohorts, hset⟩ hother
      · exact henabled

theorem flagged_by {env : Env contract} {admin : Address} {flag : Flag} {environment : Environment}
    {state : FlagState} {cohorts : List Symbol}
    (h : Effect env s (.setFlag admin flag environment state cohorts) o s') :
    s.admin = some admin ∧ env.signers admin = true ∧ checkCohorts cohorts state = .ok () := by
  cases h with
  | flagged c count configured signed checked => exact ⟨configured, signed, checked⟩

/-- Over every run, a flag is open to a cohort exactly when the last call that set it has opened it, to
everybody or to cohorts of which this is one. Whoever sets a flag is the administrator and signs for it, and
names at most thirty-two cohorts, none empty and none twice, and at least one where it opens the flag to
cohorts only. -/
theorem flags_are_open_as_last_set (is : List (Input contract)) :
    (∀ flag environment cohort, isEnabled ((machine contract).run State.empty is) flag environment cohort ↔
      Since (letsIn flag environment cohort) (setsFlag flag environment)
        ((machine contract).journal State.empty is)) ∧
      ∀ e ∈ (machine contract).journal State.empty is, ∀ admin flag environment state cohorts,
        e.input.call = .setFlag admin flag environment state cohorts →
          e.pre.admin = some admin ∧ e.input.env.signers admin = true ∧
            cohorts.length ≤ 32 ∧ (cohorts.Nodup ∧ "" ∉ cohorts) ∧ (state = .cohortsOnly → cohorts ≠ []) := by
  refine ⟨?_, ?_⟩
  · intro flag environment cohort
    apply Machine.run_since (P := fun s : State => isEnabled s flag environment cohort = true)
    · intro h
      cases h
    · intro s i o s' hstep
      exact enabled_step (step_effect hstep) flag environment cohort
  · intro e he admin flag environment state cohorts hcall
    obtain ⟨hstep, _⟩ := Machine.journal_step he
    have heffect := step_effect hstep
    rw [hcall] at heffect
    obtain ⟨hconfigured, hsigned, hchecked⟩ := flagged_by heffect
    exact ⟨hconfigured, hsigned, checkCohorts_eq_ok.mp hchecked⟩

end Exposure

section Rollbacks

/-- A value that stands or is kept has passed the check of its kind. -/
theorem ConfigsKept.valid {h : ConfigKind × Bytes32 → List AdminConfig} (hkept : ConfigsKept s h)
    {kind : ConfigKind} {subject : Bytes32} {version : Nat} {c : AdminConfig}
    (hread : getConfig s kind subject = .ok c ∨ configVersion s kind subject version = .ok c) :
    c.kind = kind ∧ c.subject = subject ∧ previewConfig kind c.a c.b c.refHash = .ok () := by
  simp only [getConfig, configVersion, orRefuse_eq_ok] at hread
  have hin : c ∈ h (kind, subject) := by
    rcases hread with hcurrent | hline
    · exact (hkept.windows.counted hcurrent).2
    · rw [hkept.windows.line] at hline
      exact List.mem_of_getElem? (shown_mem hline).2
  obtain ⟨hkey, hvalid⟩ := hkept.sound _ c hin
  obtain ⟨rfl, rfl⟩ := Prod.mk.inj hkey
  exact ⟨rfl, rfl, hvalid⟩

theorem ConfigsKept.subject {h : ConfigKind × Bytes32 → List AdminConfig} (hkept : ConfigsKept s h)
    {kind : ConfigKind} {subject : Bytes32} {c : AdminConfig} (hread : getConfig s kind subject = .ok c) :
    c.subject = subject := by
  have hvalid := @ConfigsKept.valid _ h hkept kind subject c.version c (.inl hread)
  exact hvalid.2.1

/-- A kept version of a value is there only where a value stands. -/
theorem ConfigsKept.stands {h : ConfigKind × Bytes32 → List AdminConfig} (hkept : ConfigsKept s h)
    {k : ConfigKind × Bytes32} {version : Nat} {c : AdminConfig} (hline : s.config.line (k, version) = some c) :
    ∃ current, s.config.current k = some current ∧ current.version = (h k).length := by
  rw [hkept.windows.line] at hline
  have hin := List.mem_of_getElem? (shown_mem hline).2
  cases hcurrent : s.config.current k with
  | none =>
    rw [hkept.windows.absent.mp hcurrent] at hin
    cases hin
  | some current => exact ⟨current, rfl, (hkept.windows.counted hcurrent).1⟩

/-- Over every run, every configuration value that can be read, the one in force or an earlier one, passes
the check of its kind. A rollback goes through exactly when the administrator signs for it, the version can
still be read and there is a number left, and then the value of that version is in force again, under the
number after all that have been in force; every other value stands as it did. -/
theorem rollbacks_restore_checked_values (is : List (Input contract)) :
    (∀ kind subject version c,
      getConfig ((machine contract).run State.empty is) kind subject = .ok c ∨
          configVersion ((machine contract).run State.empty is) kind subject version = .ok c →
        c.kind = kind ∧ c.subject = subject ∧ previewConfig kind c.a c.b c.refHash = .ok ()) ∧
      ∀ (env : Env contract) admin kind subject version,
        ((∃ answer, rollbackConfig env ((machine contract).run State.empty is) admin kind subject version =
            .ok answer) ↔
          env.signers admin = true ∧ ((machine contract).run State.empty is).admin = some admin ∧
            (∃ c, configVersion ((machine contract).run State.empty is) kind subject version = .ok c) ∧
            (configHistory ((machine contract).journal State.empty is) (kind, subject)).length + 1 < 2^32) ∧
        ∀ v s', rollbackConfig env ((machine contract).run State.empty is) admin kind subject version =
            .ok (v, s') →
          v = (configHistory ((machine contract).journal State.empty is) (kind, subject)).length + 1 ∧
            (∃ target,
              configVersion ((machine contract).run State.empty is) kind subject version = .ok target ∧
                getConfig s' kind subject = .ok { target with
                  version := v
                  updatedAt := env.timestamp
                  updatedBy := admin }) ∧
            ∀ kind' subject', (kind', subject') ≠ (kind, subject) →
              getConfig s' kind' subject' =
                getConfig ((machine contract).run State.empty is) kind' subject' := by
  obtain ⟨_, hkept⟩ := run_kept is
  refine ⟨fun kind subject version c => hkept.valid, ?_⟩
  intro env admin kind subject version
  refine ⟨?_, ?_⟩
  · constructor
    · rintro ⟨⟨v, s'⟩, h⟩
      simp only [rollbackConfig, bind_eq_ok, exists_unit, requireAuth_eq_ok, requireAdmin_eq_ok,
        orRefuse_eq_ok, fitsU_eq_some] at h
      obtain ⟨hsigned, hconfigured, target, hfound, current, hcurrent, _, ⟨hfits, _⟩, _⟩ := h
      rw [(hkept.windows.counted hcurrent).1] at hfits
      exact ⟨hsigned, hconfigured, ⟨target, orRefuse_eq_ok.mpr hfound⟩, hfits⟩
    · rintro ⟨hsigned, hconfigured, ⟨target, hread⟩, hfits⟩
      have hfound := orRefuse_eq_ok.mp hread
      obtain ⟨current, hcurrent, hversion⟩ := hkept.stands hfound
      rw [← hversion] at hfits
      simp only [rollbackConfig, bind_eq_ok, exists_unit, requireAuth_eq_ok, requireAdmin_eq_ok,
        orRefuse_eq_ok, fitsU_eq_some, pure_eq_ok]
      exact ⟨_, hsigned, hconfigured, target, hfound, current, hcurrent, _, ⟨hfits, rfl⟩, rfl⟩
  · intro v s' h
    simp only [rollbackConfig, bind_eq_ok, exists_unit, requireAuth_eq_ok, requireAdmin_eq_ok, orRefuse_eq_ok,
      fitsU_eq_some, pure_eq_ok, Prod.mk.injEq] at h
    obtain ⟨_, _, target, hfound, current, hcurrent, _, ⟨_, rfl⟩, rfl, rfl⟩ := h
    obtain ⟨hkind, hsubject, _⟩ := hkept.valid (.inr (orRefuse_eq_ok.mpr hfound))
    have hkey : target.key = (kind, subject) := Prod.ext hkind hsubject
    refine ⟨?_, ⟨target, orRefuse_eq_ok.mpr hfound, ?_⟩, ?_⟩
    · rw [(hkept.windows.counted hcurrent).1]
    · apply orRefuse_eq_ok.mpr
      rw [← hkey]
      exact Function.update_self _ _ _
    · intro kind' subject' hother
      rw [← hkey] at hother
      unfold getConfig
      congr 1
      exact Function.update_of_ne hother _ _

end Rollbacks

section Keys

/-- A place that is written is taken; it counts for one more where it was free. -/
theorem ncard_taken {K V : Type} [DecidableEq K] {table : K → Option V}
    (h : {x | table x ≠ none}.Finite) (k : K) (v : V) :
    {x | Function.update table k (some v) x ≠ none}.ncard =
      {x | table x ≠ none}.ncard + (if table k = none then 1 else 0) := by
  have hmoved := ncard_update_row (p := (· ≠ none)) h k (some v)
  rw [if_pos (Option.some_ne_none v)] at hmoved
  by_cases hk : table k = none
  · rw [if_neg (not_not_intro hk)] at hmoved
    rw [if_pos hk]
    omega
  · rw [if_pos hk] at hmoved
    rw [if_neg hk]
    omega

/-- The counters count the places that are taken, and the index of a kind is that of its values. -/
structure Counted (s : State) : Prop where
  finite_flags : {k | s.flag.current k ≠ none}.Finite
  finite_configs : {k | s.config.current k ≠ none}.Finite
  finite_pins : {k | s.pin k ≠ none}.Finite
  keys : s.configKeyCount = {k | s.flag.current k ≠ none}.ncard + {k | s.config.current k ≠ none}.ncard
  keys_le : s.configKeyCount ≤ maxConfigKeys
  pins : s.pinCount = {k | s.pin k ≠ none}.ncard
  pins_le : s.pinCount ≤ maxPins
  once : ∀ kind, (s.configIndex kind).Nodup
  indexed : ∀ kind subject, subject ∈ s.configIndex kind ↔ s.config.current (kind, subject) ≠ none

/-- A number that follows takes a place exactly when the key is new. -/
theorem Next.count {V : Type} {previous : Option V} {number : V → Nat} {count version : Nat}
    (h : Next s (previous.map number) count version) :
    count = s.configKeyCount + (if previous = none then 1 else 0) ∧
      (s.configKeyCount ≤ maxConfigKeys → count ≤ maxConfigKeys) := by
  cases previous with
  | none =>
    cases h with
    | first room => exact ⟨rfl, fun _ => room⟩
  | some previous =>
    cases h with
    | later => exact ⟨rfl, id⟩

/-- A subject goes into the index of its kind once. -/
theorem indexConfig_index (kind : ConfigKind) (subject : Bytes32) (kind' : ConfigKind)
    (hnodup : (s.configIndex kind').Nodup) :
    ((indexConfig s kind subject).configIndex kind').Nodup ∧
      ∀ subject', subject' ∈ (indexConfig s kind subject).configIndex kind' ↔
        (kind', subject') = (kind, subject) ∨ subject' ∈ s.configIndex kind' := by
  unfold indexConfig
  dsimp only
  by_cases hkind : kind' = kind
  · subst hkind
    rw [Function.update_self]
    by_cases hin : subject ∈ s.configIndex kind'
    · rw [if_pos hin]
      refine ⟨hnodup, ?_⟩
      intro subject'
      simp only [Prod.mk.injEq, true_and]
      constructor
      · exact .inr
      · rintro (rfl | hold)
        · exact hin
        · exact hold
    · rw [if_neg hin]
      refine ⟨?_, ?_⟩
      · rw [← List.concat_eq_append]
        exact hnodup.concat hin
      intro subject'
      simp only [List.mem_append, List.mem_singleton, Prod.mk.injEq, true_and]
      exact or_comm
  · rw [Function.update_of_ne hkind]
    refine ⟨hnodup, ?_⟩
    intro subject'
    simp [hkind]

/-- A value is written under a key of the index. -/
theorem Counted.saveConfig (hs : Counted s) (c : AdminConfig) {count : Nat} {index : ConfigKind → List Bytes32}
    (hcount : count = s.configKeyCount + (if s.config.current c.key = none then 1 else 0))
    (hroom : count ≤ maxConfigKeys)
    (hindex : ∀ kind, (index kind).Nodup ∧
      ∀ subject, subject ∈ index kind ↔ (kind, subject) = c.key ∨ subject ∈ s.configIndex kind) :
    Counted (saveConfig { s with configKeyCount := count, configIndex := index } c) := by
  have htaken := ncard_taken hs.finite_configs c.key c
  refine { hs with
    finite_configs := finite_update_row (p := (· ≠ none)) hs.finite_configs c.key (some c)
    keys := ?_
    keys_le := hroom
    once := fun kind => (hindex kind).1
    indexed := ?_ }
  · calc count = s.configKeyCount + (if s.config.current c.key = none then 1 else 0) := hcount
      _ = _ := by
        rw [hs.keys, Nat.add_assoc, ← htaken]
        rfl
  · intro kind subject
    refine ((hindex kind).2 subject).trans ?_
    rw [hs.indexed]
    change _ ↔ Function.update s.config.current c.key (some c) (kind, subject) ≠ none
    by_cases hkey : (kind, subject) = c.key
    · rw [hkey, Function.update_self]
      exact ⟨fun _ => Option.some_ne_none c, fun _ => .inl rfl⟩
    · rw [Function.update_of_ne hkey]
      exact ⟨fun h => h.resolve_left hkey, .inr⟩

/-- A key that has a value is in the index already. -/
theorem Counted.listed (hs : Counted s) {k : ConfigKind × Bytes32} (hk : s.config.current k ≠ none)
    (kind : ConfigKind) : (s.configIndex kind).Nodup ∧
      ∀ subject, subject ∈ s.configIndex kind ↔ (kind, subject) = k ∨ subject ∈ s.configIndex kind := by
  refine ⟨hs.once kind, ?_⟩
  intro subject
  refine ⟨.inr, ?_⟩
  rintro (rfl | hold)
  · exact (hs.indexed kind subject).mpr hk
  · exact hold

theorem Counted.step {h : ConfigKind × Bytes32 → List AdminConfig} (hs : Counted s) (hkept : ConfigsKept s h)
    (hstep : Effect i.env s i.call o s') : Counted s' := by
  obtain ⟨env, call⟩ := i
  cases hstep with
  | initialized => exact { hs with }
  | flagged c count _ _ _ _ next =>
    obtain ⟨hcount, hroom⟩ := next.count
    have htaken := ncard_taken hs.finite_flags c.key c
    refine { hs with
      finite_flags := finite_update_row (p := (· ≠ none)) hs.finite_flags c.key (some c)
      keys := ?_
      keys_le := hroom hs.keys_le }
    calc count = s.configKeyCount + (if s.flag.current c.key = none then 1 else 0) := hcount
      _ = _ := by
        rw [hs.keys, Nat.add_right_comm, ← htaken]
        rfl
  | pinned flag environment workflow c count _ counted =>
    have htaken := ncard_taken hs.finite_pins (workflow, flag, environment) c.state
    refine { hs with
      finite_pins :=
        finite_update_row (p := (· ≠ none)) hs.finite_pins (workflow, flag, environment) (some c.state)
      pins := ?_
      pins_le := ?_ }
    · rcases counted with ⟨hnew, _, rfl⟩ | ⟨hold, rfl⟩
      · rw [if_pos hnew, ← hs.pins] at htaken
        exact htaken.symm
      · rw [if_neg hold, ← hs.pins] at htaken
        exact htaken.symm
    · rcases counted with ⟨_, hroom, rfl⟩ | ⟨_, rfl⟩
      · exact hroom
      · exact hs.pins_le
  | configured c count index _ _ _ _ next indexed =>
    obtain ⟨hcount, hroom⟩ := next.count
    apply hs.saveConfig c hcount (hroom hs.keys_le)
    intro kind
    rw [indexed]
    cases hprevious : s.config.current c.key with
    | none =>
      rw [Option.isNone_none, if_pos rfl]
      exact indexConfig_index c.kind c.subject kind (hs.once kind)
    | some previous =>
      rw [Option.isNone_some, if_neg Bool.false_ne_true]
      exact hs.listed (by simp [hprevious]) kind
  | restored admin kind subject version target current _ _ found stands =>
    obtain ⟨hkind, hsubject, _⟩ := hkept.valid (.inr (orRefuse_eq_ok.mpr found))
    have hkey : target.key = (kind, subject) := Prod.ext hkind hsubject
    have hstands : s.config.current target.key ≠ none := by simp [hkey, stands]
    let c : AdminConfig :=
      { target with
        version := current.version + 1
        updatedAt := env.timestamp
        updatedBy := admin }
    have hold : s.config.current c.key ≠ none := hstands
    exact hs.saveConfig c (by rw [if_neg hold, Nat.add_zero]) hs.keys_le
      (hs.listed hold)

theorem counted_empty : Counted State.empty where
  finite_flags := by simp [State.empty, Versions.empty]
  finite_configs := by simp [State.empty, Versions.empty]
  finite_pins := by simp [State.empty]
  keys := by simp [State.empty, Versions.empty]
  keys_le := Nat.zero_le _
  pins := by simp [State.empty]
  pins_le := Nat.zero_le _
  once _ := List.nodup_nil
  indexed _ _ := by simp [State.empty, Versions.empty]

theorem run_counted (is : List (Input contract)) : Counted ((machine contract).run State.empty is) := by
  induction is using List.reverseRecOn with
  | nil => exact counted_empty
  | append_singleton is i ih =>
    rw [Machine.run_append, Machine.run_cons, Machine.run_nil]
    rcases (machine contract).next_cases ((machine contract).run State.empty is) i with hsame | ⟨o, hstep⟩
    · rw [hsame]
      exact ih
    · exact ih.step (run_kept is).2 (step_effect hstep)

/-- The listing of a kind is the values of the subjects of its index, in their order. -/
theorem Counted.listing {h : ConfigKind × Bytes32 → List AdminConfig} (hs : Counted s)
    (hkept : ConfigsKept s h) (kind : ConfigKind) :
    (listConfig s kind).map AdminConfig.subject = s.configIndex kind ∧
      ∀ c, c ∈ listConfig s kind ↔ getConfig s kind c.subject = .ok c := by
  have hvalue : ∀ subject ∈ s.configIndex kind, ∃ c, getConfig s kind subject = .ok c ∧ c.subject = subject := by
    intro subject hin
    obtain ⟨c, hcurrent⟩ := Option.ne_none_iff_exists'.mp ((hs.indexed kind subject).mp hin)
    have hread : getConfig s kind subject = .ok c := orRefuse_eq_ok.mpr hcurrent
    exact ⟨c, hread, hkept.subject hread⟩
  refine ⟨?_, ?_⟩
  · unfold listConfig
    generalize s.configIndex kind = subjects at hvalue
    induction subjects with
    | nil => rfl
    | cons subject subjects ih =>
      obtain ⟨hfirst, hrest⟩ := List.forall_mem_cons.mp hvalue
      obtain ⟨c, hread, hsubject⟩ := hfirst
      have hsome : (getConfig s kind subject).toOption = some c := toOption_eq_some.mpr hread
      rw [List.filterMap_cons, hsome, List.map_cons, hsubject, ih hrest]
  · intro c
    simp only [listConfig, List.mem_filterMap, toOption_eq_some]
    constructor
    · rintro ⟨subject, _, hread⟩
      rw [hkept.subject hread]
      exact hread
    · intro hread
      refine ⟨c.subject, ?_, hread⟩
      rw [hs.indexed, orRefuse_eq_ok.mp hread]
      exact Option.some_ne_none c

/-- Over every run, one ceiling of two thousand counts the flags and the configuration values that have
been set, each key once however often it is set or rolled back. The index of a kind names every subject
that has a value, and each of them once, so that the listing of the kind is exactly its values in force,
one for a subject, in the order of the index. -/
theorem keys_are_counted_and_listed_once (is : List (Input contract)) :
    ({k | ((machine contract).run State.empty is).flag.current k ≠ none}.Finite ∧
      {k | ((machine contract).run State.empty is).config.current k ≠ none}.Finite ∧
      ((machine contract).run State.empty is).configKeyCount =
        {k | ((machine contract).run State.empty is).flag.current k ≠ none}.ncard +
          {k | ((machine contract).run State.empty is).config.current k ≠ none}.ncard ∧
      ((machine contract).run State.empty is).configKeyCount ≤ 2000) ∧
      ∀ kind,
        ((listConfig ((machine contract).run State.empty is) kind).map AdminConfig.subject).Nodup ∧
          (listConfig ((machine contract).run State.empty is) kind).map AdminConfig.subject =
            ((machine contract).run State.empty is).configIndex kind ∧
          ∀ c, c ∈ listConfig ((machine contract).run State.empty is) kind ↔
            getConfig ((machine contract).run State.empty is) kind c.subject = .ok c := by
  have hcounted := run_counted is
  refine ⟨⟨hcounted.finite_flags, hcounted.finite_configs, hcounted.keys, hcounted.keys_le⟩, ?_⟩
  intro kind
  obtain ⟨hsubjects, hvalues⟩ := hcounted.listing (run_kept is).2 kind
  refine ⟨?_, hsubjects, hvalues⟩
  rw [hsubjects]
  exact hcounted.once kind

end Keys

section Pins

/-- Whether a call pins the workflow to the flag, and whether it does so in this state. -/
def pins (key : Bytes32 × Flag × Environment) (e : Step contract) : Prop :=
  e.input.call = .pin key.2.1 key.2.2 key.1

def pinsTo (key : Bytes32 × Flag × Environment) (state : FlagState) (e : Step contract) : Prop :=
  pins key e ∧ e.output = .pinned state

theorem pin_step (h : Effect i.env s i.call o s') (key : Bytes32 × Flag × Environment) (state : FlagState) :
    s'.pin key = some state ↔ pinsTo key state (⟨s, i, o, s'⟩ : Step contract) ∨
      s.pin key = some state ∧ ¬ pins key (⟨s, i, o, s'⟩ : Step contract) := by
  obtain ⟨env, call⟩ := i
  have hother : ∀ {call : Call}, call ≠ .pin key.2.1 key.2.2 key.1 →
      (s.pin key = some state ↔ pinsTo key state (⟨s, ⟨env, call⟩, o, s'⟩ : Step contract) ∨
        s.pin key = some state ∧ ¬ pins key (⟨s, ⟨env, call⟩, o, s'⟩ : Step contract)) := by
    intro call hcall
    constructor
    · intro hold
      exact .inr ⟨hold, hcall⟩
    · rintro (⟨hpins, _⟩ | ⟨hold, _⟩)
      · exact absurd hpins hcall
      · exact hold
  cases h with
  | pinned flag environment workflow c =>
    by_cases hkey : key = (workflow, flag, environment)
    · subst hkey
      dsimp only
      rw [Function.update_self, Option.some.injEq]
      constructor
      · rintro rfl
        exact .inl ⟨rfl, rfl⟩
      · rintro (⟨_, hanswer⟩ | ⟨_, hnone⟩)
        · injection hanswer
        · exact absurd rfl hnone
    · dsimp only
      rw [Function.update_of_ne hkey]
      apply hother
      intro heq
      injection heq with hflag henvironment hworkflow
      exact hkey (Prod.ext hworkflow.symm (Prod.ext hflag.symm henvironment.symm))
  | initialized => exact hother nofun
  | flagged => exact hother nofun
  | configured => exact hother nofun
  | restored => exact hother nofun

theorem pinned_by {env : Env contract} {flag : Flag} {environment : Environment} {workflow : Bytes32}
    (h : Effect env s (.pin flag environment workflow) o s') :
    ∃ c, getFlag s flag environment = .ok c ∧ o = .pinned c.state := by
  cases h with
  | pinned _ _ _ c _ found => exact ⟨c, found, rfl⟩

/-- Over every run, a workflow is pinned to the state that the flag had when it was last pinned, whatever
the flag has been set to since, and a later pin takes the place of an earlier one. The pins that stand are
counted, each of them once, and are at most five thousand. -/
theorem pins_hold_the_state_last_pinned (is : List (Input contract)) :
    (∀ flag environment workflow state,
      pinnedState ((machine contract).run State.empty is) flag environment workflow = .ok state ↔
        Since (pinsTo (workflow, flag, environment) state) (pins (workflow, flag, environment))
          ((machine contract).journal State.empty is)) ∧
      (∀ e ∈ (machine contract).journal State.empty is, ∀ flag environment workflow,
        e.input.call = .pin flag environment workflow →
          ∃ c, getFlag e.pre flag environment = .ok c ∧ e.output = .pinned c.state) ∧
      {key | ((machine contract).run State.empty is).pin key ≠ none}.Finite ∧
      ((machine contract).run State.empty is).pinCount =
        {key | ((machine contract).run State.empty is).pin key ≠ none}.ncard ∧
      ((machine contract).run State.empty is).pinCount ≤ 5000 := by
  have hcounted := run_counted is
  refine ⟨?_, ?_, hcounted.finite_pins, hcounted.pins, hcounted.pins_le⟩
  · intro flag environment workflow state
    rw [pinnedState, orRefuse_eq_ok]
    apply Machine.run_since (P := fun s : State => s.pin (workflow, flag, environment) = some state)
    · intro h
      cases h
    · intro s i o s' hstep
      exact pin_step (step_effect hstep) _ state
  · intro e he flag environment workflow hcall
    obtain ⟨hstep, _⟩ := Machine.journal_step he
    have heffect := step_effect hstep
    rw [hcall] at heffect
    exact pinned_by heffect

end Pins

end ChainVerse.ScholarshipAdmin
