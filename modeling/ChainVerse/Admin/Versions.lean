import ChainVerse.Admin.Contract
import ChainVerse.Framework.Histories
import ChainVerse.Framework.Tables
import ChainVerse.Host.Bytes

namespace ChainVerse.ScholarshipAdmin

/-- An accepted call of a run, with the stores around it. -/
abbrev Step (contract : Address) := Entry State (Input contract) Answer

variable {contract : Address} {env : Env contract} {s s' : State} {call : Call} {o : Answer}
  {i : Input contract} {es : List (Step contract)}

section Effects

/-- The version that follows, and whether the key is new and takes one of the places for keys. -/
inductive Next (s : State) : Option Nat → Nat → Nat → Prop where
  | first (room : s.configKeyCount < maxConfigKeys) : Next s none (s.configKeyCount + 1) 1
  | later (version : Nat) : Next s (some version) s.configKeyCount (version + 1)

/-- Everything an accepted call can have done. -/
inductive Effect (env : Env contract) (s : State) : Call → Answer → State → Prop where
  | initialized (admin : Address) (vacant : s.admin = none) (signed : env.signers admin = true) :
      Effect env s (.initializeContract admin) .done { s with admin := some admin }
  | flagged (c : FlagConfig) (count : Nat) (configured : s.admin = some c.updatedBy)
      (signed : env.signers c.updatedBy = true) (checked : checkCohorts c.cohorts c.state = .ok ())
      (now : c.effectiveAt = env.timestamp)
      (next : Next s ((s.flag.current c.key).map FlagConfig.version) count c.version) :
      Effect env s (.setFlag c.updatedBy c.flag c.environment c.state c.cohorts) (.version c.version)
        (saveFlag { s with configKeyCount := count } c)
  | pinned (flag : Flag) (environment : Environment) (workflow : Bytes32) (c : FlagConfig) (count : Nat)
      (found : getFlag s flag environment = .ok c)
      (counted : s.pin (workflow, flag, environment) = none ∧ s.pinCount < maxPins ∧
          count = s.pinCount + 1 ∨
        s.pin (workflow, flag, environment) ≠ none ∧ count = s.pinCount) :
      Effect env s (.pin flag environment workflow) (.pinned c.state)
        { s with
          pin := Function.update s.pin (workflow, flag, environment) (some c.state)
          pinCount := count }
  | configured (c : AdminConfig) (count : Nat) (index : ConfigKind → List Bytes32)
      (configured : s.admin = some c.updatedBy) (signed : env.signers c.updatedBy = true)
      (valid : validate c.kind c.a c.b c.refHash = .ok ()) (now : c.updatedAt = env.timestamp)
      (next : Next s ((s.config.current c.key).map AdminConfig.version) count c.version)
      (indexed : index = if (s.config.current c.key).isNone then (indexConfig s c.kind c.subject).configIndex
        else s.configIndex) :
      Effect env s (.setConfig c.updatedBy c.kind c.subject c.a c.b c.refHash c.label) (.version c.version)
        (saveConfig { s with configKeyCount := count, configIndex := index } c)
  | restored (admin : Address) (kind : ConfigKind) (subject : Bytes32) (version : Nat)
      (target current : AdminConfig) (configured : s.admin = some admin)
      (signed : env.signers admin = true) (found : s.config.line ((kind, subject), version) = some target)
      (stands : s.config.current (kind, subject) = some current) :
      Effect env s (.rollbackConfig admin kind subject version) (.version (current.version + 1))
        (saveConfig s { target with
          version := current.version + 1
          updatedAt := env.timestamp
          updatedBy := admin })

/-- What the reservation and the numbering of a version come to. -/
theorem reserveNewKey_next {V : Type} {previous : Option V} {number : V → Nat} {reserved : State}
    {version : Nat} (h : reserveNewKey s previous.isNone = .ok reserved)
    (hversion : nextVersion (previous.map number) = .ok version) :
    ∃ count, reserved = { s with configKeyCount := count } ∧ Next s (previous.map number) count version := by
  cases previous with
  | none =>
    rw [Option.map_none, nextVersion, pure_eq_ok] at hversion
    rw [Option.isNone_none, reserveNewKey, if_pos rfl] at h
    simp only [reserveConfigKey, reserve, bind_eq_ok, exists_unit, refuseIf_eq_ok, orRefuse_eq_ok,
      fitsU_eq_some, pure_eq_ok, not_le] at h
    obtain ⟨_, ⟨hroom, _, rfl⟩, rfl⟩ := h
    rw [← hversion]
    exact ⟨_, rfl, .first hroom⟩
  | some previous =>
    simp only [Option.map_some, nextVersion, orRefuse_eq_ok, fitsU_eq_some] at hversion
    rw [Option.isNone_some, reserveNewKey, if_neg Bool.false_ne_true, pure_eq_ok] at h
    rw [← hversion.2]
    exact ⟨_, h.symm, .later (number previous)⟩

theorem requireAdmin_eq_ok {account : Address} {u : Unit} :
    requireAdmin s account = .ok u ↔ s.admin = some account := by
  rw [requireAdmin, refuseIf_eq_ok, not_not]

theorem setFlag_effect {admin : Address} {flag : Flag} {environment : Environment} {state : FlagState}
    {cohorts : List Symbol} {version : Nat}
    (h : setFlag env s admin flag environment state cohorts = .ok (version, s')) :
    Effect env s (.setFlag admin flag environment state cohorts) (.version version) s' := by
  simp only [setFlag, bind_eq_ok, exists_unit, requireAuth_eq_ok, requireAdmin_eq_ok, pure_eq_ok,
    Prod.mk.injEq] at h
  obtain ⟨hsigned, hconfigured, hchecked, reserved, hreserved, version, hversion, rfl, rfl⟩ := h
  let c : FlagConfig :=
    { flag, environment, state, cohorts, version, effectiveAt := env.timestamp, updatedBy := admin }
  obtain ⟨count, rfl, hnext⟩ := reserveNewKey_next hreserved hversion
  exact .flagged c count hconfigured hsigned hchecked rfl hnext

theorem pin_effect {flag : Flag} {environment : Environment} {workflow : Bytes32} {state : FlagState}
    (h : pin s flag environment workflow = .ok (state, s')) :
    Effect env s (.pin flag environment workflow) (.pinned state) s' := by
  simp only [pin, bind_eq_ok, pure_eq_ok, Prod.mk.injEq] at h
  obtain ⟨c, hfound, reserved, hreserved, rfl, rfl⟩ := h
  rcases hpin : s.pin (workflow, flag, environment) with _ | pinned
  · rw [hpin, Option.isNone_none, reserveNewPin, if_pos rfl] at hreserved
    simp only [reservePin, reserve, bind_eq_ok, exists_unit, refuseIf_eq_ok, orRefuse_eq_ok,
      fitsU_eq_some, pure_eq_ok, not_le] at hreserved
    obtain ⟨_, ⟨hroom, _, rfl⟩, rfl⟩ := hreserved
    exact .pinned flag environment workflow c _ hfound (.inl ⟨hpin, hroom, rfl⟩)
  · rw [hpin, Option.isNone_some, reserveNewPin, if_neg Bool.false_ne_true, pure_eq_ok] at hreserved
    rw [← hreserved]
    exact .pinned flag environment workflow c _ hfound (.inr ⟨by simp [hpin], rfl⟩)

theorem setConfig_effect {admin : Address} {kind : ConfigKind} {subject refHash : Bytes32} {a b : Int}
    {label : Symbol} {version : Nat}
    (h : setConfig env s admin kind subject a b refHash label = .ok (version, s')) :
    Effect env s (.setConfig admin kind subject a b refHash label) (.version version) s' := by
  simp only [setConfig, bind_eq_ok, exists_unit, requireAuth_eq_ok, requireAdmin_eq_ok, pure_eq_ok,
    Prod.mk.injEq] at h
  obtain ⟨hsigned, hconfigured, hvalid, reserved, hreserved, version, hversion, rfl, rfl⟩ := h
  let c : AdminConfig :=
    { kind, subject, a, b, refHash, label, version, updatedAt := env.timestamp, updatedBy := admin }
  obtain ⟨count, rfl, hnext⟩ := reserveNewKey_next hreserved hversion
  have heffect := @Effect.configured _ env s c count _ hconfigured hsigned hvalid rfl hnext rfl
  cases hprevious : s.config.current (kind, subject) with
  | none =>
    have hkey : s.config.current c.key = none := hprevious
    rw [hkey, Option.isNone_none, if_pos rfl] at heffect
    exact heffect
  | some previous =>
    have hkey : s.config.current c.key = some previous := hprevious
    rw [hkey, Option.isNone_some, if_neg Bool.false_ne_true] at heffect
    exact heffect

theorem rollbackConfig_effect {admin : Address} {kind : ConfigKind} {subject : Bytes32}
    {version newVersion : Nat}
    (h : rollbackConfig env s admin kind subject version = .ok (newVersion, s')) :
    Effect env s (.rollbackConfig admin kind subject version) (.version newVersion) s' := by
  simp only [rollbackConfig, bind_eq_ok, exists_unit, requireAuth_eq_ok, requireAdmin_eq_ok, orRefuse_eq_ok,
    fitsU_eq_some, pure_eq_ok, Prod.mk.injEq] at h
  obtain ⟨hsigned, hconfigured, target, hfound, current, hstands, _, ⟨_, rfl⟩, rfl, rfl⟩ := h
  exact .restored admin kind subject version target current hconfigured hsigned hfound hstands

/-- What an accepted entry point has done. -/
theorem step_effect (h : (machine contract).step s i = .ok (o, s')) : Effect i.env s i.call o s' := by
  obtain ⟨env, call⟩ := i
  cases call with
  | initializeContract admin =>
    simp only [machine, execute, map_eq_ok, initializeContract, bind_eq_ok, exists_unit,
      refuseIf_eq_ok, requireAuth_eq_ok, pure_eq_ok, not_not, Prod.mk.injEq] at h
    obtain ⟨_, ⟨hvacant, hsigned, rfl⟩, rfl, rfl⟩ := h
    exact .initialized admin hvacant hsigned
  | setFlag =>
    simp only [machine, execute, map_eq_ok, Prod.map, Prod.mk.injEq, id] at h
    obtain ⟨⟨_, _⟩, hset, rfl, rfl⟩ := h
    exact setFlag_effect hset
  | pin =>
    simp only [machine, execute, map_eq_ok, Prod.map, Prod.mk.injEq, id] at h
    obtain ⟨⟨_, _⟩, hpin, rfl, rfl⟩ := h
    exact pin_effect hpin
  | setConfig =>
    simp only [machine, execute, map_eq_ok, Prod.map, Prod.mk.injEq, id] at h
    obtain ⟨⟨_, _⟩, hset, rfl, rfl⟩ := h
    exact setConfig_effect hset
  | rollbackConfig =>
    simp only [machine, execute, map_eq_ok, Prod.map, Prod.mk.injEq, id] at h
    obtain ⟨⟨_, _⟩, hrollback, rfl, rfl⟩ := h
    exact rollbackConfig_effect hrollback

end Effects

section Histories

/-- The flag settings in force so far, each key's in its order, and with one more call. -/
def addFlag (h : Flag × Environment → List FlagConfig) (e : Step contract) :
    Flag × Environment → List FlagConfig :=
  match e.input.call with
  | .setFlag admin flag environment state cohorts =>
    let before := h (flag, environment)
    Function.update h (flag, environment) (before ++
      [{ flag, environment, state, cohorts, version := before.length + 1,
         effectiveAt := e.input.env.timestamp, updatedBy := admin }])
  | _ => h

/-- A rollback goes on from the end, with the values of an earlier version. -/
def addConfig (h : ConfigKind × Bytes32 → List AdminConfig) (e : Step contract) :
    ConfigKind × Bytes32 → List AdminConfig :=
  match e.input.call with
  | .setConfig admin kind subject a b refHash label =>
    let before := h (kind, subject)
    Function.update h (kind, subject) (before ++
      [{ kind, subject, a, b, refHash, label, version := before.length + 1,
         updatedAt := e.input.env.timestamp, updatedBy := admin }])
  | .rollbackConfig admin kind subject version =>
    let before := h (kind, subject)
    Function.update h (kind, subject) (before ++
      (before[version - 1]?.map fun target =>
        { target with
          version := before.length + 1
          updatedAt := e.input.env.timestamp
          updatedBy := admin }).toList)
  | _ => h

def flagHistory (es : List (Step contract)) : Flag × Environment → List FlagConfig :=
  es.foldl addFlag fun _ => []

def configHistory (es : List (Step contract)) : ConfigKind × Bytes32 → List AdminConfig :=
  es.foldl addConfig fun _ => []

@[simp] theorem flagHistory_snoc (es : List (Step contract)) (e : Step contract) :
    flagHistory (es ++ [e]) = addFlag (flagHistory es) e := List.foldl_append

@[simp] theorem configHistory_snoc (es : List (Step contract)) (e : Step contract) :
    configHistory (es ++ [e]) = addConfig (configHistory es) e := List.foldl_append

/-- What every setting that has been in force satisfies. -/
structure FlagConfig.Sound (c : FlagConfig) (k : Flag × Environment) : Prop where
  key : c.key = k
  checked : checkCohorts c.cohorts c.state = .ok ()

structure AdminConfig.Sound (c : AdminConfig) (k : ConfigKind × Bytes32) : Prop where
  key : c.key = k
  valid : validate c.kind c.a c.b c.refHash = .ok ()

/-- The store is a window on a history of sound settings. -/
structure FlagsKept (s : State) (h : Flag × Environment → List FlagConfig) : Prop where
  windows : Windows maxVersionsPerKey FlagConfig.version s.flag h
  sound : ∀ k, ∀ c ∈ h k, c.Sound k

structure ConfigsKept (s : State) (h : ConfigKind × Bytes32 → List AdminConfig) : Prop where
  windows : Windows maxVersionsPerKey AdminConfig.version s.config h
  sound : ∀ k, ∀ c ∈ h k, c.Sound k

/-- The version that follows is the number of settings there will have been. -/
theorem Next.counted {K V : Type} {window count next : Nat} {number : V → Nat} {versions : Versions K V}
    {history : K → List V} {k : K} (h : Next s ((versions.current k).map number) count next)
    (hwindows : Windows window number versions history) : next = (history k).length + 1 := by
  cases hcurrent : versions.current k with
  | none =>
    rw [hcurrent] at h
    rw [hwindows.absent.mp hcurrent]
    cases h
    rfl
  | some v =>
    rw [hcurrent] at h
    rw [← (hwindows.counted hcurrent).1]
    cases h
    rfl

/-- What holds of every setting holds after one more of which it holds. -/
theorem forall_update_history {K V : Type} [DecidableEq K] {p : V → K → Prop} {history : K → List V} {k : K}
    {v : V} (h : ∀ k, ∀ c ∈ history k, p c k) (hv : p v k) :
    ∀ k', ∀ c ∈ Function.update history k (history k ++ [v]) k', p c k' := by
  intro k' c hc
  by_cases hk : k' = k
  · subst hk
    rw [Function.update_self] at hc
    rcases List.mem_append.mp hc with hold | hnew
    · exact h k' c hold
    · rw [List.mem_singleton.mp hnew]
      exact hv
  · rw [Function.update_of_ne hk] at hc
    exact h k' c hc

theorem FlagsKept.save {h : Flag × Environment → List FlagConfig} (hkept : FlagsKept s h) {c : FlagConfig}
    (hversion : c.version = (h c.key).length + 1) (hchecked : checkCohorts c.cohorts c.state = .ok ()) :
    FlagsKept (saveFlag s c) (Function.update h c.key (h c.key ++ [c])) where
  windows := hkept.windows.save (by decide) c.key c hversion
  sound := forall_update_history hkept.sound ⟨rfl, hchecked⟩

theorem ConfigsKept.save {h : ConfigKind × Bytes32 → List AdminConfig} (hkept : ConfigsKept s h)
    {c : AdminConfig} (hversion : c.version = (h c.key).length + 1)
    (hvalid : validate c.kind c.a c.b c.refHash = .ok ()) :
    ConfigsKept (saveConfig s c) (Function.update h c.key (h c.key ++ [c])) where
  windows := hkept.windows.save (by decide) c.key c hversion
  sound := forall_update_history hkept.sound ⟨rfl, hvalid⟩

theorem FlagsKept.step {h : Flag × Environment → List FlagConfig} (hkept : FlagsKept s h)
    (hstep : Effect i.env s i.call o s') : FlagsKept s' (addFlag h ⟨s, i, o, s'⟩) := by
  obtain ⟨env, call⟩ := i
  cases hstep with
  | initialized => exact ⟨hkept.windows, hkept.sound⟩
  | pinned => exact ⟨hkept.windows, hkept.sound⟩
  | configured => exact ⟨hkept.windows, hkept.sound⟩
  | restored => exact ⟨hkept.windows, hkept.sound⟩
  | flagged c count _ _ checked now next =>
    have hversion := next.counted hkept.windows
    have hcounted : FlagsKept { s with configKeyCount := count } h := ⟨hkept.windows, hkept.sound⟩
    have hhistory : addFlag h ⟨s, ⟨env, .setFlag c.updatedBy c.flag c.environment c.state c.cohorts⟩,
        .version c.version, saveFlag { s with configKeyCount := count } c⟩ =
        Function.update h c.key (h c.key ++ [c]) := by
      have hnumber : (h (c.flag, c.environment)).length + 1 = c.version := hversion.symm
      have hnow : env.timestamp = c.effectiveAt := now.symm
      simp only [addFlag, hnumber, hnow]
      rfl
    rw [hhistory]
    exact hcounted.save hversion checked

theorem ConfigsKept.step {h : ConfigKind × Bytes32 → List AdminConfig} (hkept : ConfigsKept s h)
    (hstep : Effect i.env s i.call o s') : ConfigsKept s' (addConfig h ⟨s, i, o, s'⟩) := by
  obtain ⟨env, call⟩ := i
  cases hstep with
  | initialized => exact ⟨hkept.windows, hkept.sound⟩
  | pinned => exact ⟨hkept.windows, hkept.sound⟩
  | flagged => exact ⟨hkept.windows, hkept.sound⟩
  | configured c count index _ _ valid now next =>
    have hversion := next.counted hkept.windows
    have hcounted : ConfigsKept { s with configKeyCount := count, configIndex := index } h :=
      ⟨hkept.windows, hkept.sound⟩
    have hhistory : addConfig h ⟨s, ⟨env, .setConfig c.updatedBy c.kind c.subject c.a c.b c.refHash c.label⟩,
        .version c.version, saveConfig { s with configKeyCount := count, configIndex := index } c⟩ =
        Function.update h c.key (h c.key ++ [c]) := by
      have hnumber : (h (c.kind, c.subject)).length + 1 = c.version := hversion.symm
      have hnow : env.timestamp = c.updatedAt := now.symm
      simp only [addConfig, hnumber, hnow]
      rfl
    rw [hhistory]
    exact hcounted.save hversion valid
  | restored admin kind subject version target current _ _ found stands =>
    rw [hkept.windows.line] at found
    obtain ⟨_, hat⟩ := shown_mem found
    obtain ⟨hkey, hvalid⟩ := hkept.sound _ target (List.mem_of_getElem? hat)
    have hversion := (hkept.windows.counted stands).1
    let c : AdminConfig :=
      { target with
        version := current.version + 1
        updatedAt := env.timestamp
        updatedBy := admin }
    have hlast : c.key = (kind, subject) := hkey
    have hsaved := hkept.save (c := c) (by rw [hlast, ← hversion]) hvalid
    rw [hlast] at hsaved
    have hhistory : addConfig h ⟨s, ⟨env, .rollbackConfig admin kind subject version⟩,
        .version (current.version + 1), saveConfig s c⟩ =
        Function.update h (kind, subject) (h (kind, subject) ++ [c]) := by
      simp only [addConfig, hat, ← hversion, Option.map_some, Option.toList_some]
      rfl
    rw [hhistory]
    exact hsaved

/-- Over every run, the flags and the configuration values are windows of thirty-two on the histories of
the accepted calls. -/
theorem run_kept (is : List (Input contract)) :
    FlagsKept ((machine contract).run State.empty is)
        (flagHistory ((machine contract).journal State.empty is)) ∧
      ConfigsKept ((machine contract).run State.empty is)
        (configHistory ((machine contract).journal State.empty is)) := by
  apply Machine.run_journal_invariant
    (P := fun s es => FlagsKept s (flagHistory es) ∧ ConfigsKept s (configHistory es))
  · refine ⟨⟨windows_empty, ?_⟩, ⟨windows_empty, ?_⟩⟩
    · intro k c hc
      cases hc
    · intro k c hc
      cases hc
  · intro es s i o s' h hstep
    rw [flagHistory_snoc, configHistory_snoc]
    exact ⟨h.1.step (step_effect hstep), h.2.step (step_effect hstep)⟩

theorem prefix_update_history {K V : Type} [DecidableEq K] (history : K → List V) (k k' : K)
    (more : List V) : history k <+: Function.update history k' (history k' ++ more) k := by
  by_cases hk : k = k'
  · subst hk
    rw [Function.update_self]
    exact List.prefix_append _ _
  · rw [Function.update_of_ne hk]

/-- Histories only grow. -/
theorem flagHistory_grows (es later : List (Step contract)) (k : Flag × Environment) :
    flagHistory es k <+: flagHistory (es ++ later) k := by
  induction later using List.reverseRecOn with
  | nil => rw [List.append_nil]
  | append_singleton later e ih =>
    obtain ⟨s, ⟨env, call⟩, o, s'⟩ := e
    rw [← List.append_assoc, flagHistory_snoc]
    refine ih.trans ?_
    cases call with
    | setFlag => exact prefix_update_history _ _ _ _
    | initializeContract => exact List.prefix_rfl
    | pin => exact List.prefix_rfl
    | setConfig => exact List.prefix_rfl
    | rollbackConfig => exact List.prefix_rfl

theorem configHistory_grows (es later : List (Step contract)) (k : ConfigKind × Bytes32) :
    configHistory es k <+: configHistory (es ++ later) k := by
  induction later using List.reverseRecOn with
  | nil => rw [List.append_nil]
  | append_singleton later e ih =>
    obtain ⟨s, ⟨env, call⟩, o, s'⟩ := e
    rw [← List.append_assoc, configHistory_snoc]
    refine ih.trans ?_
    cases call with
    | setConfig => exact prefix_update_history _ _ _ _
    | rollbackConfig => exact prefix_update_history _ _ _ _
    | initializeContract => exact List.prefix_rfl
    | setFlag => exact List.prefix_rfl
    | pin => exact List.prefix_rfl

/-- Over every run, the versions of a flag or of a configuration value that can be read are the last
thirty-two of those that have been in force, numbered from one over its whole life, and the one in force
is the last. A rollback counts as one more, with the values of an earlier one. A version that has been
read reads the same ever after, until it is below the floor. -/
theorem versions_are_windows_on_histories (is js : List (Input contract)) :
    (Windows 32 FlagConfig.version ((machine contract).run State.empty is).flag
        (flagHistory ((machine contract).journal State.empty is)) ∧
      Windows 32 AdminConfig.version ((machine contract).run State.empty is).config
        (configHistory ((machine contract).journal State.empty is))) ∧
      (∀ flag environment version c,
        flagVersion ((machine contract).run State.empty is) flag environment version = .ok c →
          flagVersion ((machine contract).run State.empty (is ++ js)) flag environment version = .ok c ∨
            flagVersion ((machine contract).run State.empty (is ++ js)) flag environment version =
                .error (.err .versionNotFound) ∧
              version <
                flagVersionFloor ((machine contract).run State.empty (is ++ js)) flag environment) ∧
      ∀ kind subject version c,
        configVersion ((machine contract).run State.empty is) kind subject version = .ok c →
          configVersion ((machine contract).run State.empty (is ++ js)) kind subject version = .ok c ∨
            configVersion ((machine contract).run State.empty (is ++ js)) kind subject version =
                .error (.err .versionNotFound) ∧
              version <
                configVersionFloor ((machine contract).run State.empty (is ++ js)) kind subject := by
  obtain ⟨hflags, hconfigs⟩ := run_kept is
  obtain ⟨hflags', hconfigs'⟩ := run_kept (is ++ js)
  rw [Machine.journal_append] at hflags' hconfigs'
  refine ⟨⟨hflags.windows, hconfigs.windows⟩, ?_, ?_⟩
  · intro flag environment version c hread
    simp only [flagVersion, orRefuse_eq_ok, orRefuse_eq_error] at hread ⊢
    rcases hflags.windows.line_later hflags'.windows (flagHistory_grows _ _ _) hread with hsame | hgone
    · exact .inl hsame
    · obtain ⟨hnone, floor, hfloor, hbelow⟩ := hgone
      refine .inr ⟨⟨hnone, trivial⟩, ?_⟩
      rw [flagVersionFloor, hfloor]
      exact hbelow
  · intro kind subject version c hread
    simp only [configVersion, orRefuse_eq_ok, orRefuse_eq_error] at hread ⊢
    rcases hconfigs.windows.line_later hconfigs'.windows (configHistory_grows _ _ _) hread with hsame | hgone
    · exact .inl hsame
    · obtain ⟨hnone, floor, hfloor, hbelow⟩ := hgone
      refine .inr ⟨⟨hnone, trivial⟩, ?_⟩
      rw [configVersionFloor, hfloor]
      exact hbelow

end Histories

end ChainVerse.ScholarshipAdmin
