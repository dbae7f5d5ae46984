import ChainVerse.Framework.Listings
import ChainVerse.Library.Steps

namespace ChainVerse.LibraryRights

variable {contract : Address} {crypto : Crypto} {env : Env contract} {s s' : State}
variable {e : Step contract} {es : List (Step contract)}

def Step.finalizes (e : Step contract) : Bool :=
  match e.input.call with
  | .govern (.finalizeMigration _) => true
  | _ => false

/-- A line that finalizes a migration does so after all its steps, raises the version by one and logs
where it led from and to; every other line after bootstrap leaves the version and the log. -/
structure VersionLine (e : Step contract) : Prop where
  complete : e.finalizes = true → ∃ st, e.pre.migration.state = some st ∧ st.phase = .migrating ∧
    st.stepsDone = st.totalSteps ∧ st.totalSteps = migrationSteps
  raised : e.finalizes = true →
    e.post.migration.schemaVersion = e.pre.migration.schemaVersion + 1 ∧
      e.post.migration.logCount = e.pre.migration.logCount + 1
  logged : e.finalizes = true → ∃ entry,
    e.post.migration.log =
        Function.update e.pre.migration.log e.post.migration.logCount (some entry) ∧
      entry.fromVersion = e.pre.migration.schemaVersion ∧
      entry.targetVersion = e.post.migration.schemaVersion
  kept : e.finalizes = false → e.pre.governance.role .admin ≠ none →
    e.post.migration.schemaVersion = e.pre.migration.schemaVersion ∧
      e.post.migration.logCount = e.pre.migration.logCount ∧
      e.post.migration.log = e.pre.migration.log

/-- The log has one entry for each line that finalizes, each of which starts where the one before it
ended, and the version is where the last one ended. -/
structure MigrationsLogged (s : State) (es : List (Step contract)) : Prop where
  count : s.migration.logCount = es.countP Step.finalizes
  version : s.governance.role .admin ≠ none →
    s.migration.schemaVersion = initialSchemaVersion + s.migration.logCount
  entries : ∀ n, n < s.migration.logCount → ∃ entry, s.migration.log (n + 1) = some entry ∧
    entry.fromVersion = initialSchemaVersion + n ∧
    entry.targetVersion = initialSchemaVersion + (n + 1)

/-- A migration that runs leads from the stored version to the next one. -/
structure MigrationState.Runs (st : MigrationState) (schemaVersion : Nat) : Prop where
  leaves : st.fromVersion = schemaVersion
  leads : st.targetVersion = schemaVersion + 1
  within : st.stepsDone ≤ st.totalSteps
  steps : st.totalSteps = migrationSteps

/-- Before bootstrap there is no migration and no queued change. -/
def Founded (s : State) : Prop :=
  s.governance.role .admin = none →
    s.migration = .empty ∧ ∀ id, s.timelock.queuedChange id = none

structure Versioned (s : State) (es : List (Step contract)) : Prop extends MigrationsLogged s es where
  running : ∀ st, s.migration.state = some st → st.phase = .migrating →
    st.Runs s.migration.schemaVersion

section Specs

/-- What a line that does not finalize can do to the migration: a step forward, or nothing. -/
inductive Migrating (e : Step contract) : Prop where
  | kept (migration : e.post.migration = e.pre.migration)
      (admin : e.post.governance.role .admin = none ↔ e.pre.governance.role .admin = none)
      (finalizes : e.finalizes = false)
  | bootstrap (first : e.pre.governance.role .admin = none)
      (migration : e.post.migration =
        { e.pre.migration with schemaVersion := initialSchemaVersion })
      (admin : e.post.governance.role .admin ≠ none) (finalizes : e.finalizes = false)
  | write (st : MigrationState) (admin : e.pre.governance.role .admin ≠ none)
      (governance : e.post.governance = e.pre.governance)
      (migration : e.post.migration = { e.pre.migration with state := some st })
      (runs : (∀ st, e.pre.migration.state = some st → st.phase = .migrating →
        st.Runs e.pre.migration.schemaVersion) → st.Runs e.pre.migration.schemaVersion)
      (finalizes : e.finalizes = false)
  | finalize (st : MigrationState) (caller : Address)
      (admin : e.pre.governance.role .admin ≠ none)
      (governance : e.post.governance = e.pre.governance)
      (state : e.pre.migration.state = some st) (phase : st.phase = .migrating)
      (complete : st.totalSteps ≤ st.stepsDone)
      (migration : e.post.migration =
        { schemaVersion := st.targetVersion
          state := some
            { fromVersion := st.targetVersion, targetVersion := st.targetVersion, stepsDone := 0
              totalSteps := st.totalSteps, phase := .idle }
          logCount := e.pre.migration.logCount + 1
          log := Function.update e.pre.migration.log (e.pre.migration.logCount + 1) (some
            { fromVersion := st.fromVersion, targetVersion := st.targetVersion
              completedAt := e.input.env.timestamp, ranBy := caller }) })
      (finalizes : e.finalizes = true)

theorem dispatch_admin {action : GovernedAction} (h : dispatch env s caller action = .ok s')
    (hs : s.governance.role .admin ≠ none) : s'.governance.role .admin ≠ none := by
  by_cases htransfer : ∃ role recipient, action = .transferRole role recipient
  · obtain ⟨role, recipient, rfl⟩ := htransfer
    rw [dispatch_transfer h]
    by_cases hrole : Role.admin = role
    · rw [hrole, Function.update_self]
      exact Option.some_ne_none recipient
    · rw [Function.update_of_ne hrole]
      exact hs
  · push Not at htransfer
    rw [dispatch_other htransfer h]
    exact hs

/-- A change that has been queued shows that there is an administrator. -/
theorem Founded.admin_of_found {id : Bytes32} {change : QueuedChange} (hs : Founded s)
    (hfound : s.timelock.queuedChange id = some change) : s.governance.role .admin ≠ none := by
  intro hnone
  rw [(hs hnone).2 id] at hfound
  cases hfound

theorem admin_of_holder {caller : Address} (h : s.governance.role .admin = some caller) :
    s.governance.role .admin ≠ none := by
  rw [h]
  exact Option.some_ne_none caller

theorem Governs.founded {call : GovernCall} {o : Answer} (h : Governs env crypto s call o s')
    (hs : Founded s) : Founded s' := by
  cases h with
  | bootstrap => exact fun hnone => absurd hnone (Option.some_ne_none _)
  | pause | unpause | noBatch => exact hs
  | begins hadmin => exact fun hnone => absurd hnone (admin_of_holder hadmin)
  | batch _ _ hadmin => exact fun hnone => absurd hnone (admin_of_holder hadmin)
  | finalize _ hadmin => exact fun hnone => absurd hnone (admin_of_holder hadmin)
  | queue _ hadmin => exact fun hnone => absurd hnone (admin_of_holder hadmin)
  | cancel _ hfound => exact fun hnone => absurd hnone (hs.admin_of_found hfound)
  | execute change t hfound _ _ _ hdispatched =>
    have hadmin := dispatch_admin hdispatched (hs.admin_of_found hfound)
    exact fun hnone => absurd hnone hadmin
  | repoint hadmin => exact fun hnone => absurd hnone (admin_of_holder hadmin)

theorem Governs.migrating {registries : Registries} {call : GovernCall} {o : Answer}
    (h : Governs env crypto s call o s') (hs : Founded s) :
    Migrating ⟨s, ⟨env, registries, .govern call⟩, o, s'⟩ := by
  cases h with
  | bootstrap holders hfirst => exact .bootstrap hfirst rfl (Option.some_ne_none _) rfl
  | begins hadmin hidle =>
    refine .write _ (admin_of_holder hadmin) rfl rfl ?_ rfl
    exact fun _ => ⟨rfl, rfl, Nat.zero_le _, rfl⟩
  | batch st batch hadmin hstate hphase hwithin =>
    refine .write _ (admin_of_holder hadmin) rfl rfl ?_ rfl
    intro hruns
    obtain ⟨hleaves, hleads, hdone, hsteps⟩ := hruns st hstate hphase
    have hnext : st.stepsDone + batch ≤ st.totalSteps := by omega
    exact ⟨hleaves, hleads, hnext, hsteps⟩
  | @finalize caller st hadmin hstate hphase hcomplete =>
    exact .finalize st caller (admin_of_holder hadmin) rfl hstate hphase hcomplete rfl rfl
  | execute change t hfound _ _ _ hdispatched =>
    have hadmin := hs.admin_of_found hfound
    have hstays := dispatch_admin hdispatched hadmin
    exact .kept rfl (iff_of_false hstays hadmin) rfl
  | _ => exact .kept rfl Iff.rfl rfl

/-- What an accepted call does to the migration. -/
theorem step_migrating {i : Input contract} {o : Answer} (hs : Founded s)
    (h : (machine contract crypto).step s i = .ok (o, s')) :
    Founded s' ∧ Migrating ⟨s, i, o, s'⟩ := by
  obtain ⟨env, registries, call⟩ := i
  cases call with
  | govern call =>
    have hgoverns := govern_spec (step_govern rfl h)
    exact ⟨hgoverns.founded hs, hgoverns.migrating hs⟩
  | lend call =>
    obtain ⟨l, _, rfl⟩ := step_lend rfl h
    exact ⟨hs, .kept rfl Iff.rfl rfl⟩
  | catalog call =>
    obtain ⟨c, _, rfl⟩ := step_catalog rfl h
    exact ⟨hs, .kept rfl Iff.rfl rfl⟩
  | serve call =>
    obtain ⟨v, _, rfl⟩ := step_serve rfl h
    exact ⟨hs, .kept rfl Iff.rfl rfl⟩

end Specs

section Runs

/-- A line that does not finalize has only to leave the version and the log. -/
theorem VersionLine.of_kept (hfinalizes : e.finalizes = false)
    (hkept : e.pre.governance.role .admin ≠ none →
      e.post.migration.schemaVersion = e.pre.migration.schemaVersion ∧
        e.post.migration.logCount = e.pre.migration.logCount ∧
        e.post.migration.log = e.pre.migration.log) : VersionLine e := by
  have hnot : e.finalizes ≠ true := by
    rw [hfinalizes]
    exact Bool.false_ne_true
  exact ⟨fun h => absurd h hnot, fun h => absurd h hnot, fun h => absurd h hnot, fun _ => hkept⟩

theorem Migrating.versionLine (h : Migrating e) (hs : Versioned e.pre es) : VersionLine e := by
  cases h with
  | kept hmigration _ hfinalizes =>
    apply VersionLine.of_kept hfinalizes
    intro _
    rw [hmigration]
    exact ⟨rfl, rfl, rfl⟩
  | bootstrap hfirst _ _ hfinalizes =>
    apply VersionLine.of_kept hfinalizes
    intro hadmin
    exact absurd hfirst hadmin
  | write st _ _ hmigration _ hfinalizes =>
    apply VersionLine.of_kept hfinalizes
    intro _
    rw [hmigration]
    exact ⟨rfl, rfl, rfl⟩
  | finalize st caller _ _ hstate hphase hcomplete hmigration hfinalizes =>
    obtain ⟨hleaves, hleads, hwithin, hsteps⟩ := hs.running st hstate hphase
    refine ⟨?_, ?_, ?_, ?_⟩
    · exact fun _ => ⟨st, hstate, hphase, Nat.le_antisymm hwithin hcomplete, hsteps⟩
    · intro _
      rw [hmigration]
      exact ⟨hleads, rfl⟩
    · intro _
      rw [hmigration]
      exact ⟨_, rfl, hleaves, rfl⟩
    · intro hnot
      rw [hfinalizes] at hnot
      cases hnot

theorem Migrating.versioned (h : Migrating e) (hfounded : Founded e.pre) (hs : Versioned e.pre es) :
    Versioned e.post (es ++ [e]) := by
  have hcount : (es ++ [e]).countP Step.finalizes =
      e.pre.migration.logCount + if e.finalizes = true then 1 else 0 := by
    rw [countP_snoc, hs.count]
  cases h with
  | kept hmigration hadmin hfinalizes =>
    rw [hfinalizes, if_neg Bool.false_ne_true, Nat.add_zero] at hcount
    refine ⟨⟨?_, ?_, ?_⟩, ?_⟩
    · rw [hmigration, hcount]
    · rw [hmigration, Ne, hadmin]
      exact hs.version
    · rw [hmigration]
      exact hs.entries
    · rw [hmigration]
      exact hs.running
  | bootstrap hfirst hmigration hadmin hfinalizes =>
    rw [hfinalizes, if_neg Bool.false_ne_true, Nat.add_zero] at hcount
    have hempty := (hfounded hfirst).1
    rw [hempty] at hmigration hcount
    refine ⟨⟨?_, ?_, ?_⟩, ?_⟩
    · rw [hmigration, hcount]
    · intro _
      rw [hmigration]
      rfl
    · intro n hn
      rw [hmigration] at hn
      cases hn
    · intro st hstate
      rw [hmigration] at hstate
      cases hstate
  | write st hadmin hgovernance hmigration hruns hfinalizes =>
    rw [hfinalizes, if_neg Bool.false_ne_true, Nat.add_zero] at hcount
    refine ⟨⟨?_, ?_, ?_⟩, ?_⟩
    · rw [hmigration, hcount]
    · intro _
      rw [hmigration]
      exact hs.version hadmin
    · rw [hmigration]
      exact hs.entries
    · intro st' hstate _
      rw [hmigration] at hstate ⊢
      cases hstate
      exact hruns hs.running
  | finalize st caller hadmin hgovernance hstate hphase hcomplete hmigration hfinalizes =>
    obtain ⟨hleaves, hleads, _, _⟩ := hs.running st hstate hphase
    have hversion := hs.version hadmin
    rw [hfinalizes, if_pos rfl] at hcount
    refine ⟨⟨?_, ?_, ?_⟩, ?_⟩
    · rw [hmigration, hcount]
    · intro _
      rw [hmigration, hleads, hversion, Nat.add_assoc]
    · intro n hn
      rw [hmigration] at hn ⊢
      rcases Nat.lt_succ_iff_lt_or_eq.mp hn with hold | rfl
      · obtain ⟨entry, hentry, hfrom, hto⟩ := hs.entries n hold
        refine ⟨entry, ?_, hfrom, hto⟩
        have hne : n + 1 ≠ e.pre.migration.logCount + 1 := by omega
        exact (Function.update_of_ne hne _ _).trans hentry
      · refine ⟨_, Function.update_self _ _ _, ?_, ?_⟩
        · rw [hleaves, hversion]
        · rw [hleads, hversion, Nat.add_assoc]
    · intro st' hst' hmigrating
      rw [hmigration] at hst'
      cases hst'
      cases hmigrating

theorem run_versioned (is : List (Input contract)) :
    Founded ((machine contract crypto).run State.empty is) ∧
      Versioned ((machine contract crypto).run State.empty is)
        ((machine contract crypto).journal State.empty is) := by
  refine Machine.run_journal_invariant (m := machine contract crypto)
    (P := fun s es => Founded s ∧ Versioned s es) ⟨?_, ?_⟩ ?_ is
  · exact fun _ => ⟨rfl, fun _ => rfl⟩
  · refine ⟨⟨rfl, fun h => absurd rfl h, ?_⟩, ?_⟩
    · intro n hn
      cases hn
    · intro st hstate
      cases hstate
  · intro es s i o s' hs h
    obtain ⟨hfounded, hline⟩ := step_migrating hs.1 h
    exact ⟨hfounded, hline.versioned hs.1 hs.2⟩

theorem run_versionLines (is : List (Input contract)) :
    ∀ e ∈ (machine contract crypto).journal State.empty is, VersionLine e := by
  intro e he
  obtain ⟨earlier, later, hes⟩ := List.append_of_mem he
  obtain ⟨js, _, _, hjournal, hrun, hstep⟩ := Machine.journal_split hes
  obtain ⟨hfounded, hversioned⟩ := @run_versioned contract crypto js
  rw [hrun] at hfounded hversioned
  exact (step_migrating hfounded hstep).2.versionLine hversioned

end Runs

end ChainVerse.LibraryRights
