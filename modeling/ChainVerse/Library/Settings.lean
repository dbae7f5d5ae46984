import ChainVerse.Library.Timelocks

namespace ChainVerse.LibraryRights

variable {contract : Address} {crypto : Crypto} {env : Env contract} {s s' : State}
variable {e : Step contract} {es : List (Step contract)}

/-- The registry that a call sets at once. -/
def Call.repoints : Call → Option Address
  | .govern (.setCourseRegistry _ courseRegistryId) => some courseRegistryId
  | _ => none

/-- Nobody holds two roles. -/
def DistinctHolders (s : State) : Prop :=
  ∀ role role' holder, s.governance.role role = some holder → s.governance.role role' = some holder →
    role = role'

/-- A line that executes a change which an earlier line queued, with the delay in force, and whose eta
has come. -/
def ThroughTimelock (earlier : List (Step contract)) (e : Step contract) : Prop :=
  ∃ id change, e.executes = some id ∧ change.eta ≤ e.input.env.timestamp ∧
    ∃ q ∈ earlier, Queues q id change

/-- After bootstrap the role holders and the course registry change through the timelock only. -/
def SettingsGoverned (es : List (Step contract)) : Prop :=
  ∀ earlier e later, es = earlier ++ e :: later → e.pre.governance.role .admin ≠ none →
    (e.post.governance.role ≠ e.pre.governance.role ∨
      e.post.governance.courseRegistry ≠ e.pre.governance.courseRegistry) →
    ThroughTimelock earlier e

/-- A registry set at once is the one that stood, and a role that is transferred goes to somebody who
holds no other one. -/
structure KeepsSettings (e : Step contract) : Prop where
  registry : ∀ registry, e.input.call.repoints = some registry →
    e.pre.governance.courseRegistry = some registry
  transfer : ∀ id change role recipient, e.executes = some id →
    e.pre.timelock.queuedChange id = some change → change.action = .transferRole role recipient →
    ∀ role', e.pre.governance.role role' = some recipient → role' = role

/-- Everything an accepted call can do to the settings. -/
inductive Resettling (e : Step contract) : Prop where
  | kept (repoints : e.input.call.repoints = none) (executes : e.executes = none)
      (governance : e.post.governance = e.pre.governance)
  | bootstrap (repoints : e.input.call.repoints = none) (executes : e.executes = none)
      (first : e.pre.governance.role .admin = none) (distinct : DistinctHolders e.post)
  | repoint (registry : Address) (repoints : e.input.call.repoints = some registry)
      (executes : e.executes = none) (role : e.post.governance.role = e.pre.governance.role)
      (admin : e.pre.governance.role .admin ≠ none)
      (courseRegistry : e.post.governance.courseRegistry = some registry)
  | transfer (id : Bytes32) (change : QueuedChange) (role : Role) (recipient : Address)
      (repoints : e.input.call.repoints = none) (executes : e.executes = some id)
      (found : e.pre.timelock.queuedChange id = some change)
      (ripe : change.eta ≤ e.input.env.timestamp)
      (action : change.action = .transferRole role recipient)
      (holders : e.post.governance.role =
        Function.update e.pre.governance.role role (some recipient))
  | execute (id : Bytes32) (change : QueuedChange)
      (repoints : e.input.call.repoints = none) (executes : e.executes = some id)
      (found : e.pre.timelock.queuedChange id = some change)
      (ripe : change.eta ≤ e.input.env.timestamp)
      (action : ∀ role recipient, change.action ≠ .transferRole role recipient)
      (role : e.post.governance.role = e.pre.governance.role)

section Specs

theorem Governs.resettling {registries : Registries} {call : GovernCall} {o : Answer}
    (h : Governs env crypto s call o s') : Resettling ⟨s, ⟨env, registries, .govern call⟩, o, s'⟩ := by
  cases h with
  | bootstrap holders hfirst hdistinct =>
    refine .bootstrap rfl rfl hfirst ?_
    intro role role' holder hrole hrole'
    exact hdistinct (Option.some.inj (hrole.trans hrole'.symm))
  | @execute _ id change t hfound _ _ hripe hdispatched =>
    by_cases htransfer : ∃ role recipient, change.action = .transferRole role recipient
    · obtain ⟨role, recipient, haction⟩ := htransfer
      rw [haction] at hdispatched
      have hholders := dispatch_transfer hdispatched
      exact .transfer id change role recipient rfl rfl hfound hripe haction hholders
    · push Not at htransfer
      have hrole := dispatch_other htransfer hdispatched
      exact .execute id change rfl rfl hfound hripe htransfer hrole
  | repoint hadmin =>
    refine .repoint _ rfl rfl rfl ?_ rfl
    intro hnone
    rw [hadmin] at hnone
    cases hnone
  | _ => exact .kept rfl rfl rfl

/-- What an accepted call does to the settings. -/
theorem step_resettling {i : Input contract} {o : Answer}
    (h : (machine contract crypto).step s i = .ok (o, s')) : Resettling ⟨s, i, o, s'⟩ := by
  obtain ⟨env, registries, call⟩ := i
  cases call with
  | govern call => exact (govern_spec (step_govern rfl h)).resettling
  | lend call =>
    obtain ⟨l, _, rfl⟩ := step_lend rfl h
    exact .kept rfl rfl rfl
  | catalog call =>
    obtain ⟨c, _, rfl⟩ := step_catalog rfl h
    exact .kept rfl rfl rfl
  | serve call =>
    obtain ⟨v, _, rfl⟩ := step_serve rfl h
    exact .kept rfl rfl rfl

end Specs

section Runs

theorem Resettling.distinct (h : Resettling e) (hkeeps : KeepsSettings e)
    (hs : DistinctHolders e.pre) : DistinctHolders e.post := by
  cases h with
  | kept _ _ hgovernance =>
    rw [DistinctHolders, hgovernance]
    exact hs
  | bootstrap _ _ _ hdistinct => exact hdistinct
  | repoint _ _ _ hrole =>
    rw [DistinctHolders, hrole]
    exact hs
  | execute _ _ _ _ _ _ _ hrole =>
    rw [DistinctHolders, hrole]
    exact hs
  | transfer id change role recipient _ hexecutes hfound _ haction hholders =>
    have hfree := hkeeps.transfer id change role recipient hexecutes hfound haction
    rw [DistinctHolders, hholders]
    intro a b holder ha hb
    rcases update_row_cases ha with ⟨rfl, rfl⟩ | ⟨_, hold⟩
    · rcases update_row_cases hb with ⟨rfl, _⟩ | ⟨_, hold'⟩
      · rfl
      · exact (hfree b hold').symm
    · rcases update_row_cases hb with ⟨rfl, rfl⟩ | ⟨_, hold'⟩
      · exact hfree a hold
      · exact hs a b holder hold hold'

/-- A line that keeps the settings changes them through the timelock only. -/
theorem Resettling.governed (h : Resettling e) (hkeeps : KeepsSettings e) (hbacked : Backed e.pre es)
    (hadmin : e.pre.governance.role .admin ≠ none)
    (hchange : e.post.governance.role ≠ e.pre.governance.role ∨
      e.post.governance.courseRegistry ≠ e.pre.governance.courseRegistry) :
    ThroughTimelock es e := by
  cases h with
  | kept _ _ hgovernance =>
    rw [hgovernance] at hchange
    exact absurd hchange (by simp)
  | bootstrap _ _ hfirst => exact absurd hfirst hadmin
  | repoint registry hrepoints _ hrole _ hregistry =>
    rw [hrole, hregistry, hkeeps.registry registry hrepoints] at hchange
    exact absurd hchange (by simp)
  | transfer id change _ _ _ hexecutes hfound hripe =>
    exact ⟨id, change, hexecutes, hripe, hbacked id change hfound⟩
  | execute id change _ hexecutes hfound hripe =>
    exact ⟨id, change, hexecutes, hripe, hbacked id change hfound⟩

/-- A line that changes the settings through the timelock alone, and leaves the holders distinct, keeps
the settings. -/
theorem Resettling.keepsSettings {earlier : List (Step contract)} (h : Resettling e)
    (hdistinct : DistinctHolders e.post)
    (hgoverned : e.pre.governance.role .admin ≠ none →
      (e.post.governance.role ≠ e.pre.governance.role ∨
        e.post.governance.courseRegistry ≠ e.pre.governance.courseRegistry) →
      ThroughTimelock earlier e) : KeepsSettings e := by
  constructor
  · intro registry hrepoints
    cases h with
    | repoint other hother hexecutes hrole hadmin hregistry =>
      obtain rfl := Option.some.inj (hrepoints.symm.trans hother)
      by_contra hchange
      rw [← hregistry] at hchange
      obtain ⟨id, _, hid, _⟩ := hgoverned hadmin (.inr (Ne.symm hchange))
      rw [hexecutes] at hid
      cases hid
    | kept hnone | bootstrap hnone | transfer _ _ _ _ hnone | execute _ _ hnone =>
      rw [hrepoints] at hnone
      cases hnone
  · intro id change role recipient hexecutes hfound haction role' hheld
    cases h with
    | kept _ hnone | bootstrap _ hnone | repoint _ _ hnone =>
      rw [hexecutes] at hnone
      cases hnone
    | execute id' change' _ hexecutes' hfound' _ hother =>
      obtain rfl := Option.some.inj (hexecutes.symm.trans hexecutes')
      obtain rfl := Option.some.inj (hfound.symm.trans hfound')
      exact absurd haction (hother role recipient)
    | transfer id' change' role₁ recipient₁ _ hexecutes' hfound' _ haction' hholders =>
      obtain rfl := Option.some.inj (hexecutes.symm.trans hexecutes')
      obtain rfl := Option.some.inj (hfound.symm.trans hfound')
      obtain ⟨rfl, rfl⟩ := GovernedAction.transferRole.inj (haction.symm.trans haction')
      by_contra hne
      apply hne
      apply hdistinct role' role recipient
      · rw [hholders, Function.update_of_ne hne]
        exact hheld
      · rw [hholders, Function.update_self]

theorem run_distinct (is : List (Input contract))
    (hkeeps : ∀ e ∈ (machine contract crypto).journal State.empty is, KeepsSettings e) :
    DistinctHolders ((machine contract crypto).run State.empty is) := by
  refine Machine.run_journal_invariant (m := machine contract crypto)
    (P := fun s es => (∀ e ∈ es, KeepsSettings e) → DistinctHolders s) ?_ ?_ is hkeeps
  · intro _ role role' holder hrole
    cases hrole
  · intro es s i o s' hs h hkeeps
    have hpre := hs fun e he => hkeeps e (List.mem_append_left _ he)
    exact (step_resettling h).distinct (hkeeps _ List.mem_concat_self) hpre

end Runs

/-- In a run the settings change through the timelock only, and the holders stay distinct all along, if
and only if every registry set at once is the one that stood and every transfer executed is to somebody
without another role. -/
theorem run_settings (is : List (Input contract)) :
    let es := (machine contract crypto).journal State.empty is
    (SettingsGoverned es ∧
      ∀ js, js <+: is → DistinctHolders ((machine contract crypto).run State.empty js)) ↔
    ∀ e ∈ es, KeepsSettings e := by
  intro es
  constructor
  · intro h e he
    obtain ⟨hgoverned, hdistinct⟩ := h
    obtain ⟨earlier, later, hes⟩ := List.append_of_mem he
    obtain ⟨js, hjs, hpost, _⟩ := Machine.journal_upto hes
    have hholders := hdistinct js hjs
    rw [hpost] at hholders
    have hline := step_resettling (Machine.journal_step he).1
    exact hline.keepsSettings hholders (hgoverned earlier e later hes)
  · intro hkeeps
    constructor
    · intro earlier e later hes hadmin hchange
      obtain ⟨js, _, _, hjournal, hrun, hstep⟩ := Machine.journal_split hes
      have hbacked := @run_backed contract crypto js
      rw [hjournal, hrun] at hbacked
      have he : e ∈ es := by
        rw [hes]
        exact List.mem_append_cons_self
      exact (step_resettling hstep).governed (hkeeps e he) hbacked hadmin hchange
    · intro js hjs
      obtain ⟨ks, rfl⟩ := hjs
      apply run_distinct
      intro e he
      apply hkeeps
      rw [show es = _ from Machine.journal_append _ _ _ _]
      exact List.mem_append_left _ he

/-- The administrator sets another registry at once, and the treasury is transferred to the librarian
through the timelock. -/
def sampleRepointed : List (Input ⟨0⟩) :=
  [sampleBootstrap, ⟨.sample, sampleRegistries, .govern (.setCourseRegistry ⟨1⟩ ⟨7⟩)⟩]

def sampleTransferred : List (Input ⟨0⟩) :=
  [sampleBootstrap,
    ⟨.sample, sampleRegistries, .govern (.queueChange ⟨1⟩ (.transferRole .treasury ⟨5⟩) 604810)⟩,
    ⟨.signedByAll ⟨0⟩ 604810 (by decide), sampleRegistries,
      .govern (.executeChange ⟨9⟩ sampleTransferId)⟩]

/-- The registry has changed without the timelock, and the librarian holds two roles. -/
theorem sampleRepointed_ungoverned :
    ¬SettingsGoverned ((machine ⟨0⟩ sampleCrypto).journal State.empty sampleRepointed) ∧
      ¬DistinctHolders ((machine ⟨0⟩ sampleCrypto).run State.empty sampleTransferred) := by
  constructor
  · intro hgoverned
    have hcalls : ((machine ⟨0⟩ sampleCrypto).journal State.empty sampleRepointed).map
        (fun e => (e.pre.governance.role .admin, e.pre.governance.courseRegistry,
          e.post.governance.courseRegistry, Step.executes e)) =
        [(none, none, none, none), (some ⟨1⟩, none, some ⟨7⟩, none)] := by
      decide +kernel
    obtain ⟨first, rest, hes, _, hrest⟩ := List.map_eq_cons_iff.mp hcalls
    obtain ⟨set, rest', rfl, hset, _⟩ := List.map_eq_cons_iff.mp hrest
    simp only [Prod.mk.injEq] at hset
    obtain ⟨hadmin, hbefore, hafter, hexecutes⟩ := hset
    obtain ⟨id, _, hid, _⟩ := hgoverned [first] set rest' hes (by simp [hadmin])
      (.inr (by simp [hbefore, hafter]))
    rw [hexecutes] at hid
    cases hid
  · intro hdistinct
    have hroles : (fun s : State => (s.governance.role .treasury, s.governance.role .librarian))
        ((machine ⟨0⟩ sampleCrypto).run State.empty sampleTransferred) = (some ⟨5⟩, some ⟨5⟩) := by
      decide +kernel
    obtain ⟨htreasury, hlibrarian⟩ := Prod.mk.inj hroles
    cases hdistinct .treasury .librarian ⟨5⟩ htreasury hlibrarian

end ChainVerse.LibraryRights
