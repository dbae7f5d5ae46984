import ChainVerse.Framework.Tables
import ChainVerse.Migration.Steps

namespace ChainVerse.ScholarshipMigration

variable {contract : Address} {env : Env contract} {s s' t : State}

/-- An accepted call of a run of the contract, with the stores around it. -/
abbrev Step (contract : Address) := Entry State (Input contract) Response

/-- The later state of a migration run: its mode and its origin are fixed, and its cursor has not
gone back. -/
structure MigrationRun.Precedes (run run' : MigrationRun) : Prop where
  id : run'.id = run.id
  sourceSystem : run'.sourceSystem = run.sourceSystem
  dryRun : run'.dryRun = run.dryRun
  startedAt : run'.startedAt = run.startedAt
  cursor : run.cursor ≤ run'.cursor

theorem MigrationRun.Precedes.refl (run : MigrationRun) : run.Precedes run :=
  ⟨rfl, rfl, rfl, rfl, le_rfl⟩

theorem MigrationRun.Precedes.trans {a b c : MigrationRun} (h : a.Precedes b)
    (h' : b.Precedes c) : a.Precedes c where
  id := h'.id.trans h.id
  sourceSystem := h'.sourceSystem.trans h.sourceSystem
  dryRun := h'.dryRun.trans h.dryRun
  startedAt := h'.startedAt.trans h.startedAt
  cursor := h.cursor.trans h'.cursor

/-- What the store never loses: of a record only the state changes, the runs go on, and a sealed run
stays as it is with its report. -/
structure Continues (s t : State) : Prop where
  records : ∀ x record, s.record x = some record →
    ∃ state, t.record x = some { record with state := state }
  runs : ∀ r run, s.run r = some run → ∃ run', t.run r = some run' ∧ run.Precedes run'
  settled : ∀ r run, s.run r = some run → run.sealed = true → t.run r = some run ∧
    t.unmappedTotal r = s.unmappedTotal r ∧ ∀ k, t.report (r, k) = s.report (r, k)

section Continuity

theorem continues_refl (s : State) : Continues s s where
  records _ record h := ⟨record.state, h⟩
  runs _ run h := ⟨run, h, .refl run⟩
  settled _ _ h _ := ⟨h, rfl, fun _ => rfl⟩

theorem Continues.trans (h : Continues s s') (h' : Continues s' t) : Continues s t := by
  constructor
  · intro x record hrecord
    obtain ⟨state, hnext⟩ := h.records x record hrecord
    obtain ⟨state', hlast⟩ := h'.records x _ hnext
    exact ⟨state', hlast⟩
  · intro r run hrun
    obtain ⟨run', hrun', hfirst⟩ := h.runs r run hrun
    obtain ⟨run'', hrun'', hsecond⟩ := h'.runs r run' hrun'
    exact ⟨run'', hrun'', hfirst.trans hsecond⟩
  · intro r run hrun hsealed
    obtain ⟨hkept, htotal, hreport⟩ := h.settled r run hrun hsealed
    obtain ⟨hkept', htotal', hreport'⟩ := h'.settled r run hkept hsealed
    exact ⟨hkept', htotal'.trans htotal, fun k => (hreport' k).trans (hreport k)⟩

theorem Continues.present (h : Continues s t) {r : Nat} {x : Bytes32}
    (hs : s.run r ≠ none ∧ s.record x ≠ none) : t.run r ≠ none ∧ t.record x ≠ none := by
  obtain ⟨run, hrun⟩ := Option.ne_none_iff_exists'.mp hs.1
  obtain ⟨record, hrecord⟩ := Option.ne_none_iff_exists'.mp hs.2
  obtain ⟨run', hrun', _⟩ := h.runs r run hrun
  obtain ⟨state, hrecord'⟩ := h.records x record hrecord
  rw [hrun', hrecord']
  exact ⟨Option.some_ne_none _, Option.some_ne_none _⟩

/-- A write of an open run leaves the other runs with their reports. -/
theorem Continues.ofSave {run run' : MigrationRun} (hfound : s.run run.id = some run)
    (hopened : run.sealed = false) (hrun : t.run = Function.update s.run run.id (some run'))
    (hprecedes : run.Precedes run')
    (hrecords : ∀ x record, s.record x = some record → t.record x = some record)
    (hreports : ∀ r, r ≠ run.id → t.unmappedTotal r = s.unmappedTotal r ∧
      ∀ k, t.report (r, k) = s.report (r, k)) : Continues s t := by
  constructor
  · intro x record hrecord
    exact ⟨record.state, hrecords x record hrecord⟩
  · intro r row hrow
    rw [hrun]
    by_cases hr : r = run.id
    · rw [hr, hfound, Option.some.injEq] at hrow
      rw [hr, Function.update_self, ← hrow]
      exact ⟨run', rfl, hprecedes⟩
    · rw [Function.update_of_ne hr]
      exact ⟨row, hrow, .refl row⟩
  · intro r row hrow hsealed
    have hr : r ≠ run.id := by
      intro hr
      rw [hr, hfound, Option.some.injEq] at hrow
      rw [hrow, hsealed] at hopened
      cases hopened
    rw [hrun, Function.update_of_ne hr]
    exact ⟨hrow, hreports r hr⟩

end Continuity

/-- The call is the one by which run `r` mapped legacy record `x`. -/
def Maps (e : Step contract) (r : Nat) (x : Bytes32) : Prop :=
  e.input.call.mapping = some (r, x) ∧ e.pre.record x = none ∧ e.post.record x ≠ none

/-- A row of the table of runs that is not sealed. -/
abbrev Opened (row : Option MigrationRun) : Prop := row.map MigrationRun.sealed = some false

/-- A row of the table of records whose record is mapped, and not archived. -/
abbrev Tracked (row : Option LegacyRecord) : Prop := row.map LegacyRecord.state = some .mapped

/-- The runs of a store and the number of those that are open. -/
structure RunsBooked (s : State) : Prop where
  keyed : ∀ r run, s.run r = some run → run.id = r
  unborn : ∀ r, (∀ next, s.nextRunId = some next → next ≤ r) → s.run r = none
  finite : {r | Opened (s.run r)}.Finite
  opened : s.openRuns = {r | Opened (s.run r)}.ncard

/-- The records of a store and the number of those that are mapped. -/
structure RecordsBooked (s : State) : Prop where
  finite : {x | Tracked (s.record x)}.Finite
  tracked : s.trackedRecords = {x | Tracked (s.record x)}.ncard

/-- The lists of unmapped items and their counts. -/
structure ReportsBooked (s : State) : Prop where
  listed : ∀ r k, (s.report (r, k)).isSome = true ↔ k < s.unmappedRetained r
  retained : ∀ r, s.unmappedRetained r = min (s.unmappedTotal r) maxReportedPerRun

/-- The mappings that the runs count are those that the calls have made. -/
structure MappingsBooked (s : State) (es : List (Step contract)) : Prop where
  known : ∀ r x, (∃ e ∈ es, Maps e r x) → s.run r ≠ none ∧ s.record x ≠ none
  finite : ∀ r, {x | ∃ e ∈ es, Maps e r x}.Finite
  mapped : ∀ r run, s.run r = some run → run.mapped = {x | ∃ e ∈ es, Maps e r x}.ncard

/-- The counters of a store, against its tables and the calls that led to it. -/
structure Booked (s : State) (es : List (Step contract)) : Prop where
  fresh : s.admin = none → s = State.empty
  runs : RunsBooked s
  records : RecordsBooked s
  reports : ReportsBooked s
  mappings : MappingsBooked s es

section Books

variable {run run' : MigrationRun} {es : List (Step contract)}

theorem booked_empty : Booked State.empty ([] : List (Step contract)) where
  fresh _ := rfl
  runs := by constructor <;> simp [State.empty]
  records := by constructor <;> simp [State.empty]
  reports := by constructor <;> simp [State.empty]
  mappings := by constructor <;> simp [State.empty]

theorem RunsBooked.unborn_next {id : Nat} (h : RunsBooked s) (hnext : s.nextRunId = some id) :
    s.run id = none := by
  apply h.unborn
  intro next hid
  rw [hnext, Option.some.injEq] at hid
  exact hid.ge

/-- An open run is written, and may be sealed by that. -/
theorem RunsBooked.save (h : RunsBooked s) (hfound : s.run run.id = some run)
    (hopen : run.sealed = false) (hrun : t.run = Function.update s.run run.id (some run'))
    (hid : run'.id = run.id) (hnext : t.nextRunId = s.nextRunId)
    (hopened : t.openRuns = if run'.sealed then s.openRuns - 1 else s.openRuns) :
    RunsBooked t := by
  have hcount : {r | Opened (Function.update s.run run.id (some run') r)}.ncard + 1 =
      {r | Opened (s.run r)}.ncard + if run'.sealed = false then 1 else 0 := by
    simpa [Opened, hfound, hopen] using
      @ncard_update_row _ _ _ Opened _ _ h.finite run.id (some run')
  constructor
  · exact forall_update_row h.keyed hrun hid
  · intro r hr
    rw [hnext] at hr
    have hold := h.unborn r hr
    have hne : r ≠ run.id := by
      intro heq
      rw [heq, hfound] at hold
      cases hold
    rw [hrun, Function.update_of_ne hne, hold]
  · rw [hrun]
    exact @finite_update_row _ _ _ Opened _ h.finite _ _
  · rw [hrun, hopened]
    have hopened := h.opened
    cases hsealed : run'.sealed with
    | true =>
      rw [hsealed, if_neg (by decide)] at hcount
      rw [if_pos rfl]
      omega
    | false =>
      rw [hsealed, if_pos rfl] at hcount
      rw [if_neg (by decide)]
      omega

theorem RunsBooked.begin {id now : Nat} {sourceSystem : Symbol} {dryRun : Bool} (h : RunsBooked s)
    (hnext : s.nextRunId = some id) : RunsBooked (s.begun id sourceSystem dryRun now) := by
  have hnone := h.unborn_next hnext
  let run : MigrationRun := ⟨id, sourceSystem, dryRun, 0, 0, false, now, 0⟩
  have hcount : {r | Opened (Function.update s.run id (some run) r)}.ncard =
      {r | Opened (s.run r)}.ncard + 1 := by
    simpa [Opened, hnone, run] using
      @ncard_update_row _ _ _ Opened _ _ h.finite id (some run)
  constructor
  · exact forall_update_row h.keyed rfl rfl
  · intro r hr
    have hlt : id + 1 ≤ r := hr _ rfl
    have hne : r ≠ id := by omega
    refine (Function.update_of_ne hne _ _).trans (h.unborn r ?_)
    intro next hid
    rw [hnext, Option.some.injEq] at hid
    omega
  · exact @finite_update_row _ _ _ Opened _ h.finite _ _
  · have hopened := h.opened
    show s.openRuns + 1 = _
    rw [hopened]
    exact hcount.symm

theorem RecordsBooked.map {record : LegacyRecord} (h : RecordsBooked s)
    (hnew : s.record record.legacyId = none) (hstate : record.state = .mapped)
    (hrecord : t.record = Function.update s.record record.legacyId (some record))
    (htracked : t.trackedRecords = s.trackedRecords + 1) : RecordsBooked t := by
  have hcount : {x | Tracked (Function.update s.record record.legacyId (some record) x)}.ncard =
      {x | Tracked (s.record x)}.ncard + 1 := by
    simpa [Tracked, hnew, hstate] using
      @ncard_update_row _ _ _ Tracked _ _ h.finite record.legacyId (some record)
  constructor
  · rw [hrecord]
    exact @finite_update_row _ _ _ Tracked _ h.finite _ _
  · rw [hrecord, hcount, htracked, h.tracked]

theorem RecordsBooked.archive {x : Bytes32} {record : LegacyRecord} (h : RecordsBooked s)
    (hfound : s.record x = some record) (hstate : record.state = .mapped)
    (hrecord : t.record = Function.update s.record x (some { record with state := .archived }))
    (htracked : t.trackedRecords = s.trackedRecords - 1) : RecordsBooked t := by
  let archived : LegacyRecord := { record with state := .archived }
  have hcount : {y | Tracked (Function.update s.record x (some archived) y)}.ncard + 1 =
      {y | Tracked (s.record y)}.ncard := by
    simpa [Tracked, hfound, hstate, archived] using
      @ncard_update_row _ _ _ Tracked _ _ h.finite x (some archived)
  constructor
  · rw [hrecord]
    exact @finite_update_row _ _ _ Tracked _ h.finite _ _
  · rw [hrecord, htracked, h.tracked, ← hcount, Nat.add_sub_cancel]

/-- A report to one run leaves the lists of the others. -/
theorem reported_report_of_ne {runId r k : Nat} {legacyId : Bytes32} (hr : r ≠ runId) :
    (s.reported runId legacyId).report (r, k) = s.report (r, k) := by
  unfold State.reported
  by_cases hroom : s.unmappedRetained runId < maxReportedPerRun
  · simp [hroom, hr]
  · simp [hroom]

theorem reported_unmappedRetained {runId r : Nat} {legacyId : Bytes32} :
    (s.reported runId legacyId).unmappedRetained r =
      if r = runId ∧ s.unmappedRetained runId < maxReportedPerRun then s.unmappedRetained r + 1
      else s.unmappedRetained r := by
  unfold State.reported
  by_cases hroom : s.unmappedRetained runId < maxReportedPerRun
  · by_cases hr : r = runId
    · simp [hroom, hr]
    · simp [hroom, hr]
  · simp [hroom]

/-- Reported items are listed one after the other, up to the cap. -/
theorem ReportsBooked.report (h : ReportsBooked s) (runId : Nat) (legacyId : Bytes32) :
    ReportsBooked (s.reported runId legacyId) := by
  constructor
  · intro r k
    have hlisted := h.listed r k
    rw [reported_unmappedRetained]
    by_cases hr : r = runId
    · by_cases hroom : s.unmappedRetained runId < maxReportedPerRun
      · rw [if_pos ⟨hr, hroom⟩]
        simp only [State.reported, hroom, if_true, hr] at hlisted ⊢
        by_cases hk : k = s.unmappedRetained runId
        · simp [hk]
        · have hne : (runId, k) ≠ (runId, s.unmappedRetained runId) := by simp [hk]
          rw [Function.update_of_ne hne, hlisted]
          omega
      · rw [if_neg fun h => hroom h.2]
        simpa only [State.reported, hroom, if_false] using hlisted
    · rw [if_neg fun h => hr h.1, reported_report_of_ne hr]
      exact hlisted
  · intro r
    have hretained := h.retained r
    rw [reported_unmappedRetained]
    by_cases hr : r = runId
    · have htotal : (s.reported runId legacyId).unmappedTotal r = s.unmappedTotal runId + 1 := by
        simp [State.reported, hr]
      rw [hr] at hretained
      rw [htotal, hr]
      split_ifs <;> omega
    · have htotal : (s.reported runId legacyId).unmappedTotal r = s.unmappedTotal r :=
        Function.update_of_ne hr _ _
      rw [htotal, if_neg fun h => hr h.1, hretained]

theorem Effect.continues {es : List (Step contract)} {call : Call} (h : Effect env s call s')
    (hs : Booked s es) : Continues s s' := by
  cases h with
  | appoint habsent =>
    rw [hs.fresh habsent]
    constructor <;> simp [State.empty]
  | beginRun _ hnext =>
    have hnone := hs.runs.unborn_next hnext
    exact ⟨fun _ record h => ⟨record.state, h⟩,
      fun _ run h => ⟨run, update_keeps_row hnone h, .refl run⟩,
      fun _ _ h _ => ⟨update_keeps_row hnone h, rfl, fun _ => rfl⟩⟩
  | idle => exact continues_refl s
  | pass _ _ hfound hopened hahead =>
    obtain rfl := hs.runs.keyed _ _ hfound
    exact .ofSave hfound hopened rfl ⟨rfl, rfl, rfl, rfl, hahead.le⟩ (fun _ _ h => h)
      fun _ _ => ⟨rfl, fun _ => rfl⟩
  | map _ _ hfound hopened _ hahead hnew =>
    obtain rfl := hs.runs.keyed _ _ hfound
    exact .ofSave hfound hopened rfl ⟨rfl, rfl, rfl, rfl, hahead.le⟩
      (fun _ _ h => update_keeps_row hnew h) fun _ _ => ⟨rfl, fun _ => rfl⟩
  | report _ hfound hopened hahead =>
    obtain rfl := hs.runs.keyed _ _ hfound
    refine .ofSave hfound hopened rfl ⟨rfl, rfl, rfl, rfl, hahead.le⟩ (fun _ _ h => h) ?_
    intro r hr
    exact ⟨Function.update_of_ne hr _ _, fun k => reported_report_of_ne hr⟩
  | sealRun _ hfound hopened =>
    obtain rfl := hs.runs.keyed _ _ hfound
    exact .ofSave hfound hopened rfl ⟨rfl, rfl, rfl, rfl, le_rfl⟩ (fun _ _ h => h)
      fun _ _ => ⟨rfl, fun _ => rfl⟩
  | @archive _ archived row _ hfound =>
    refine ⟨?_, fun _ run h => ⟨run, h, .refl run⟩, fun _ _ h _ => ⟨h, rfl, fun _ => rfl⟩⟩
    intro x record hrecord
    dsimp only
    by_cases hx : x = archived
    · rw [hx, hfound, Option.some.injEq] at hrecord
      rw [hx, Function.update_self, ← hrecord]
      exact ⟨.archived, rfl⟩
    · rw [Function.update_of_ne hx]
      exact ⟨record.state, hrecord⟩

theorem MappingsBooked.same (h : MappingsBooked s es) {e : Step contract}
    (hnot : ∀ r x, ¬ Maps e r x) (hkept : Continues s t)
    (hruns : ∀ r run, t.run r = some run → s.run r = none ∧ run.mapped = 0 ∨
      ∃ old, s.run r = some old ∧ old.mapped = run.mapped) : MappingsBooked t (es ++ [e]) := by
  have hmaps : ∀ r x, (∃ e' ∈ es ++ [e], Maps e' r x) ↔ ∃ e' ∈ es, Maps e' r x := by
    intro r x
    simp [List.mem_append, or_and_right, exists_or, hnot]
  constructor
  · intro r x hmapped
    rw [hmaps] at hmapped
    exact hkept.present (h.known r x hmapped)
  · simpa only [hmaps] using h.finite
  · intro r run hrun
    simp only [hmaps]
    rcases hruns r run hrun with ⟨hnone, hzero⟩ | ⟨old, hold, hsame⟩
    · have hempty : {x | ∃ e' ∈ es, Maps e' r x} = ∅ := by
        ext x
        simp only [Set.mem_ofPred_eq, Set.mem_empty_iff_false, iff_false]
        intro hmapped
        exact (h.known r x hmapped).1 hnone
      rw [hempty, hzero, Set.ncard_empty]
    · rw [← hsame]
      exact h.mapped r old hold

/-- One more record is mapped, by one run. -/
theorem MappingsBooked.map {record : LegacyRecord} (h : MappingsBooked s es) {e : Step contract}
    (hmaps : ∀ r x, Maps e r x ↔ r = run.id ∧ x = record.legacyId) (hkept : Continues s t)
    (hnew : s.record record.legacyId = none)
    (hrecord : t.record = Function.update s.record record.legacyId (some record))
    (hfound : s.run run.id = some run)
    (hrun : t.run = Function.update s.run run.id (some run'))
    (hmapped : run'.mapped = run.mapped + 1) : MappingsBooked t (es ++ [e]) := by
  have hboth : ∀ r x, (∃ e' ∈ es ++ [e], Maps e' r x) ↔
      (∃ e' ∈ es, Maps e' r x) ∨ r = run.id ∧ x = record.legacyId := by
    intro r x
    simp [List.mem_append, or_and_right, exists_or, hmaps]
  have hgrown : {x | ∃ e' ∈ es ++ [e], Maps e' run.id x} =
      insert record.legacyId {x | ∃ e' ∈ es, Maps e' run.id x} := by
    ext x
    simp only [Set.mem_ofPred_eq, Set.mem_insert_iff, hboth, true_and]
    exact or_comm
  have hothers : ∀ r, r ≠ run.id →
      {x | ∃ e' ∈ es ++ [e], Maps e' r x} = {x | ∃ e' ∈ es, Maps e' r x} := by
    intro r hr
    ext x
    simp [hmaps, hr]
  constructor
  · intro r x hmapped
    rcases (hboth r x).mp hmapped with hold | ⟨hr, hx⟩
    · exact hkept.present (h.known r x hold)
    · rw [hr, hx, hrun, hrecord, Function.update_self, Function.update_self]
      exact ⟨Option.some_ne_none run', Option.some_ne_none record⟩
  · intro r
    by_cases hr : r = run.id
    · rw [hr, hgrown]
      exact (h.finite run.id).insert _
    · rw [hothers r hr]
      exact h.finite r
  · intro r row hrow
    rw [hrun] at hrow
    rcases update_row_cases hrow with ⟨rfl, rfl⟩ | ⟨hr, hold⟩
    · have hfresh : record.legacyId ∉ {x | ∃ e' ∈ es, Maps e' run.id x} := by
        intro hin
        exact (h.known _ _ hin).2 hnew
      rw [hgrown, Set.ncard_insert_of_notMem hfresh (h.finite run.id), hmapped,
        h.mapped run.id run hfound]
    · rw [hothers r hr]
      exact h.mapped r row hold

/-- Only a mapping puts a new record into the table. -/
theorem not_maps {e : Step contract}
    (hrecord : ∀ x, e.pre.record x = none → e.post.record x = none) (r : Nat) (x : Bytes32) :
    ¬ Maps e r x := by
  intro hparts
  obtain ⟨_, hnone, hsome⟩ := hparts
  exact hsome (hrecord x hnone)

theorem Effect.mappings {i : Input contract} {o : Response} (h : Effect i.env s i.call s')
    (hs : Booked s es) : MappingsBooked s' (es ++ [⟨s, i, o, s'⟩]) := by
  have hkept := h.continues hs
  -- A write of one run that leaves its count of mappings.
  have hwrite : ∀ {runId : Nat} {run run' : MigrationRun}, s.run runId = some run →
      s'.run = Function.update s.run run'.id (some run') → run'.id = run.id →
      run'.mapped = run.mapped → (∀ x, s'.record x = s.record x) →
      MappingsBooked s' (es ++ [⟨s, i, o, s'⟩]) := by
    intro runId run run' hfound hrun hid hmapped hrecord
    obtain rfl := hs.runs.keyed _ _ hfound
    refine hs.mappings.same (not_maps fun x hnone => (hrecord x).trans hnone) hkept ?_
    intro r row hrow
    rw [hrun, hid] at hrow
    rcases update_row_cases hrow with ⟨rfl, rfl⟩ | ⟨_, hold⟩
    · rw [hmapped]
      exact .inr ⟨run, hfound, rfl⟩
    · exact .inr ⟨row, hold, rfl⟩
  generalize hcall : i.call = call at h
  cases h with
  | appoint =>
    exact hs.mappings.same (not_maps fun _ hnone => hnone) hkept
      fun r run hrun => .inr ⟨run, hrun, rfl⟩
  | @beginRun _ _ _ id _ hnext =>
    have hnone := hs.runs.unborn_next hnext
    refine hs.mappings.same (not_maps fun _ h => h) hkept ?_
    intro r run hrun
    simp only [State.begun, saveRun] at hrun
    rcases update_row_cases hrun with ⟨rfl, rfl⟩ | ⟨_, hold⟩
    · exact .inl ⟨hnone, rfl⟩
    · exact .inr ⟨run, hold, rfl⟩
  | idle =>
    exact hs.mappings.same (not_maps fun _ hnone => hnone) hkept
      fun r run hrun => .inr ⟨run, hrun, rfl⟩
  | pass _ _ hfound => exact hwrite hfound rfl rfl rfl fun _ => rfl
  | @map _ runId _ run record _ hnamed hfound _ _ _ hnew =>
    obtain rfl := hs.runs.keyed _ _ hfound
    refine hs.mappings.map ?_ hkept hnew rfl hfound rfl rfl
    have hwritten : Function.update s.record record.legacyId (some record) record.legacyId ≠ none := by
      rw [Function.update_self]
      exact Option.some_ne_none record
    intro r x
    constructor
    · intro hmaps
      have hnames : i.call.mapping = some (r, x) := hmaps.1
      rw [hcall, hnamed, Option.some.injEq, Prod.mk.injEq] at hnames
      exact ⟨hnames.1.symm, hnames.2.symm⟩
    · intro hboth
      rw [hboth.1, hboth.2]
      exact ⟨hcall ▸ hnamed, hnew, hwritten⟩
  | report _ hfound => exact hwrite hfound rfl rfl rfl fun _ => rfl
  | sealRun _ hfound => exact hwrite hfound rfl rfl rfl fun _ => rfl
  | @archive _ archived row _ hfound =>
    refine hs.mappings.same (not_maps fun x hnone => ?_) hkept
      fun r run hrun => .inr ⟨run, hrun, rfl⟩
    have hx : x ≠ archived := by
      intro hx
      rw [hx] at hnone
      rw [hfound] at hnone
      cases hnone
    exact (Function.update_of_ne hx _ _).trans hnone

theorem Effect.booked {i : Input contract} {o : Response} (h : Effect i.env s i.call s')
    (hs : Booked s es) : Booked s' (es ++ [⟨s, i, o, s'⟩]) := by
  have hmappings : MappingsBooked s' (es ++ [⟨s, i, o, s'⟩]) := h.mappings hs
  have hreports := hs.reports
  have hrecords := hs.records
  generalize hcall : i.call = call at h
  cases h with
  | appoint habsent =>
    have hempty := hs.fresh habsent
    rw [hempty] at hmappings ⊢
    refine ⟨nofun, ?_, ?_, ?_, hmappings⟩ <;> constructor <;> simp [State.empty]
  | beginRun hruled hnext =>
    exact ⟨fun h => absurd h hruled, hs.runs.begin hnext, ⟨hrecords.finite, hrecords.tracked⟩,
      ⟨hreports.listed, hreports.retained⟩, hmappings⟩
  | idle hruled => exact ⟨hs.fresh, hs.runs, hrecords, hreports, hmappings⟩
  | pass hruled _ hfound hopened =>
    obtain rfl := hs.runs.keyed _ _ hfound
    refine ⟨fun h => absurd h hruled, hs.runs.save hfound hopened rfl rfl rfl ?_,
      ⟨hrecords.finite, hrecords.tracked⟩, ⟨hreports.listed, hreports.retained⟩, hmappings⟩
    simp [saveRun, hopened]
  | map hruled _ hfound hopened _ _ hnew hstate =>
    obtain rfl := hs.runs.keyed _ _ hfound
    refine ⟨fun h => absurd h hruled, hs.runs.save hfound hopened rfl rfl rfl ?_,
      hrecords.map hnew hstate rfl rfl, ⟨hreports.listed, hreports.retained⟩, hmappings⟩
    simp [saveRun, saveRecord, hopened]
  | @report _ _ _ legacyId _ run hruled hfound hopened =>
    obtain rfl := hs.runs.keyed _ _ hfound
    have hreported := hreports.report run.id legacyId
    refine ⟨fun h => absurd h hruled, hs.runs.save hfound hopened rfl rfl rfl ?_,
      ⟨hrecords.finite, hrecords.tracked⟩, ⟨hreported.listed, hreported.retained⟩, hmappings⟩
    simp [saveRun, State.reported, hopened]
  | sealRun hruled hfound hopened =>
    obtain rfl := hs.runs.keyed _ _ hfound
    exact ⟨fun h => absurd h hruled, hs.runs.save hfound hopened rfl rfl rfl rfl,
      ⟨hrecords.finite, hrecords.tracked⟩, ⟨hreports.listed, hreports.retained⟩, hmappings⟩
  | archive hruled hfound hmapped =>
    exact ⟨fun h => absurd h hruled,
      ⟨hs.runs.keyed, hs.runs.unborn, hs.runs.finite, hs.runs.opened⟩,
      hrecords.archive hfound hmapped rfl rfl, ⟨hreports.listed, hreports.retained⟩, hmappings⟩

theorem run_booked (is : List (Input contract)) :
    Booked ((machine contract).run State.empty is) ((machine contract).journal State.empty is) :=
  Machine.run_journal_invariant booked_empty (fun _ _ _ _ _ hs h => (step_effect h).booked hs) is

/-- From a reachable store on, nothing that must not be lost is lost. -/
theorem run_continues {es : List (Step contract)} (hs : Booked s es)
    (later : List (Input contract)) : Continues s ((machine contract).run s later) := by
  let Inv (t : State) : Prop := ∃ es : List (Step contract), Booked t es
  have hstart : Inv s := ⟨es, hs⟩
  apply Machine.run_relation continues_refl (fun _ _ _ => .trans) hstart
  · intro t i o t' ht h
    obtain ⟨es, ht⟩ := ht
    exact ⟨_, (step_effect h).booked (o := o) ht⟩
  · intro t i o t' ht h
    obtain ⟨es, ht⟩ := ht
    exact (step_effect h).continues ht

/-- A rehearsal leaves the table of records alone. -/
theorem Effect.dry {call : Call} {r : Nat} (h : Effect env s call s') (hr : call.runId = some r)
    (hrun : s.run r = some run) (hdry : run.dryRun = true) : s'.record = s.record := by
  cases h with
  | appoint => rfl
  | beginRun => rfl
  | idle => rfl
  | pass => rfl
  | map _ hnamed hfound _ hreal =>
    rw [Call.runId_of_mapping hnamed, Option.some.injEq] at hr
    rw [hr, hrun, Option.some.injEq] at hfound
    rw [← hfound, hdry] at hreal
    cases hreal
  | report => rfl
  | sealRun => rfl
  | archive => cases hr

end Books

/-- Migrated records are immutable and counted. -/
theorem run_migrated (is later : List (Input contract)) :
    let m := machine contract
    let s := m.run State.empty is
    let t := m.run s later
    let journal := m.journal State.empty is
    (∀ x record, s.record x = some record →
      ∃ state, t.record x = some { record with state := state }) ∧
    (∀ e ∈ journal, ∀ r run, e.input.call.runId = some r → e.pre.run r = some run →
      run.dryRun = true → e.post.record = e.pre.record) ∧
    {x | ∃ record, s.record x = some record ∧ record.state = .mapped}.Finite ∧
    s.trackedRecords = {x | ∃ record, s.record x = some record ∧ record.state = .mapped}.ncard ∧
    (∀ r run, s.run r = some run → {x | ∃ e ∈ journal, Maps e r x}.Finite ∧
      run.mapped = {x | ∃ e ∈ journal, Maps e r x}.ncard) ∧
    {r | ∃ run, s.run r = some run ∧ run.sealed = false}.Finite ∧
    s.openRuns = {r | ∃ run, s.run r = some run ∧ run.sealed = false}.ncard ∧
    (∀ r k, (∃ x, s.report (r, k) = some x) ↔ k < min (s.unmappedTotal r) maxReportedPerRun) ∧
    ∀ r run, s.run r = some run → ∃ run', t.run r = some run' ∧ run.Precedes run' ∧
      (run.sealed = true → run' = run ∧ t.unmappedTotal r = s.unmappedTotal r ∧
        ∀ k, t.report (r, k) = s.report (r, k)) := by
  intro m s t journal
  have hs : Booked s journal := run_booked is
  have hlater : Continues s t := run_continues hs later
  refine ⟨hlater.records, ?_, ?_, ?_, ?_, ?_, ?_, ?_, ?_⟩
  · intro e he r run hr hrun hdry
    exact (step_effect (Machine.journal_step he).1).dry hr hrun hdry
  · have hfinite := hs.records.finite
    simpa only [Tracked, Option.map_eq_some_iff] using hfinite
  · have htracked := hs.records.tracked
    simpa only [Tracked, Option.map_eq_some_iff] using htracked
  · intro r run hrun
    exact ⟨hs.mappings.finite r, hs.mappings.mapped r run hrun⟩
  · have hfinite := hs.runs.finite
    simpa only [Opened, Option.map_eq_some_iff] using hfinite
  · have hopened := hs.runs.opened
    simpa only [Opened, Option.map_eq_some_iff] using hopened
  · intro r k
    rw [← hs.reports.retained r, ← hs.reports.listed r k, Option.isSome_iff_exists]
  · intro r run hrun
    obtain ⟨run', hrun', hprecedes⟩ := hlater.runs r run hrun
    refine ⟨run', hrun', hprecedes, ?_⟩
    intro hsealed
    obtain ⟨hkept, hreports⟩ := hlater.settled r run hrun hsealed
    rw [hkept, Option.some.injEq] at hrun'
    exact ⟨hrun'.symm, hreports⟩

end ChainVerse.ScholarshipMigration
