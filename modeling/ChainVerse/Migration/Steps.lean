import ChainVerse.Migration.Contract

namespace ChainVerse.ScholarshipMigration

variable {contract : Address} {env : Env contract} {s s' : State} {run : MigrationRun}

/-- The run that `map_record`, `report_unmapped` and `seal_run` work on. -/
def Call.runId : Call → Option Nat
  | .mapRecord _ id _ _ _ _ _ _ _ | .reportUnmapped _ id _ _ _ | .sealRun _ id => some id
  | _ => none

/-- The run and the legacy id that a call maps. -/
def Call.mapping : Call → Option (Nat × Bytes32)
  | .mapRecord _ id legacyId _ _ _ _ _ _ => some (id, legacyId)
  | _ => none

theorem Call.runId_of_mapping {call : Call} {r : Nat} {x : Bytes32}
    (h : call.mapping = some (r, x)) : call.runId = some r := by
  cases call with
  | mapRecord =>
    simp only [mapping, Option.some.injEq, Prod.mk.injEq] at h
    rw [runId, h.1]
  | _ => cases h

section Specs

theorem advance_ok {cursor : Nat} (hcursor : run.cursor ≤ cursor) :
    advance s run cursor = .ok (saveRun s { run with cursor := cursor }) := by
  simp [advance, refuseIf, Nat.not_lt.mpr hcursor, pure, Except.pure]

section NewRecords

variable {legacyId payloadHash program correlation : Bytes32} {sourceSystem : Symbol}
  {submittedAt cursor : Nat}

theorem mapNew_full (hfull : maxTrackedRecords ≤ s.trackedRecords) :
    mapNew env s run legacyId sourceSystem submittedAt payloadHash program correlation cursor =
      .error (.err .tooManyRecords) := by
  simp [mapNew, refuseIf, hfull]

theorem mapNew_dry (hroom : s.trackedRecords < maxTrackedRecords) (hmode : run.dryRun = true)
    (hcursor : run.cursor ≤ cursor) :
    mapNew env s run legacyId sourceSystem submittedAt payloadHash program correlation cursor =
      .ok (.eligible, saveRun s { run with cursor := cursor }) := by
  simp [mapNew, refuseIf, Nat.not_le.mpr hroom, hmode, advance_ok hcursor, pure, Except.pure]

theorem mapNew_real (hroom : s.trackedRecords < maxTrackedRecords) (hmode : run.dryRun = false)
    (hfits : run.mapped + 1 < 2^32) :
    mapNew env s run legacyId sourceSystem submittedAt payloadHash program correlation cursor =
      .ok (.mapped, saveRun
        { saveRecord s ⟨legacyId, sourceSystem, submittedAt, payloadHash, program, .mapped, 0,
            correlation, env.timestamp⟩ with trackedRecords := s.trackedRecords + 1 }
        { run with mapped := run.mapped + 1, cursor := cursor }) := by
  have htracked : s.trackedRecords + 1 < 2^64 := by
    unfold maxTrackedRecords at hroom
    omega
  simp only [mapNew, hmode, bind_eq_ok, refuseIf_eq_ok, orRefuse_eq_ok, fitsU_eq_some, exists_unit,
    Bool.false_eq_true, if_false, pure_eq_ok]
  exact ⟨Nat.not_le.mpr hroom, _, ⟨htracked, rfl⟩, _, ⟨hfits, rfl⟩, rfl⟩

end NewRecords

/-- The store after run `id` has begun. -/
def State.begun (s : State) (id : Nat) (sourceSystem : Symbol) (dryRun : Bool) (now : Nat) : State :=
  { saveRun s ⟨id, sourceSystem, dryRun, 0, 0, false, now, 0⟩ with
    nextRunId := some (id + 1), openRuns := s.openRuns + 1 }

theorem beginRun_ok {operator : Address} {sourceSystem : Symbol} {dryRun : Bool} {id : Nat} :
    beginRun env s operator sourceSystem dryRun = .ok (id, s') ↔
      (env.signers operator = true ∧ s.admin = some operator ∧ s.openRuns < maxRuns ∧
        s.nextRunId = some id ∧ id + 1 < 2^64) ∧
      s' = s.begun id sourceSystem dryRun env.timestamp := by
  simp only [beginRun, requireAdmin, bind_eq_ok, exists_unit, requireAuth_eq_ok, refuseIf_eq_ok,
    not_not, not_le, orRefuse_eq_ok, fitsU_eq_some, pure_eq_ok, Prod.mk.injEq]
  constructor
  · intro hparts
    obtain ⟨hsigned, hadmin, hroom, _, hnext, _, ⟨hfits, rfl⟩, _, ⟨_, rfl⟩, rfl, rfl⟩ := hparts
    exact ⟨⟨hsigned, hadmin, hroom, hnext, hfits⟩, rfl⟩
  · intro hparts
    obtain ⟨⟨hsigned, hadmin, hroom, hnext, hfits⟩, rfl⟩ := hparts
    have hopened : s.openRuns + 1 < 2^64 := by
      unfold maxRuns at hroom
      omega
    exact ⟨hsigned, hadmin, hroom, id, hnext, _, ⟨hfits, rfl⟩, _, ⟨hopened, rfl⟩, rfl, rfl⟩

/-- The store after one more item of a run is reported: the item is listed while there is room. -/
def State.reported (s : State) (runId : Nat) (legacyId : Bytes32) : State :=
  let retained := s.unmappedRetained runId
  { s with
    unmappedTotal := Function.update s.unmappedTotal runId (s.unmappedTotal runId + 1)
    report := if retained < maxReportedPerRun then
      Function.update s.report (runId, retained) (some legacyId) else s.report
    unmappedRetained := if retained < maxReportedPerRun then
      Function.update s.unmappedRetained runId (retained + 1) else s.unmappedRetained }

/-- Only the exact count can overflow. -/
theorem retainReport_eq {runId : Nat} {legacyId : Bytes32} :
    retainReport s runId legacyId =
      if s.unmappedTotal runId + 1 < 2^64 then .ok (s.reported runId legacyId)
      else .error (.err .counterOverflow) := by
  unfold retainReport State.reported fitsU
  by_cases hfits : s.unmappedTotal runId + 1 < 2^64
  · by_cases hroom : s.unmappedRetained runId < maxReportedPerRun
    · have hnext : s.unmappedRetained runId + 1 < 2^32 := by
        unfold maxReportedPerRun at hroom
        omega
      rw [if_pos hfits, if_pos hfits]
      simp only [orRefuse, ok_bind, hroom, if_true, hnext]
      rfl
    · rw [if_pos hfits, if_pos hfits]
      simp only [orRefuse, ok_bind, hroom, if_false]
      rfl
  · rw [if_neg hfits, if_neg hfits]
    rfl

end Specs

/-- Everything an accepted call can have done. -/
inductive Effect (env : Env contract) (s : State) : Call → State → Prop where
  | appoint {admin : Address} (absent : s.admin = none) :
      Effect env s (.initializeContract admin)
        { s with admin := some admin, nextRunId := some 1, openRuns := 0, trackedRecords := 0 }
  | beginRun {operator : Address} {sourceSystem : Symbol} {dryRun : Bool} {id : Nat}
      (ruled : s.admin ≠ none) (next : s.nextRunId = some id) :
      Effect env s (.beginRun operator sourceSystem dryRun)
        (s.begun id sourceSystem dryRun env.timestamp)
  | idle {call : Call} (ruled : s.admin ≠ none) : Effect env s call s
  | pass {call : Call} {runId cursor : Nat} {run : MigrationRun} (ruled : s.admin ≠ none)
      (named : call.runId = some runId) (found : s.run runId = some run)
      (opened : run.sealed = false) (ahead : run.cursor < cursor) :
      Effect env s call (saveRun s { run with cursor := cursor })
  | map {call : Call} {runId cursor : Nat} {run : MigrationRun} {record : LegacyRecord}
      (ruled : s.admin ≠ none) (named : call.mapping = some (runId, record.legacyId))
      (found : s.run runId = some run) (opened : run.sealed = false) (real : run.dryRun = false)
      (ahead : run.cursor < cursor) (new : s.record record.legacyId = none)
      (state : record.state = .mapped) :
      Effect env s call (saveRun
        { saveRecord s record with trackedRecords := s.trackedRecords + 1 }
        { run with mapped := run.mapped + 1, cursor := cursor })
  | report {operator : Address} {runId cursor : Nat} {legacyId : Bytes32}
      {reason : UnmappableReason} {run : MigrationRun} (ruled : s.admin ≠ none)
      (found : s.run runId = some run) (opened : run.sealed = false)
      (ahead : run.cursor < cursor) :
      Effect env s (.reportUnmapped operator runId legacyId reason cursor)
        (saveRun (s.reported runId legacyId) { run with cursor := cursor })
  | sealRun {operator : Address} {runId : Nat} {run : MigrationRun} (ruled : s.admin ≠ none)
      (found : s.run runId = some run) (opened : run.sealed = false) :
      Effect env s (.sealRun operator runId)
        (saveRun { s with openRuns := s.openRuns - 1 }
          { run with sealed := true, sealedAt := env.timestamp })
  | archive {operator : Address} {legacyId : Bytes32} {record : LegacyRecord}
      (ruled : s.admin ≠ none) (found : s.record legacyId = some record)
      (mapped : record.state = .mapped) :
      Effect env s (.archiveRecord operator legacyId)
        { s with
          record := Function.update s.record legacyId (some { record with state := .archived })
          trackedRecords := s.trackedRecords - 1 }

section Inversion

theorem requireAdmin_ok {operator : Address} {u : Unit} (h : requireAdmin s operator = .ok u) :
    s.admin ≠ none := by
  simp only [requireAdmin, refuseIf_eq_ok, not_not] at h
  rw [h]
  exact Option.some_ne_none operator

theorem advance_eq_ok {cursor : Nat} : advance s run cursor = .ok s' ↔
    run.cursor ≤ cursor ∧ saveRun s { run with cursor := cursor } = s' := by
  simp [advance]

theorem mapNew_effect {call : Call} {runId cursor submittedAt : Nat} {sourceSystem : Symbol}
    {legacyId payloadHash program correlation : Bytes32} {state : RecordState}
    (hruled : s.admin ≠ none) (hcall : call.mapping = some (runId, legacyId))
    (hrunId : call.runId = some runId) (hfound : s.run runId = some run)
    (hopened : run.sealed = false) (hahead : run.cursor < cursor)
    (hnew : s.record legacyId = none)
    (h : mapNew env s run legacyId sourceSystem submittedAt payloadHash program correlation cursor =
      .ok (state, s')) : Effect env s call s' := by
  cases hmode : run.dryRun with
  | true =>
    simp only [mapNew, hmode, if_true, bind_eq_ok, refuseIf_eq_ok, exists_unit, advance_eq_ok,
      pure_eq_ok, Prod.mk.injEq] at h
    obtain ⟨_, _, ⟨_, rfl⟩, _, rfl⟩ := h
    rw [← hmode]
    exact .pass hruled hrunId hfound hopened hahead
  | false =>
    simp only [mapNew, hmode, Bool.false_eq_true, if_false, bind_eq_ok, refuseIf_eq_ok, exists_unit,
      orRefuse_eq_ok, fitsU_eq_some, pure_eq_ok, Prod.mk.injEq] at h
    obtain ⟨_, _, ⟨_, rfl⟩, _, ⟨_, rfl⟩, _, rfl⟩ := h
    rw [← hmode]
    exact .map hruled hcall hfound hopened hmode hahead hnew rfl

theorem mapRecord_effect {operator : Address} {runId cursor submittedAt : Nat}
    {sourceSystem : Symbol} {legacyId payloadHash program correlation : Bytes32}
    {state : RecordState}
    (h : mapRecord env s operator runId legacyId sourceSystem submittedAt payloadHash program
      correlation cursor = .ok (state, s')) :
    Effect env s (.mapRecord operator runId legacyId sourceSystem submittedAt payloadHash program
      correlation cursor) s' := by
  simp only [mapRecord, bind_eq_ok, exists_unit, loadRun, orRefuse_eq_ok, refuseIf_eq_ok,
    Bool.not_eq_true] at h
  obtain ⟨_, hadmin, _, run, hfound, hopened, _, h⟩ := h
  have hruled := requireAdmin_ok hadmin
  by_cases hcursor : cursor ≤ run.cursor
  · rw [if_pos hcursor] at h
    simp only [bind_eq_ok, pure_eq_ok, Prod.mk.injEq] at h
    obtain ⟨_, _, _, rfl⟩ := h
    exact .idle hruled
  · rw [if_neg hcursor] at h
    have hahead := Nat.not_le.mp hcursor
    cases hrecord : s.record legacyId with
    | some existing =>
      simp only [hrecord, bind_eq_ok, refuseIf_eq_ok, exists_unit, advance_eq_ok, pure_eq_ok,
        Prod.mk.injEq] at h
      obtain ⟨_, _, ⟨_, rfl⟩, _, rfl⟩ := h
      exact .pass hruled rfl hfound hopened hahead
    | none =>
      rw [hrecord] at h
      exact mapNew_effect hruled rfl rfl hfound hopened hahead hrecord h

theorem reportUnmapped_effect {operator : Address} {runId cursor : Nat} {legacyId : Bytes32}
    {reason : UnmappableReason}
    (h : reportUnmapped env s operator runId legacyId reason cursor = .ok s') :
    Effect env s (.reportUnmapped operator runId legacyId reason cursor) s' := by
  simp only [reportUnmapped, bind_eq_ok, exists_unit, loadRun, orRefuse_eq_ok, refuseIf_eq_ok,
    Bool.not_eq_true] at h
  obtain ⟨_, hadmin, run, hfound, hopened, h⟩ := h
  have hruled := requireAdmin_ok hadmin
  by_cases hcursor : cursor ≤ run.cursor
  · simp only [if_pos hcursor, pure_eq_ok] at h
    rw [← h]
    exact .idle hruled
  · have hahead := Nat.not_le.mp hcursor
    simp only [if_neg hcursor, bind_eq_ok, exists_unit, retainReport_eq, pure_eq_ok] at h
    obtain ⟨_, _, hnext, rfl⟩ := h
    by_cases hfits : s.unmappedTotal runId + 1 < 2^64
    · rw [if_pos hfits, Except.ok.injEq] at hnext
      rw [← hnext]
      exact .report hruled hfound hopened hahead
    · rw [if_neg hfits] at hnext
      cases hnext

theorem sealRun_effect {operator : Address} {runId : Nat} {summary : RunSummary}
    (h : sealRun env s operator runId = .ok (summary, s')) :
    Effect env s (.sealRun operator runId) s' := by
  simp only [sealRun, bind_eq_ok, exists_unit, loadRun, orRefuse_eq_ok] at h
  obtain ⟨_, hadmin, run, hfound, h⟩ := h
  have hruled := requireAdmin_ok hadmin
  cases hsealed : run.sealed with
  | true =>
    simp only [hsealed, if_true, pure_eq_ok, Prod.mk.injEq] at h
    rw [← h.2]
    exact .idle hruled
  | false =>
    simp only [hsealed, Bool.false_eq_true, if_false, pure_eq_ok, Prod.mk.injEq] at h
    rw [← h.2]
    exact .sealRun hruled hfound hsealed

theorem beginRun_effect {operator : Address} {sourceSystem : Symbol} {dryRun : Bool} {id : Nat}
    (h : beginRun env s operator sourceSystem dryRun = .ok (id, s')) :
    Effect env s (.beginRun operator sourceSystem dryRun) s' := by
  obtain ⟨⟨_, hadmin, _, hnext, _⟩, rfl⟩ := beginRun_ok.mp h
  exact .beginRun (hadmin ▸ Option.some_ne_none operator) hnext

theorem archiveRecord_effect {operator : Address} {legacyId : Bytes32}
    (h : archiveRecord env s operator legacyId = .ok s') :
    Effect env s (.archiveRecord operator legacyId) s' := by
  simp only [archiveRecord, bind_eq_ok, exists_unit, refuseIf_eq_ok, orRefuse_eq_ok, not_not,
    pure_eq_ok] at h
  obtain ⟨_, hadmin, record, hfound, hmapped, rfl⟩ := h
  exact .archive (requireAdmin_ok hadmin) hfound hmapped

/-- What an accepted entry point has done. -/
theorem step_effect {i : Input contract} {o : Response}
    (h : (machine contract).step s i = .ok (o, s')) : Effect i.env s i.call s' := by
  obtain ⟨env, call⟩ := i
  cases call with
  | initializeContract admin =>
    simp only [machine, execute, map_eq_ok, initializeContract, bind_eq_ok, refuseIf_eq_ok,
      exists_unit, pure_eq_ok, Bool.not_eq_true, Option.isSome_eq_false_iff,
      Option.isNone_iff_eq_none, Prod.mk.injEq] at h
    obtain ⟨_, ⟨habsent, _, rfl⟩, _, rfl⟩ := h
    exact .appoint habsent
  | beginRun =>
    simp only [machine, execute, map_eq_ok, Prod.map, Prod.mk.injEq, id] at h
    obtain ⟨⟨_, _⟩, hbegin, _, rfl⟩ := h
    exact beginRun_effect hbegin
  | mapRecord =>
    simp only [machine, execute, map_eq_ok, Prod.map, Prod.mk.injEq, id] at h
    obtain ⟨⟨_, _⟩, hmap, _, rfl⟩ := h
    exact mapRecord_effect hmap
  | reportUnmapped =>
    simp only [machine, execute, map_eq_ok, Prod.mk.injEq] at h
    obtain ⟨_, hreport, _, rfl⟩ := h
    exact reportUnmapped_effect hreport
  | sealRun =>
    simp only [machine, execute, map_eq_ok, Prod.map, Prod.mk.injEq, id] at h
    obtain ⟨⟨_, _⟩, hseal, _, rfl⟩ := h
    exact sealRun_effect hseal
  | archiveRecord =>
    simp only [machine, execute, map_eq_ok, Prod.mk.injEq] at h
    obtain ⟨_, harchive, _, rfl⟩ := h
    exact archiveRecord_effect harchive

end Inversion

end ChainVerse.ScholarshipMigration
