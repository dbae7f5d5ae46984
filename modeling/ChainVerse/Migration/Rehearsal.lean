import ChainVerse.Framework.Simulations
import ChainVerse.Framework.Tables
import ChainVerse.Migration.Steps

namespace ChainVerse.ScholarshipMigration

variable {contract : Address} {env : Env contract} {s₀ s real dry real' dry' : State}
  {run run' : MigrationRun} {id : Nat}

/-- A call that comes to the cursor of the run and finds there what a rehearsal that began in `s₀`
does not: a record that the run has written itself, unless the call maps it above the cursor with the
same contents, or a table that the run has filled up. -/
def departs (s₀ s : State) (id : Nat) (i : Input contract) : Bool :=
  match s.run id, i.call with
  | some run, .mapRecord operator _ legacyId sourceSystem submittedAt payloadHash _ _ cursor =>
    i.env.signers operator && s.admin = some operator && payloadHash ≠ 0 && !run.sealed &&
      run.sourceSystem = sourceSystem &&
      match s₀.record legacyId, s.record legacyId with
      | none, some record =>
        cursor ≤ run.cursor || record.payloadHash ≠ payloadHash || record.submittedAt ≠ submittedAt
      | none, none =>
        run.cursor < cursor && s₀.trackedRecords < maxTrackedRecords &&
          maxTrackedRecords ≤ s.trackedRecords
      | some _, _ => false
  | some run, .reportUnmapped operator _ legacyId _ cursor =>
    i.env.signers operator && s.admin = some operator && !run.sealed && run.cursor < cursor &&
      (s₀.record legacyId).isNone && (s.record legacyId).isSome
  | _, _ => false

/-- What a real run looks like when it is rehearsed. -/
def MigrationRun.rehearsed (run : MigrationRun) : MigrationRun :=
  { run with dryRun := true, mapped := 0 }

/-- The store `dry` has rehearsed what `real` has done since `s₀`: its table of records is that of
`s₀`, to which `real` has added the records it mapped. -/
structure Rehearses (s₀ : State) (id : Nat) (run : MigrationRun) (real dry : State) : Prop where
  admin : dry.admin = real.admin
  named : run.id = id
  mode : run.dryRun = false
  going : real.run id = some run
  followed : dry.run id = some run.rehearsed
  unmapped : dry.unmappedTotal id = real.unmappedTotal id
  records : dry.record = s₀.record
  tracked : dry.trackedRecords = s₀.trackedRecords
  added : ∀ x, real.record x = s₀.record x ∨
    s₀.record x = none ∧ ∃ record, real.record x = some record ∧ record.state = .mapped
  finite : {x | real.record x ≠ s₀.record x}.Finite
  counted : {x | real.record x ≠ s₀.record x}.ncard = run.mapped
  grown : real.trackedRecords = s₀.trackedRecords + run.mapped
  room : run.mapped = 0 ∨ real.trackedRecords ≤ maxTrackedRecords

section Writes

/-- Both stores go on with the run and leave the records. -/
theorem Rehearses.write (h : Rehearses s₀ id run real dry) (hid : run'.id = id)
    (hmode : run'.dryRun = false) (hmapped : run'.mapped = run.mapped)
    (hreal : real'.run = Function.update real.run id (some run'))
    (hdry : dry'.run = Function.update dry.run id (some run'.rehearsed))
    (hadmins : real'.admin = real.admin ∧ dry'.admin = dry.admin)
    (hrecords : real'.record = real.record ∧ dry'.record = dry.record)
    (htracked : real'.trackedRecords = real.trackedRecords ∧
      dry'.trackedRecords = dry.trackedRecords)
    (hunmapped : dry'.unmappedTotal id = real'.unmappedTotal id) :
    Rehearses s₀ id run' real' dry' where
  admin := by rw [hadmins.1, hadmins.2, h.admin]
  named := hid
  mode := hmode
  going := by rw [hreal, Function.update_self]
  followed := by rw [hdry, Function.update_self]
  unmapped := hunmapped
  records := hrecords.2.trans h.records
  tracked := htracked.2.trans h.tracked
  added := by
    rw [hrecords.1]
    exact h.added
  finite := by
    rw [hrecords.1]
    exact h.finite
  counted := by
    rw [hrecords.1, hmapped]
    exact h.counted
  grown := by rw [htracked.1, h.grown, hmapped]
  room := by
    rw [htracked.1, hmapped]
    exact h.room

/-- The real run has put one more record into the table. -/
theorem Rehearses.map {record : LegacyRecord} {cursor : Nat} (h : Rehearses s₀ id run real dry)
    (hnone : real.record record.legacyId = none) (hstate : record.state = .mapped)
    (hroom : real.trackedRecords < maxTrackedRecords) :
    Rehearses s₀ id { run with mapped := run.mapped + 1, cursor := cursor }
      (saveRun { saveRecord real record with trackedRecords := real.trackedRecords + 1 }
        { run with mapped := run.mapped + 1, cursor := cursor })
      (saveRun dry { run.rehearsed with cursor := cursor }) := by
  have hnew : s₀.record record.legacyId = none := by
    rcases h.added record.legacyId with hsame | ⟨hnone, _⟩
    · rw [← hsame, hnone]
    · exact hnone
  have hset : {x | Function.update real.record record.legacyId (some record) x ≠ s₀.record x} =
      insert record.legacyId {x | real.record x ≠ s₀.record x} := by
    ext x
    by_cases hx : x = record.legacyId
    · simp [hx, hnew]
    · simp [hx]
  have hfresh : record.legacyId ∉ {x | real.record x ≠ s₀.record x} := by
    simp [hnone, hnew]
  refine ⟨h.admin, h.named, h.mode, ?_, ?_, h.unmapped, h.records, h.tracked, ?_, ?_, ?_, ?_,
    .inr ?_⟩
  · simp [saveRun, h.named]
  · simp [saveRun, MigrationRun.rehearsed, h.named]
  · intro x
    simp only [saveRun, saveRecord]
    by_cases hx : x = record.legacyId
    · rw [hx, Function.update_self]
      exact .inr ⟨hnew, record, rfl, hstate⟩
    · rw [Function.update_of_ne hx]
      exact h.added x
  · simp only [saveRun, saveRecord, hset]
    exact h.finite.insert _
  · simp only [saveRun, saveRecord, hset]
    rw [Set.ncard_insert_of_notMem hfresh h.finite, h.counted]
  · simp only [saveRun, saveRecord]
    rw [h.grown, Nat.add_assoc]
  · exact hroom

end Writes

section Calls

/-- The two stores go on in step: some run of `id` relates them. -/
def InStep (s₀ : State) (id : Nat) (real dry : State) : Prop :=
  ∃ run, Rehearses s₀ id run real dry

/-- A cursor that moves on moves on in both stores. -/
theorem Rehearses.advance {cursor : Nat} (h : Rehearses s₀ id run real dry) :
    Rehearses s₀ id { run with cursor := cursor } (saveRun real { run with cursor := cursor })
      (saveRun dry { run.rehearsed with cursor := cursor }) := by
  have hid := h.named
  refine h.write hid h.mode rfl ?_ ?_ ⟨rfl, rfl⟩ ⟨rfl, rfl⟩ ⟨rfl, rfl⟩ h.unmapped
  · simp [saveRun, hid]
  · simp [saveRun, MigrationRun.rehearsed, hid]

/-- A record that is in the table of only one store is one that the run has mapped. -/
theorem Rehearses.mapped_pos (h : Rehearses s₀ id run real dry) {x : Bytes32}
    (hnew : real.record x ≠ s₀.record x) : 0 < run.mapped := by
  rw [← h.counted]
  exact (Set.ncard_pos h.finite).mpr ⟨x, hnew⟩

/-- The tables differ in the records that the run has mapped, and in no other. -/
theorem Rehearses.answers (h : Rehearses s₀ id run real dry) (x : Bytes32) :
    dry.record x = real.record x ∨ s₀.record x = none ∧ dry.record x = none ∧
      ∃ record, real.record x = some record ∧ record.state = .mapped ∧ 0 < run.mapped := by
  rcases h.added x with hsame | ⟨hnew, record, hrecord, hstate⟩
  · exact .inl (by rw [h.records, hsame])
  · refine .inr ⟨hnew, by rw [h.records, hnew], record, hrecord, hstate, ?_⟩
    apply @Rehearses.mapped_pos s₀ real dry run id h x
    rw [hrecord, hnew]
    exact Option.some_ne_none record

theorem Rehearses.mapNew {legacyId payloadHash program correlation : Bytes32}
    {sourceSystem : Symbol} {submittedAt cursor : Nat} (h : Rehearses s₀ id run real dry)
    (hnone : real.record legacyId = none) (hcursor : run.cursor < cursor)
    (hroom : s₀.trackedRecords < maxTrackedRecords → real.trackedRecords < maxTrackedRecords) :
    Alike (fun after after' => InStep s₀ id after.2 after'.2)
      (mapNew env real run legacyId sourceSystem submittedAt payloadHash program correlation cursor)
      (mapNew env dry run.rehearsed legacyId sourceSystem submittedAt payloadHash program
        correlation cursor) := by
  have hgrown := h.grown
  by_cases hfull : maxTrackedRecords ≤ s₀.trackedRecords
  · have hdry : maxTrackedRecords ≤ dry.trackedRecords := by rwa [h.tracked]
    have hreal : maxTrackedRecords ≤ real.trackedRecords := by omega
    rw [mapNew_full hdry, mapNew_full hreal]
    exact .error _
  · have hreal := hroom (Nat.not_le.mp hfull)
    have hdry : dry.trackedRecords < maxTrackedRecords := by
      rw [h.tracked]
      exact Nat.not_le.mp hfull
    have hfits : run.mapped + 1 < 2^32 := by
      unfold maxTrackedRecords at hreal
      omega
    have hcursor' : run.rehearsed.cursor ≤ cursor := hcursor.le
    rw [mapNew_real hreal h.mode hfits, mapNew_dry hdry rfl hcursor']
    apply Alike.ok
    exact ⟨_, h.map hnone rfl hreal⟩

theorem Rehearses.loadRun (h : Rehearses s₀ id run real dry) :
    loadRun real id = .ok run ∧ loadRun dry id = .ok run.rehearsed := by
  simp [ScholarshipMigration.loadRun, h.going, h.followed]

theorem Rehearses.requireAdmin (h : Rehearses s₀ id run real dry) (operator : Address) :
    requireAdmin dry operator = requireAdmin real operator := by
  rw [ScholarshipMigration.requireAdmin, h.admin, ScholarshipMigration.requireAdmin]

theorem Rehearses.mapRecord {operator : Address} {legacyId payloadHash program correlation : Bytes32}
    {sourceSystem : Symbol} {submittedAt cursor : Nat} (h : Rehearses s₀ id run real dry)
    (hstays : departs s₀ real id ⟨env, .mapRecord operator id legacyId sourceSystem submittedAt
      payloadHash program correlation cursor⟩ = false) :
    Alike (fun after after' => InStep s₀ id after.2 after'.2)
      (mapRecord env real operator id legacyId sourceSystem submittedAt payloadHash program
        correlation cursor)
      (mapRecord env dry operator id legacyId sourceSystem submittedAt payloadHash program
        correlation cursor) := by
  have hgoing := h.going
  unfold ScholarshipMigration.mapRecord
  rw [h.requireAdmin, h.loadRun.1, h.loadRun.2]
  refine .guard _ fun hsigned => .guard _ fun hpermitted => .guard _ fun hcommitted => ?_
  refine .guard _ fun hopen => .guard _ fun hsource => ?_
  simp only [requireAuth_eq_ok, ScholarshipMigration.requireAdmin, requireCommitment, refuseIf_eq_ok, not_not,
    Bool.not_eq_true] at hsigned hpermitted hcommitted hopen hsource
  -- The call has come to the cursor; what is left is whether the tables answer it alike.
  simp only [departs, hgoing, hsigned, hpermitted, hcommitted, hopen, hsource, decide_true,
    Bool.and_self, Bool.not_false, Bool.true_and, ne_eq, not_false_eq_true] at hstays
  have hcursors : run.rehearsed.cursor = run.cursor := rfl
  rw [hcursors]
  by_cases hcursor : cursor ≤ run.cursor
  · rw [if_pos hcursor, if_pos hcursor]
    rcases h.answers legacyId with hsame | ⟨hnew, _, record, hrecord, _, _⟩
    · rw [existingState, existingState, hsame]
      exact .bind (alike_refl _) fun state state' hstate => .ok ⟨run, h⟩
    · simp [hnew, hrecord, hcursor] at hstays
  · have hafter : run.cursor < cursor := Nat.not_le.mp hcursor
    have hafter' : run.rehearsed.cursor ≤ cursor := hafter.le
    rw [if_neg hcursor, if_neg hcursor]
    rcases h.answers legacyId with hsame | ⟨hnew, hdry, record, hrecord, _, hpos⟩
    · rw [hsame]
      cases hrecord : real.record legacyId with
      | some existing =>
        rw [advance_ok hafter.le, advance_ok hafter']
        exact .guard _ fun _ => .ok ⟨_, h.advance⟩
      | none =>
        have hnew : s₀.record legacyId = none := by rw [← h.records, hsame, hrecord]
        apply h.mapNew hrecord hafter
        intro hroom
        simpa [hnew, hrecord, hafter, hroom] using hstays
    · have hsame : record.payloadHash = payloadHash ∧ record.submittedAt = submittedAt := by
        simpa [hnew, hrecord, hcursor] using hstays
      have hroom : dry.trackedRecords < maxTrackedRecords := by
        have hgrown := h.grown
        have hlimit := h.room
        rw [h.tracked]
        omega
      rw [hdry, hrecord, advance_ok hafter.le]
      dsimp only
      rw [mapNew_dry hroom rfl hafter', refuseIf, if_neg (by simp [hsame])]
      exact .ok ⟨_, h.advance⟩

/-- Reported above the cursor, an item is added to the same count. -/
theorem Rehearses.report {legacyId : Bytes32} {cursor : Nat} (h : Rehearses s₀ id run real dry) :
    Rehearses s₀ id { run with cursor := cursor }
      (saveRun (real.reported id legacyId) { run with cursor := cursor })
      (saveRun (dry.reported id legacyId) { run.rehearsed with cursor := cursor }) := by
  have hid := h.named
  refine h.write hid h.mode rfl ?_ ?_ ⟨rfl, rfl⟩ ⟨rfl, rfl⟩ ⟨rfl, rfl⟩ ?_
  · simp [saveRun, State.reported, hid]
  · simp [saveRun, State.reported, MigrationRun.rehearsed, hid]
  · simp [saveRun, State.reported, h.unmapped]

theorem Rehearses.reportUnmapped {operator : Address} {legacyId : Bytes32}
    {reason : UnmappableReason} {cursor : Nat} (h : Rehearses s₀ id run real dry)
    (hstays : departs s₀ real id ⟨env, .reportUnmapped operator id legacyId reason cursor⟩ = false) :
    Alike (InStep s₀ id) (reportUnmapped env real operator id legacyId reason cursor)
      (reportUnmapped env dry operator id legacyId reason cursor) := by
  have hgoing := h.going
  unfold ScholarshipMigration.reportUnmapped
  rw [h.requireAdmin, h.loadRun.1, h.loadRun.2]
  refine .guard _ fun hsigned => .guard _ fun hpermitted => .guard _ fun hopen => ?_
  simp only [requireAuth_eq_ok, ScholarshipMigration.requireAdmin, refuseIf_eq_ok, not_not,
    Bool.not_eq_true] at hsigned hpermitted hopen
  have hcursors : run.rehearsed.cursor = run.cursor := rfl
  rw [hcursors]
  by_cases hcursor : cursor ≤ run.cursor
  · rw [if_pos hcursor, if_pos hcursor]
    exact .ok ⟨run, h⟩
  · have hafter : run.cursor < cursor := Nat.not_le.mp hcursor
    have hsame : dry.record legacyId = real.record legacyId := by
      rcases h.answers legacyId with hsame | ⟨hnew, _, record, hrecord, _⟩
      · exact hsame
      · simp [departs, hgoing, hsigned, hpermitted, hopen, hafter, hnew, hrecord] at hstays
    rw [if_neg hcursor, if_neg hcursor, requireReportable, requireReportable, hsame,
      retainReport_eq, retainReport_eq, h.unmapped]
    refine .guard _ fun _ => ?_
    by_cases hfits : real.unmappedTotal id + 1 < 2^64
    · rw [if_pos hfits, if_pos hfits]
      exact .ok ⟨_, h.report⟩
    · rw [if_neg hfits, if_neg hfits]
      exact .error _

theorem Rehearses.sealRun {operator : Address} (h : Rehearses s₀ id run real dry) :
    Alike (fun after after' => InStep s₀ id after.2 after'.2) (sealRun env real operator id)
      (sealRun env dry operator id) := by
  have hid := h.named
  unfold ScholarshipMigration.sealRun
  rw [h.requireAdmin, h.loadRun.1, h.loadRun.2]
  refine .guard _ fun _ => .guard _ fun _ => ?_
  have hsealed : run.rehearsed.sealed = run.sealed := rfl
  rw [ok_bind, ok_bind, hsealed]
  by_cases hopen : run.sealed = true
  · rw [if_pos hopen, if_pos hopen]
    exact .ok ⟨run, h⟩
  · rw [if_neg hopen, if_neg hopen]
    refine .ok ⟨{ run with sealed := true, sealedAt := env.timestamp }, ?_⟩
    refine h.write hid h.mode rfl ?_ ?_ ⟨rfl, rfl⟩ ⟨rfl, rfl⟩ ⟨rfl, rfl⟩ h.unmapped
    · simp [saveRun, hid]
    · simp [saveRun, MigrationRun.rehearsed, hid]

/-- A call on the run that does not depart meets the same verdict in both stores. -/
theorem InStep.step {i : Input contract} (h : InStep s₀ id real dry)
    (hid : i.call.runId = some id) (hstays : departs s₀ real id i = false) :
    Alike (fun after after' => InStep s₀ id after.2 after'.2) ((machine contract).step real i)
      ((machine contract).step dry i) := by
  obtain ⟨run, h⟩ := h
  obtain ⟨env, call⟩ := i
  cases call with
  | mapRecord =>
    obtain rfl := Option.some.inj hid
    exact (h.mapRecord hstays).map fun _ _ hafter => hafter
  | reportUnmapped =>
    obtain rfl := Option.some.inj hid
    exact (h.reportUnmapped hstays).map fun _ _ hafter => hafter
  | sealRun =>
    obtain rfl := Option.some.inj hid
    exact h.sealRun.map fun _ _ hafter => hafter
  | _ => cases hid

/-- A rehearsal begins wherever a real run does, in step with it. -/
theorem beginRun_rehearses {operator : Address} {sourceSystem : Symbol}
    (h : beginRun env s operator sourceSystem false = .ok (id, real)) :
    ∃ dry, beginRun env s operator sourceSystem true = .ok (id, dry) ∧ InStep s id real dry := by
  obtain ⟨hbegins, rfl⟩ := beginRun_ok.mp h
  refine ⟨s.begun id sourceSystem true env.timestamp, beginRun_ok.mpr ⟨hbegins, rfl⟩,
    ⟨id, sourceSystem, false, 0, 0, false, env.timestamp, 0⟩, ?_⟩
  have hnone : {x | (s.begun id sourceSystem false env.timestamp).record x ≠ s.record x} = ∅ := by
    simp [State.begun, saveRun]
  refine ⟨rfl, rfl, rfl, ?_, ?_, rfl, rfl, rfl, fun _ => .inl rfl, ?_, ?_, rfl, .inl rfl⟩
  · simp [State.begun, saveRun]
  · simp [State.begun, saveRun, MigrationRun.rehearsed]
  · rw [hnone]
    exact Set.finite_empty
  · rw [hnone]
    exact Set.ncard_empty _

end Calls

/-- A dry run is a faithful rehearsal: begun in the state in which a real run begins, and offered the
same calls, it gives every call the real run's verdict and ends with its cursor and its count of
unmapped items, as long as no call departs. It counts no mapped record; the real run counts those it
has written. -/
theorem rehearsal_faithful {operator : Address} {sourceSystem : Symbol}
    (hreal : beginRun env s operator sourceSystem false = .ok (id, real))
    {is : List (Input contract)} (hon : ∀ i ∈ is, i.call.runId = some id)
    (hstays : (machine contract).Along (fun t i => departs s t id i = false) real is) :
    ∃ dry, beginRun env s operator sourceSystem true = .ok (id, dry) ∧
      (machine contract).verdicts real is = (machine contract).verdicts dry is ∧
      ∃ realRun dryRun, ((machine contract).run real is).run id = some realRun ∧
        ((machine contract).run dry is).run id = some dryRun ∧
        dryRun.cursor = realRun.cursor ∧
        ((machine contract).run dry is).unmappedTotal id =
          ((machine contract).run real is).unmappedTotal id ∧
        dryRun.mapped = 0 ∧
        {x | ((machine contract).run real is).record x ≠ s.record x}.Finite ∧
        realRun.mapped = {x | ((machine contract).run real is).record x ≠ s.record x}.ncard := by
  obtain ⟨dry, hdry, hstart⟩ := beginRun_rehearses hreal
  obtain ⟨hverdicts, run, hend⟩ := Machine.run_lockstep
    (fun _ _ _ hs hi => InStep.step hs hi.1 hi.2) hstart (hstays.and hon)
  exact ⟨dry, hdry, hverdicts, run, run.rehearsed, hend.going, hend.followed, rfl, hend.unmapped,
    rfl, hend.finite, hend.counted.symm⟩

section Samples

/-- An offer of legacy record 5 to run 1. -/
def sampleOffer (payloadHash : Bytes32) (cursor : Nat) : Input ⟨0⟩ :=
  ⟨.sample, .mapRecord ⟨1⟩ 1 5 "lms" 3 payloadHash 8 9 cursor⟩

/-- A store in which run 1 is the next to begin. -/
def State.sample : State := { State.empty with admin := some ⟨1⟩, nextRunId := some 1 }

/-- The run of the sample store, begun for real or as a rehearsal. -/
def State.sampleBegun (dryRun : Bool) : State := State.sample.begun 1 "lms" dryRun 10

theorem rehearsal_faithful_sample :
    let calls : List (Input ⟨0⟩) := [sampleOffer 7 1, sampleOffer 7 2,
      ⟨.sample, .reportUnmapped ⟨1⟩ 1 6 .notEligible 3⟩, ⟨.sampleLater, .sealRun ⟨1⟩ 1⟩]
    beginRun Env.sample State.sample ⟨1⟩ "lms" false = .ok (1, State.sampleBegun false) ∧
    ∃ dry, beginRun Env.sample State.sample ⟨1⟩ "lms" true = .ok (1, dry) ∧
      (machine ⟨0⟩).verdicts (State.sampleBegun false) calls = (machine ⟨0⟩).verdicts dry calls := by
  intro calls
  have hbegins : beginRun Env.sample State.sample ⟨1⟩ "lms" false =
      .ok (1, State.sampleBegun false) := beginRun_ok.mpr ⟨by decide, rfl⟩
  have hon : ∀ i ∈ calls, i.call.runId = some 1 := by decide
  obtain ⟨dry, hdry, hverdicts, _⟩ := rehearsal_faithful hbegins hon (by decide)
  exact ⟨hbegins, dry, hdry, hverdicts⟩

/-- A rehearsal counts no mapped record, and it accepts the record of one legacy id with two contents,
of which a real run refuses the second. -/
theorem rehearsal_differs :
    let real := State.sampleBegun false
    let dry := State.sampleBegun true
    beginRun Env.sample State.sample ⟨1⟩ "lms" false = .ok (1, real) ∧
    beginRun Env.sample State.sample ⟨1⟩ "lms" true = .ok (1, dry) ∧
    (((machine ⟨0⟩).run real [sampleOffer 7 1]).run 1).map MigrationRun.mapped = some 1 ∧
    (((machine ⟨0⟩).run dry [sampleOffer 7 1]).run 1).map MigrationRun.mapped = some 0 ∧
    (machine ⟨0⟩).verdicts real [sampleOffer 7 1, sampleOffer 6 2] =
      [none, some (.err .recordConflict)] ∧
    (machine ⟨0⟩).verdicts dry [sampleOffer 7 1, sampleOffer 6 2] = [none, none] := by
  refine ⟨beginRun_ok.mpr ⟨by decide, rfl⟩, beginRun_ok.mpr ⟨by decide, rfl⟩, ?_, ?_, ?_, ?_⟩ <;>
    decide

end Samples

end ChainVerse.ScholarshipMigration
