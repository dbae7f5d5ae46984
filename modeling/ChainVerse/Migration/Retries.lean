import ChainVerse.Migration.Records

namespace ChainVerse.ScholarshipMigration

variable {contract : Address} {env env' : Env contract} {s s' t : State} {call : Call}
  {operator : Address} {runId submittedAt cursor : Nat} {sourceSystem : Symbol}
  {legacyId payloadHash program correlation : Bytes32} {state answer : RecordState}

section States

/-- A stored record has been mapped, and it may have been archived since. -/
def Landed (s : State) : Prop :=
  ∀ x record, s.record x = some record → record.state = .mapped ∨ record.state = .archived

theorem Effect.landed (h : Effect env s call s') (hs : Landed s) : Landed s' := by
  cases h with
  | appoint | beginRun | idle | pass | report | sealRun => exact hs
  | map _ _ _ _ _ _ _ hmapped => exact forall_update_row hs rfl (.inl hmapped)
  | archive => exact forall_update_row hs rfl (.inr rfl)

theorem run_landed (is : List (Input contract)) : Landed ((machine contract).run State.empty is) := by
  apply Machine.run_invariant
  · intro x record hstored
    cases hstored
  · intro s i o s' hs h
    exact (step_effect h).landed hs

theorem Effect.admin {admin : Address} (h : Effect env s call s') (hs : s.admin = some admin) :
    s'.admin = some admin := by
  cases h with
  | appoint habsent =>
    rw [habsent] at hs
    cases hs
  | beginRun | idle | pass | map | report | sealRun | archive => exact hs

/-- The record of the legacy id is archived. -/
def Archived (x : Bytes32) (s : State) : Prop :=
  ∃ record, s.record x = some record ∧ record.state = .archived

/-- The call archives the record of the legacy id. -/
def Step.Archives (x : Bytes32) (e : Step contract) : Prop :=
  ∃ operator, e.input.call = .archiveRecord operator x

/-- What a call does to the record of a legacy id that has one. -/
theorem Effect.rewrites {x : Bytes32} {record : LegacyRecord} (h : Effect env s call s')
    (hstored : s.record x = some record) :
    s'.record x = some record ∨
      (∃ operator, call = .archiveRecord operator x) ∧ record.state = .mapped ∧ Archived x s' := by
  cases h with
  | appoint | beginRun | idle | pass | report | sealRun => exact .inl hstored
  | map _ _ _ _ _ _ hnew => exact .inl (update_keeps_row hnew hstored)
  | @archive operator y row _ hfound hmapped =>
    by_cases hx : x = y
    · subst hx
      rw [hstored, Option.some.injEq] at hfound
      subst hfound
      exact .inr ⟨⟨operator, rfl⟩, hmapped, _, Function.update_self _ _ _, rfl⟩
    · left
      exact (Function.update_of_ne hx _ _).trans hstored

theorem Effect.archived {x : Bytes32} (h : Effect env s call s') (hs : Archived x s) :
    Archived x s' := by
  obtain ⟨record, hstored, harchived⟩ := hs
  rcases h.rewrites hstored with hkept | ⟨_, hmapped, _⟩
  · exact ⟨record, hkept, harchived⟩
  · rw [harchived] at hmapped
    cases hmapped

/-- An accepted call that archives a record finds it mapped. -/
theorem Step.Archives.turns {x : Bytes32} {e : Step contract} (h : e.Archives x)
    (hstep : (machine contract).step e.pre e.input = .ok (e.output, e.post)) :
    (∃ record, e.pre.record x = some record ∧ record.state = .mapped) ∧ Archived x e.post := by
  obtain ⟨pre, ⟨env, call⟩, o, post⟩ := e
  obtain ⟨operator, rfl⟩ := h
  simp only [machine, execute, map_eq_ok, archiveRecord, bind_eq_ok, exists_unit, refuseIf_eq_ok,
    orRefuse_eq_ok, not_not, pure_eq_ok, Prod.mk.injEq] at hstep
  obtain ⟨_, ⟨_, _, record, hstored, hmapped, rfl⟩, _, rfl⟩ := hstep
  exact ⟨⟨record, hstored, hmapped⟩, _, Function.update_self _ _ _, rfl⟩

/-- Along a run the state of a stored record changes exactly when the record is archived. -/
theorem run_state_iff {x : Bytes32} {record : LegacyRecord} (js : List (Input contract))
    (hstored : s.record x = some record) :
    ((machine contract).run s js).record x = some record ↔
      ∀ e ∈ (machine contract).journal s js, ¬ Step.Archives x e := by
  have hstays : ∀ {t : State} (ks : List (Input contract)), Archived x t →
      Archived x ((machine contract).run t ks) := fun ks h =>
    Machine.run_invariant h (fun _ _ _ _ hs hstep => (step_effect hstep).archived hs) ks
  constructor
  · intro hkept e he harchives
    obtain ⟨hstep, ks, _, hpre⟩ := Machine.journal_step he
    obtain ⟨⟨found, hfound, hmapped⟩, hpost⟩ := harchives.turns hstep
    -- The record was not archived before the call, and it is at the end of the run.
    have hbefore : record.state ≠ .archived := by
      intro harchived
      obtain ⟨row, hrow, hstate⟩ := hstays ks ⟨record, hstored, harchived⟩
      rw [← hpre, hfound, Option.some.injEq] at hrow
      rw [← hrow, hmapped] at hstate
      cases hstate
    obtain ⟨ls, hls⟩ := Machine.journal_rest he
    obtain ⟨row, hrow, hstate⟩ := hstays ls hpost
    rw [← hls, hkept, Option.some.injEq] at hrow
    rw [hrow] at hbefore
    exact hbefore hstate
  · intro hnone
    by_contra hchanged
    obtain ⟨e, he, hpre, hpost⟩ := Machine.exists_turn
      (P := fun t : State => t.record x ≠ some record) (not_not.mpr hstored) hchanged
    rw [not_not] at hpre
    rcases (step_effect (Machine.journal_step he).1).rewrites hpre with hkept | ⟨harchives, _⟩
    · exact hpost hkept
    · exact hnone e he harchives

end States

section Repeats

/-- The call finds a record of the legacy id, or it is on a real run and writes one. -/
def Recorded (s : State) (runId : Nat) (legacyId : Bytes32) : Prop :=
  s.record legacyId ≠ none ∨ ∃ run, s.run runId = some run ∧ run.dryRun = false

/-- The record that answers a call is stored with the state that the call returns. -/
def Answers (s : State) (legacyId : Bytes32) (answer : RecordState) : Prop :=
  ∃ record, s.record legacyId = some record ∧ record.state = answer

/-- What a call of `map_record` leaves for its repetition. -/
structure Offered (s : State) (operator : Address) (runId : Nat) (sourceSystem : Symbol)
    (payloadHash : Bytes32) (cursor : Nat) : Prop where
  admin : s.admin = some operator
  commitment : payloadHash ≠ 0
  run : ∃ run, s.run runId = some run ∧ run.sealed = false ∧ run.sourceSystem = sourceSystem ∧
    cursor ≤ run.cursor

/-- A record at or before the cursor is answered from the table. -/
theorem Offered.mapRecord (h : Offered s operator runId sourceSystem payloadHash cursor)
    (hsigned : env.signers operator = true) :
    mapRecord env s operator runId legacyId sourceSystem submittedAt payloadHash program correlation
      cursor = .ok (answer, t) ↔ Answers s legacyId answer ∧ s = t := by
  obtain ⟨run, hfound, hopened, hsource, hcursor⟩ := h.run
  simp only [ScholarshipMigration.mapRecord, requireAdmin, requireCommitment, loadRun, existingState,
    bind_eq_ok, exists_unit, requireAuth_eq_ok, refuseIf_eq_ok, orRefuse_eq_ok, hfound, hsigned,
    h.admin, h.commitment, hopened, hsource, not_not, Option.some.injEq, exists_eq_left',
    Bool.false_eq_true, not_false_eq_true, true_and, if_pos hcursor, pure_eq_ok, Prod.mk.injEq]
  constructor
  · rintro ⟨_, ⟨record, hstored, rfl⟩, rfl, rfl⟩
    exact ⟨⟨record, hstored, rfl⟩, rfl⟩
  · rintro ⟨⟨record, hstored, hstate⟩, rfl⟩
    exact ⟨answer, ⟨record, hstored, hstate⟩, rfl, rfl⟩

/-- What a new record leaves: the run at its cursor, and the record unless the run is a rehearsal. -/
theorem mapNew_offered {run : MigrationRun} (hkeyed : run.id = runId)
    (h : mapNew env s run legacyId sourceSystem submittedAt payloadHash program correlation cursor =
      .ok (answer, s')) :
    s'.admin = s.admin ∧ s'.run runId = some { run with
        mapped := if run.dryRun then run.mapped else run.mapped + 1, cursor := cursor } ∧
      (run.dryRun = false → Answers s' legacyId answer) ∧
      (run.dryRun = true → answer = .eligible) := by
  subst hkeyed
  cases hmode : run.dryRun with
  | true =>
    simp only [mapNew, hmode, if_true, bind_eq_ok, refuseIf_eq_ok, exists_unit, advance_eq_ok,
      pure_eq_ok, Prod.mk.injEq] at h
    obtain ⟨_, _, ⟨_, rfl⟩, rfl, rfl⟩ := h
    refine ⟨rfl, ?_, ?_, ?_⟩
    · simp [saveRun]
    · intro hreal
      cases hreal
    · intro _
      rfl
  | false =>
    simp only [mapNew, hmode, Bool.false_eq_true, if_false, bind_eq_ok, refuseIf_eq_ok, exists_unit,
      orRefuse_eq_ok, fitsU_eq_some, pure_eq_ok, Prod.mk.injEq] at h
    obtain ⟨_, _, ⟨_, rfl⟩, _, ⟨_, rfl⟩, rfl, rfl⟩ := h
    refine ⟨rfl, ?_, ?_, ?_⟩
    · simp [saveRun]
    · intro _
      exact ⟨_, Function.update_self _ _ _, rfl⟩
    · intro hdry
      cases hdry

/-- An accepted call leaves what its repetition needs, and where it has found or written a record it
returns the state of that record. -/
theorem mapRecord_offered (hkeyed : ∀ r run, s.run r = some run → run.id = r)
    (h : mapRecord env s operator runId legacyId sourceSystem submittedAt payloadHash program
      correlation cursor = .ok (answer, s')) :
    Offered s' operator runId sourceSystem payloadHash cursor ∧
      (Recorded s runId legacyId → Answers s' legacyId answer) ∧
      (¬ Recorded s runId legacyId → answer = .eligible) := by
  simp only [mapRecord, requireAdmin, requireCommitment, bind_eq_ok, exists_unit, loadRun,
    requireAuth_eq_ok, orRefuse_eq_ok, refuseIf_eq_ok, Bool.not_eq_true, not_not] at h
  obtain ⟨_, hadmin, hcommitment, run, hfound, hopened, hsource, h⟩ := h
  have hid := hkeyed runId run hfound
  by_cases hcursor : cursor ≤ run.cursor
  · rw [if_pos hcursor] at h
    simp only [existingState, bind_eq_ok, orRefuse_eq_ok, pure_eq_ok, Prod.mk.injEq] at h
    obtain ⟨_, ⟨record, hstored, rfl⟩, rfl, rfl⟩ := h
    refine ⟨⟨hadmin, hcommitment, run, hfound, hopened, hsource, hcursor⟩, ?_, ?_⟩
    · intro _
      exact ⟨record, hstored, rfl⟩
    · intro hunrecorded
      exact absurd (.inl (by rw [hstored]; exact Option.some_ne_none _)) hunrecorded
  · rw [if_neg hcursor] at h
    cases hrecord : s.record legacyId with
    | some existing =>
      simp only [hrecord, bind_eq_ok, refuseIf_eq_ok, exists_unit, advance_eq_ok, pure_eq_ok,
        Prod.mk.injEq] at h
      obtain ⟨_, _, ⟨_, rfl⟩, rfl, rfl⟩ := h
      refine ⟨⟨hadmin, hcommitment, { run with cursor := cursor }, ?_, hopened, hsource, le_rfl⟩, ?_,
        ?_⟩
      · rw [← hid]
        exact Function.update_self _ _ _
      · intro _
        exact ⟨existing, hrecord, rfl⟩
      · intro hunrecorded
        exact absurd (.inl (by rw [hrecord]; exact Option.some_ne_none _)) hunrecorded
    | none =>
      rw [hrecord] at h
      obtain ⟨hsame, hrun, hreal, hdry⟩ := mapNew_offered hid h
      refine ⟨⟨hsame.trans hadmin, hcommitment, _, hrun, hopened, hsource, le_rfl⟩, ?_, ?_⟩
      · rintro (hstored | ⟨row, hrow, hmode⟩)
        · exact absurd hrecord hstored
        · rw [hfound, Option.some.injEq] at hrow
          exact hreal (hrow ▸ hmode)
      · intro hunrecorded
        apply hdry
        by_contra hmode
        exact hunrecorded (.inr ⟨run, hfound, Bool.not_eq_true _ ▸ hmode⟩)

/-- An accepted call goes on with the run that has led to it. -/
theorem run_mapRecord {is : List (Input contract)}
    (h : mapRecord env ((machine contract).run State.empty is) operator runId legacyId sourceSystem
      submittedAt payloadHash program correlation cursor = .ok (answer, s')) :
    (machine contract).run State.empty (is ++ [⟨env, .mapRecord operator runId legacyId sourceSystem
      submittedAt payloadHash program correlation cursor⟩]) = s' := by
  have hstep : (machine contract).step ((machine contract).run State.empty is)
      ⟨env, .mapRecord operator runId legacyId sourceSystem submittedAt payloadHash program
        correlation cursor⟩ = .ok (.state answer, s') := map_eq_ok.mpr ⟨_, h, rfl⟩
  rw [Machine.run_append, Machine.run_cons, Machine.run_nil, Machine.next_ok _ hstep]

/-- A record goes on answering with its state as long as nobody archives it. -/
theorem run_answers_iff (is js : List (Input contract))
    (hanswers : Answers ((machine contract).run State.empty is) legacyId answer) :
    Answers ((machine contract).run State.empty (is ++ js)) legacyId answer ↔
      ∀ e ∈ (machine contract).journal ((machine contract).run State.empty is) js,
        ¬ Step.Archives legacyId e := by
  obtain ⟨record, hstored, hstate⟩ := hanswers
  rw [← run_state_iff js hstored, Machine.run_append]
  constructor
  · rintro ⟨later, hlater, hsame⟩
    -- Of a record only the state ever changes.
    obtain ⟨changed, hchanged⟩ :=
      (run_continues (run_booked is) js).records legacyId record hstored
    rw [hchanged, Option.some.injEq] at hlater
    rw [← hlater] at hsame
    rw [hchanged, show changed = record.state from hsame.trans hstate.symm]
  · intro hkept
    exact ⟨record, hkept, hstate⟩

theorem run_not_eligible (is : List (Input contract)) :
    ¬ Answers ((machine contract).run State.empty is) legacyId .eligible := by
  rintro ⟨record, hstored, hstate⟩
  have hstates := run_landed is legacyId record hstored
  rw [hstate] at hstates
  rcases hstates with hmapped | harchived
  · cases hmapped
  · cases harchived

/-- With nothing of the run's later progress in between, the repetition of an accepted call returns the
same state and changes nothing exactly when the call has found or written a record and nobody has
archived it since. -/
theorem repeat_unchanged_iff (is js : List (Input contract)) {s' : State}
    (h : mapRecord env ((machine contract).run State.empty is) operator runId legacyId sourceSystem
      submittedAt payloadHash program correlation cursor = .ok (answer, s'))
    (hsigned : env'.signers operator = true)
    (hrun : ((machine contract).run s' js).run runId = s'.run runId) :
    mapRecord env' ((machine contract).run s' js) operator runId legacyId sourceSystem submittedAt
        payloadHash program correlation cursor = .ok (answer, (machine contract).run s' js) ↔
      Recorded ((machine contract).run State.empty is) runId legacyId ∧
        ∀ e ∈ (machine contract).journal s' js, ¬ Step.Archives legacyId e := by
  obtain ⟨hoffered, hrecorded, hunrecorded⟩ := mapRecord_offered (run_booked is).runs.keyed h
  have hagain : Offered ((machine contract).run s' js) operator runId sourceSystem payloadHash
      cursor := by
    refine ⟨?_, hoffered.commitment, ?_⟩
    · exact @Machine.run_invariant _ _ _ _ (machine contract) (fun t => t.admin = some operator) _
        hoffered.admin (fun _ _ _ _ hs hstep => (step_effect hstep).admin hs) js
    · rw [hrun]
      exact hoffered.run
  rw [hagain.mapRecord hsigned, and_iff_left rfl]
  have hs' := run_mapRecord h
  by_cases hfound : Recorded ((machine contract).run State.empty is) runId legacyId
  · have hlater := run_answers_iff _ js (hs' ▸ hrecorded hfound)
    rw [Machine.run_append, hs'] at hlater
    rw [and_iff_right hfound, hlater]
  · refine iff_of_false ?_ fun hboth => hfound hboth.1
    rw [hunrecorded hfound, ← hs', ← Machine.run_append]
    exact run_not_eligible _

/-- Run 1 has begun, for real or as a rehearsal. -/
def sampleBegin (dryRun : Bool) : List (Input ⟨0⟩) :=
  [⟨.sample, .initializeContract ⟨1⟩⟩, ⟨.sample, .beginRun ⟨1⟩ "lms" dryRun⟩]

theorem repeat_unchanged_sample :
    let s := (machine ⟨0⟩).run State.empty (sampleBegin false)
    ∃ s', mapRecord Env.sample s ⟨1⟩ 1 5 "lms" 3 7 8 9 1 = .ok (.mapped, s') ∧
      mapRecord Env.sampleLater s' ⟨1⟩ 1 5 "lms" 3 7 8 9 1 = .ok (.mapped, s') := by
  intro s
  obtain ⟨s', h⟩ : ∃ s', mapRecord Env.sample s ⟨1⟩ 1 5 "lms" 3 7 8 9 1 = .ok (.mapped, s') :=
    ⟨_, rfl⟩
  refine ⟨s', h, (repeat_unchanged_iff (sampleBegin false) [] h rfl rfl).mpr ⟨?_, ?_⟩⟩
  · exact .inr ⟨_, rfl, rfl⟩
  · intro e he
    cases he

/-- A rehearsal stores nothing by which it could recognise the repetition. -/
theorem rehearsal_refuses_repeat :
    let s := (machine ⟨0⟩).run State.empty (sampleBegin true)
    ∃ s', mapRecord Env.sample s ⟨1⟩ 1 5 "lms" 3 7 8 9 1 = .ok (.eligible, s') ∧
      mapRecord Env.sample s' ⟨1⟩ 1 5 "lms" 3 7 8 9 1 = .error (.err .notMapped) :=
  ⟨_, rfl, rfl⟩

end Repeats

section Conflicts

variable {run : MigrationRun} {record : LegacyRecord}

/-- A call of `map_record` for a stored record, on an open run, is refused as a conflict exactly when
the admin makes it with a commitment, and it names another system than the run's, or it comes after the
run's cursor with another payload or submission time than the record's. -/
theorem mapRecord_conflict_iff (hstored : s.record legacyId = some record)
    (hfound : s.run runId = some run) (hopened : run.sealed = false) :
    mapRecord env s operator runId legacyId sourceSystem submittedAt payloadHash program correlation
        cursor = .error (.err .recordConflict) ↔
      env.signers operator = true ∧ s.admin = some operator ∧ payloadHash ≠ 0 ∧
        (run.sourceSystem ≠ sourceSystem ∨ run.cursor < cursor ∧
          (record.payloadHash ≠ payloadHash ∨ record.submittedAt ≠ submittedAt)) := by
  simp only [mapRecord, requireAdmin, requireCommitment, loadRun, bind_eq_error, exists_unit,
    requireAuth_eq_error, requireAuth_eq_ok, refuseIf_eq_error, refuseIf_eq_ok, orRefuse_eq_error,
    orRefuse_eq_ok, hfound, hopened, Abort.err.injEq, reduceCtorEq, and_false, false_or,
    Option.some.injEq, exists_eq_left', Bool.false_eq_true, not_false_eq_true, true_and, not_not,
    and_true]
  by_cases hcursor : cursor ≤ run.cursor
  · simp [if_pos hcursor, existingState, hstored, hcursor.not_gt, -bind_eq_error]
  · by_cases hdiffers : record.payloadHash ≠ payloadHash ∨ record.submittedAt ≠ submittedAt
    · simp [hcursor, hstored, hdiffers, refuseIf, not_le.mp hcursor, em']
    · simp only [if_neg hcursor, hstored, hdiffers, advance, bind_eq_error, refuseIf_eq_error,
        refuseIf_eq_ok, Abort.err.injEq, reduceCtorEq, pure_ne_error, and_false, exists_false, or_false,
        false_and, ne_eq]

/-- For a stored record, on an open run and with a commitment, the admin's call is refused as a conflict
if it names another system than the run's or differs from the record after the run's cursor, and it is
answered from the record at or before the cursor. -/
theorem mapRecord_conflicts (hsigned : env.signers operator = true) (hadmin : s.admin = some operator)
    (hpayload : payloadHash ≠ 0) (hstored : s.record legacyId = some record)
    (hfound : s.run runId = some run) (hopened : run.sealed = false) :
    ((run.sourceSystem ≠ sourceSystem ∨ run.cursor < cursor ∧
        (record.payloadHash ≠ payloadHash ∨ record.submittedAt ≠ submittedAt)) →
      mapRecord env s operator runId legacyId sourceSystem submittedAt payloadHash program correlation
        cursor = .error (.err .recordConflict)) ∧
      (run.sourceSystem = sourceSystem → cursor ≤ run.cursor →
        mapRecord env s operator runId legacyId sourceSystem submittedAt payloadHash program correlation
          cursor = .ok (record.state, s)) := by
  constructor
  · intro hdiffers
    exact (mapRecord_conflict_iff hstored hfound hopened).mpr ⟨hsigned, hadmin, hpayload, hdiffers⟩
  · intro hsource hcursor
    have hoffered : Offered s operator runId sourceSystem payloadHash cursor :=
      ⟨hadmin, hpayload, run, hfound, hopened, hsource, hcursor⟩
    exact (hoffered.mapRecord hsigned).mpr ⟨⟨record, hstored, rfl⟩, rfl⟩

/-- The run of `sampleBegin` after the record of the legacy id 5 was mapped at cursor 1. -/
def sampleMapped : List (Input ⟨0⟩) :=
  sampleBegin false ++ [⟨.sample, .mapRecord ⟨1⟩ 1 5 "lms" 3 7 8 9 1⟩]

theorem mapRecord_conflicts_sample :
    mapRecord Env.sample ((machine ⟨0⟩).run State.empty sampleMapped) ⟨1⟩ 1 5 "lms" 3 6 8 9 2 =
      .error (.err .recordConflict) :=
  (mapRecord_conflicts rfl rfl (by decide) rfl rfl rfl).1 (.inr ⟨by decide, .inl (by decide)⟩)

/-- Another payload at the cursor, and another program and correlation after it, are answered as if
they were the record's. -/
theorem mapRecord_conflict_missed :
    let s := (machine ⟨0⟩).run State.empty sampleMapped
    mapRecord Env.sample s ⟨1⟩ 1 5 "lms" 4 6 8 9 1 = .ok (.mapped, s) ∧
      ∃ s', mapRecord Env.sample s ⟨1⟩ 1 5 "lms" 3 7 1 2 2 = .ok (.mapped, s') :=
  ⟨rfl, _, rfl⟩

end Conflicts

end ChainVerse.ScholarshipMigration
