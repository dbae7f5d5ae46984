import ChainVerse.Framework.Machine
import ChainVerse.Host.Environment
import Mathlib.Logic.Function.Basic

namespace ChainVerse.ScholarshipMigration

/-- Ceiling on legacy records tracked at once. -/
def maxTrackedRecords : Nat := 50000

/-- Ceiling on the unmapped items that a run retains. -/
def maxReportedPerRun : Nat := 1000

/-- Ceiling on concurrent runs. -/
def maxRuns : Nat := 50

inductive ContractError where
  | notInitialized
  | alreadyInitialized
  | notAdmin
  | runNotFound
  | runSealed
  | recordNotFound
  | recordConflict
  | emptyCommitment
  | tooManyRecords
  | tooManyRuns
  | dryRunIsReadOnly
  | tooManyReports
  | cursorRegression
  | counterOverflow
  | notMapped
  deriving DecidableEq, Repr

abbrev Outcome (α : Type) := Except (Abort ContractError) α

inductive UnmappableReason where
  | notEligible
  | noMatchingProgram
  | duplicateInLegacy
  | malformedRecord
  | withdrawnByApplicant
  | outsideRetentionWindow
  deriving DecidableEq, Repr

inductive RecordState where
  | eligible
  | mapped
  | unmappable
  | archived
  deriving DecidableEq, Repr

structure LegacyRecord where
  legacyId : Bytes32
  sourceSystem : Symbol
  submittedAt : Nat
  payloadHash : Bytes32
  program : Bytes32
  state : RecordState
  reason : Nat
  correlation : Bytes32
  mappedAt : Nat
  deriving DecidableEq, Repr

structure MigrationRun where
  id : Nat
  sourceSystem : Symbol
  dryRun : Bool
  /-- The legacy cursor that the run has reached. -/
  cursor : Nat
  mapped : Nat
  sealed : Bool
  startedAt : Nat
  sealedAt : Nat
  deriving DecidableEq, Repr

structure RunSummary where
  id : Nat
  sourceSystem : Symbol
  dryRun : Bool
  cursor : Nat
  mapped : Nat
  unmapped : Nat
  unmappedRetained : Nat
  sealed : Bool
  deriving DecidableEq, Repr

/-- The counters are zero where nothing is stored. -/
structure State where
  admin : Option Address
  nextRunId : Option Nat
  openRuns : Nat
  trackedRecords : Nat
  run : Nat → Option MigrationRun
  record : Bytes32 → Option LegacyRecord
  /-- `Report(run, index)`. -/
  report : Nat × Nat → Option Bytes32
  unmappedTotal : Nat → Nat
  unmappedRetained : Nat → Nat

def State.empty : State where
  admin := none
  nextRunId := none
  openRuns := 0
  trackedRecords := 0
  run := fun _ => none
  record := fun _ => none
  report := fun _ => none
  unmappedTotal := fun _ => 0
  unmappedRetained := fun _ => 0

variable {contract : Address}

section Internals

def requireAdmin (s : State) (account : Address) : Outcome Unit :=
  refuseIf (s.admin ≠ some account) (.err .notAdmin)

def requireCommitment (commitment : Bytes32) : Outcome Unit :=
  refuseIf (commitment = 0) (.err .emptyCommitment)

def loadRun (s : State) (runId : Nat) : Outcome MigrationRun :=
  orRefuse (s.run runId) (.err .runNotFound)

def saveRun (s : State) (run : MigrationRun) : State :=
  { s with run := Function.update s.run run.id (some run) }

def saveRecord (s : State) (record : LegacyRecord) : State :=
  { s with record := Function.update s.record record.legacyId (some record) }

def existingState (s : State) (legacyId : Bytes32) : Outcome RecordState := do
  let record ← orRefuse (s.record legacyId) (.err .notMapped)
  pure record.state

def advance (s : State) (run : MigrationRun) (cursor : Nat) : Outcome State := do
  refuseIf (cursor < run.cursor) (.err .cursorRegression)
  pure (saveRun s { run with cursor := cursor })

def summary (s : State) (run : MigrationRun) : RunSummary where
  id := run.id
  sourceSystem := run.sourceSystem
  dryRun := run.dryRun
  cursor := run.cursor
  mapped := run.mapped
  unmapped := s.unmappedTotal run.id
  unmappedRetained := s.unmappedRetained run.id
  sealed := run.sealed

end Internals

section EntryPoints

def initializeContract (env : Env contract) (s : State) (admin : Address) : Outcome State := do
  refuseIf (s.admin.isSome = true) (.err .alreadyInitialized)
  requireAuth env admin
  pure { s with admin := some admin, nextRunId := some 1, openRuns := 0, trackedRecords := 0 }

def beginRun (env : Env contract) (s : State) (operator : Address) (sourceSystem : Symbol)
    (dryRun : Bool) : Outcome (Nat × State) := do
  requireAuth env operator
  requireAdmin s operator
  refuseIf (maxRuns ≤ s.openRuns) (.err .tooManyRuns)
  let id ← orRefuse s.nextRunId (.err .notInitialized)
  let run : MigrationRun :=
    { id, sourceSystem, dryRun, cursor := 0, mapped := 0, sealed := false
      startedAt := env.timestamp, sealedAt := 0 }
  let s' := saveRun s run
  let next ← orRefuse (fitsU 64 (id + 1)) (.err .counterOverflow)
  let opened ← orRefuse (fitsU 64 (s.openRuns + 1)) (.err .counterOverflow)
  pure (id, { s' with nextRunId := some next, openRuns := opened })

/-- A new record is written to the table, unless the run is a rehearsal. -/
def mapNew (env : Env contract) (s : State) (run : MigrationRun) (legacyId : Bytes32)
    (sourceSystem : Symbol) (submittedAt : Nat) (payloadHash program correlation : Bytes32)
    (legacyCursor : Nat) : Outcome (RecordState × State) := do
  refuseIf (maxTrackedRecords ≤ s.trackedRecords) (.err .tooManyRecords)
  if run.dryRun then
    let s ← advance s run legacyCursor
    pure (.eligible, s)
  else
    let s' := saveRecord s
      { legacyId, sourceSystem, submittedAt, payloadHash, program, state := .mapped, reason := 0
        correlation, mappedAt := env.timestamp }
    let tracked ← orRefuse (fitsU 64 (s.trackedRecords + 1)) (.err .counterOverflow)
    let s' := { s' with trackedRecords := tracked }
    let mapped ← orRefuse (fitsU 32 (run.mapped + 1)) (.err .counterOverflow)
    pure (.mapped, saveRun s' { run with mapped := mapped, cursor := legacyCursor })

def mapRecord (env : Env contract) (s : State) (operator : Address) (runId : Nat)
    (legacyId : Bytes32) (sourceSystem : Symbol) (submittedAt : Nat)
    (payloadHash program correlation : Bytes32) (legacyCursor : Nat) :
    Outcome (RecordState × State) := do
  requireAuth env operator
  requireAdmin s operator
  requireCommitment payloadHash
  let run ← loadRun s runId
  refuseIf (run.sealed = true) (.err .runSealed)
  refuseIf (run.sourceSystem ≠ sourceSystem) (.err .recordConflict)
  if legacyCursor ≤ run.cursor then
    let state ← existingState s legacyId
    pure (state, s)
  else
    match s.record legacyId with
    | some existing =>
      refuseIf (existing.payloadHash ≠ payloadHash ∨ existing.submittedAt ≠ submittedAt)
        (.err .recordConflict)
      let s ← advance s run legacyCursor
      pure (existing.state, s)
    | none =>
      mapNew env s run legacyId sourceSystem submittedAt payloadHash program correlation legacyCursor

/-- A record that has been mapped is not reported as unmapped. -/
def requireReportable (s : State) (legacyId : Bytes32) : Outcome Unit :=
  match s.record legacyId with
  | some existing =>
    refuseIf (existing.state ≠ .eligible ∨ existing.state = .archived) (.err .recordConflict)
  | none => pure ()

/-- The count of unmapped items is exact, the list of them is capped. -/
def retainReport (s : State) (runId : Nat) (legacyId : Bytes32) : Outcome State := do
  let total ← orRefuse (fitsU 64 (s.unmappedTotal runId + 1)) (.err .counterOverflow)
  let s := { s with unmappedTotal := Function.update s.unmappedTotal runId total }
  let retained := s.unmappedRetained runId
  if retained < maxReportedPerRun then
    let s := { s with report := Function.update s.report (runId, retained) (some legacyId) }
    let next ← orRefuse (fitsU 32 (retained + 1)) (.err .counterOverflow)
    pure { s with unmappedRetained := Function.update s.unmappedRetained runId next }
  else
    pure s

def reportUnmapped (env : Env contract) (s : State) (operator : Address) (runId : Nat)
    (legacyId : Bytes32) (_reason : UnmappableReason) (legacyCursor : Nat) : Outcome State := do
  requireAuth env operator
  requireAdmin s operator
  let run ← loadRun s runId
  refuseIf (run.sealed = true) (.err .runSealed)
  if legacyCursor ≤ run.cursor then
    pure s
  else
    requireReportable s legacyId
    let s ← retainReport s runId legacyId
    pure (saveRun s { run with cursor := legacyCursor })

def sealRun (env : Env contract) (s : State) (operator : Address) (runId : Nat) :
    Outcome (RunSummary × State) := do
  requireAuth env operator
  requireAdmin s operator
  let run ← loadRun s runId
  if run.sealed then
    pure (summary s run, s)
  else
    let run := { run with sealed := true, sealedAt := env.timestamp }
    let s := saveRun { s with openRuns := s.openRuns - 1 } run
    pure (summary s run, s)

def archiveRecord (env : Env contract) (s : State) (operator : Address) (legacyId : Bytes32) :
    Outcome State := do
  requireAuth env operator
  requireAdmin s operator
  let record ← orRefuse (s.record legacyId) (.err .recordNotFound)
  refuseIf (record.state ≠ .mapped) (.err .recordConflict)
  let record := { record with state := .archived }
  pure { s with
    record := Function.update s.record legacyId (some record)
    trackedRecords := s.trackedRecords - 1 }

end EntryPoints

/-- The state-changing entry points. -/
inductive Call where
  | initializeContract (admin : Address)
  | beginRun (operator : Address) (sourceSystem : Symbol) (dryRun : Bool)
  | mapRecord (operator : Address) (runId : Nat) (legacyId : Bytes32) (sourceSystem : Symbol)
      (submittedAt : Nat) (payloadHash program correlation : Bytes32) (legacyCursor : Nat)
  | reportUnmapped (operator : Address) (runId : Nat) (legacyId : Bytes32)
      (reason : UnmappableReason) (legacyCursor : Nat)
  | sealRun (operator : Address) (runId : Nat)
  | archiveRecord (operator : Address) (legacyId : Bytes32)
  deriving DecidableEq, Repr

inductive Response where
  | unit
  | runId (id : Nat)
  | state (state : RecordState)
  | summary (summary : RunSummary)
  deriving DecidableEq, Repr

structure Input (contract : Address) where
  env : Env contract
  call : Call

/-- One entry point applied to the state. -/
def execute (env : Env contract) (s : State) : Call → Outcome (Response × State)
  | .initializeContract admin => (.unit, ·) <$> initializeContract env s admin
  | .beginRun operator sourceSystem dryRun =>
    Prod.map .runId id <$> beginRun env s operator sourceSystem dryRun
  | .mapRecord operator runId legacyId sourceSystem submittedAt payloadHash program correlation
      legacyCursor =>
    Prod.map .state id <$> mapRecord env s operator runId legacyId sourceSystem submittedAt
      payloadHash program correlation legacyCursor
  | .reportUnmapped operator runId legacyId reason legacyCursor =>
    (.unit, ·) <$> reportUnmapped env s operator runId legacyId reason legacyCursor
  | .sealRun operator runId => Prod.map .summary id <$> sealRun env s operator runId
  | .archiveRecord operator legacyId => (.unit, ·) <$> archiveRecord env s operator legacyId

def machine (contract : Address) :
    Machine State (Input contract) Response (Abort ContractError) where
  step s i := execute i.env s i.call

end ChainVerse.ScholarshipMigration
