import ChainVerse.Library.Types

namespace ChainVerse.LibraryRights

variable {contract : Address}

section Governance

def getRole (s : State) (role : Role) : Outcome Address :=
  orRefuse (s.governance.role role) (.err .notInitialized)

/-- The holder is looked up before the signature is asked for. -/
def requireRole (env : Env contract) (s : State) (role : Role) (caller : Address) :
    Outcome Unit := do
  let holder ← getRole s role
  refuseIf (holder ≠ caller) (.err .notAdmin)
  requireAuth env caller

/-- `has_role`, which is false where nobody holds the role. -/
def hasRole (s : State) (role : Role) (caller : Address) : Bool :=
  s.governance.role role = some caller

def setRole (s : State) (role : Role) (holder : Address) : State :=
  { s with
    governance := { s.governance with
      role := Function.update s.governance.role role (some holder) } }

/-- `keys::SCHEMA_VERSION`. -/
def initialSchemaVersion : Nat := 2

/-- Nobody may be given two roles. -/
def bootstrap (env : Env contract) (s : State)
    (admin treasury policyManager emergency librarian : Address) : Outcome State := do
  refuseIf ((s.governance.role .admin).isSome = true) (.err .alreadyInitialized)
  refuseIf (¬[admin, treasury, policyManager, emergency, librarian].Nodup) (.err .duplicateRole)
  requireAuth env admin
  requireAuth env treasury
  requireAuth env policyManager
  requireAuth env emergency
  requireAuth env librarian
  let s := setRole s .admin admin
  let s := setRole s .treasury treasury
  let s := setRole s .policyManager policyManager
  let s := setRole s .emergency emergency
  let s := setRole s .librarian librarian
  pure { s with migration := { s.migration with schemaVersion := initialSchemaVersion } }

end Governance

section Pausing

def ensureActive (s : State) : Outcome Unit := refuseIf (s.pause.isSome = true) (.err .paused)

def pauseLibrary (env : Env contract) (s : State) (caller : Address) (reasonHash : Bytes32) :
    Outcome State := do
  refuseIf (hasRole s .admin caller = false ∧ hasRole s .emergency caller = false) (.err .notAdmin)
  requireAuth env caller
  refuseIf (reasonHash = 0) (.err .invalidHash)
  refuseIf (s.pause.isSome = true) (.err .alreadyPaused)
  pure { s with
    pause := some { pausedAt := env.timestamp, pausedBy := caller, pauseReason := reasonHash } }

def unpauseLibrary (env : Env contract) (s : State) (caller : Address) (reasonHash : Bytes32) :
    Outcome State := do
  requireRole env s .admin caller
  refuseIf (reasonHash = 0) (.err .invalidHash)
  refuseIf (s.pause.isNone = true) (.err .notPaused)
  pure { s with pause := none }

end Pausing

section Migrating

def migrationSteps : Nat := 3
def maxMigrationBatch : Nat := 32

def isMigrating (s : State) : Bool :=
  match s.migration.state with
  | some st => st.phase = .migrating
  | none => false

def ensureWritable (s : State) : Outcome Unit :=
  refuseIf (isMigrating s = true) (.err .migrationInProgress)

def setMigration (s : State) (st : MigrationState) : State :=
  { s with migration := { s.migration with state := some st } }

def beginMigration (env : Env contract) (s : State) (caller : Address) (targetVersion : Nat) :
    Outcome State := do
  requireRole env s .admin caller
  refuseIf (isMigrating s = true) (.err .migrationInProgress)
  let fromVersion := s.migration.schemaVersion
  refuseIf (targetVersion = fromVersion) (.err .migrationAlreadyComplete)
  let next ← orRefuse (fitsU 32 (fromVersion + 1)) .overflow
  refuseIf (targetVersion ≠ next) (.err .migrationVersionSkip)
  pure (setMigration s
    { fromVersion, targetVersion, stepsDone := 0, totalSteps := migrationSteps, phase := .migrating })

/-- A step runs only at the cursor. -/
def runStep (st : MigrationState) (stepIndex : Nat) : Outcome Unit :=
  refuseIf (stepIndex ≠ st.stepsDone) (.err .migrationVersionSkip)

/-- The `for` loop over the steps of a batch. -/
def runSteps (st : MigrationState) : Nat → Outcome MigrationState
  | 0 => pure st
  | batch + 1 => do
    let stepIndex := st.stepsDone
    runStep st stepIndex
    runSteps { st with stepsDone := st.stepsDone + 1 } batch

def migrateBatch (env : Env contract) (s : State) (caller : Address) (limit : Nat) :
    Outcome ((Nat × Bool) × State) := do
  requireRole env s .admin caller
  match s.migration.state with
  | some st =>
    if st.phase = .migrating then
      let batch := min (min limit maxMigrationBatch) (st.totalSteps - st.stepsDone)
      let st ← runSteps st batch
      pure ((batch, decide (st.totalSteps ≤ st.stepsDone)), setMigration s st)
    else pure ((0, false), s)
  | none => pure ((0, false), s)

def finalizeMigration (env : Env contract) (s : State) (caller : Address) : Outcome State := do
  requireRole env s .admin caller
  let st ← orRefuse s.migration.state (.err .migrationNotStarted)
  refuseIf (st.phase ≠ .migrating) (.err .migrationAlreadyComplete)
  refuseIf (st.stepsDone < st.totalSteps) (.err .migrationNotReady)
  let idx ← orRefuse (fitsU 64 (s.migration.logCount + 1)) .overflow
  let migration : Migration :=
    { schemaVersion := st.targetVersion
      state := some
        { fromVersion := st.targetVersion, targetVersion := st.targetVersion, stepsDone := 0
          totalSteps := st.totalSteps, phase := .idle }
      logCount := idx
      log := Function.update s.migration.log idx (some
        { fromVersion := st.fromVersion, targetVersion := st.targetVersion
          completedAt := env.timestamp, ranBy := caller }) }
  pure { s with migration := migration }

end Migrating

section Timelocks

/-- One hour and 180 days. -/
def timelockMinBound : Nat := 60 * 60
def timelockMaxBound : Nat := 180 * 24 * 60 * 60

/-- 7 and 30 days. -/
def defaultMinDelay : Nat := 7 * 24 * 60 * 60
def defaultMaxDelay : Nat := 30 * 24 * 60 * 60

def maxQueuedChanges : Nat := 64

def timelockConfig (t : Timelock) : TimelockConfig :=
  t.config.getD { minDelay := defaultMinDelay, maxDelay := defaultMaxDelay }

def roleTag : Role → List Byte
  | .admin => beBytes 4 1
  | .treasury => beBytes 4 2
  | .policyManager => beBytes 4 3
  | .emergency => beBytes 4 4
  | .librarian => beBytes 4 5

def actionSalt (crypto : Crypto) : GovernedAction → List Byte
  | .transferRole role recipient => [1] ++ roleTag role ++ crypto.addressXdr recipient
  | .updateCourseRegistry registry => [2] ++ crypto.addressXdr registry
  | .updateTimelockConfig minDelay maxDelay => [3] ++ beBytes 8 minDelay ++ beBytes 8 maxDelay

/-- The bytes whose hash is the id of a change: everything about it, and its number last. -/
def changeSalt (crypto : Crypto) (caller : Address) (action : GovernedAction)
    (eta queuedAt seq : Nat) : List Byte :=
  crypto.addressXdr caller ++ actionSalt crypto action ++ beBytes 8 eta ++ beBytes 8 queuedAt ++
    beBytes 8 seq

def removeFromPending (t : Timelock) (changeId : Bytes32) : Timelock :=
  { t with pendingIds := t.pendingIds.filter fun id => id ≠ changeId }

def validateAndStoreConfig (t : Timelock) (minDelay maxDelay : Nat) : Outcome Timelock := do
  refuseIf (minDelay < timelockMinBound ∨ timelockMaxBound < maxDelay ∨ maxDelay < minDelay)
    (.err .timelockConfigInvalid)
  pure { t with config := some { minDelay, maxDelay } }

/-- Some pending change is a proposer's own for the same action. -/
def alreadyQueued (t : Timelock) (caller : Address) (action : GovernedAction) : Bool :=
  t.pendingIds.any fun id =>
    match t.queuedChange id with
    | some change => change.proposer = caller ∧ change.action = action ∧ change.cancelled = false
    | none => false

def queueChange (env : Env contract) (crypto : Crypto) (s : State) (caller : Address)
    (action : GovernedAction) (eta : Nat) : Outcome (Bytes32 × State) := do
  requireRole env s .admin caller
  let t := s.timelock
  let cfg := timelockConfig t
  let now := env.timestamp
  let minAcceptable ← orRefuse (fitsU 64 (now + cfg.minDelay)) (.err .invalidTimestamp)
  let maxAcceptable ← orRefuse (fitsU 64 (now + cfg.maxDelay)) (.err .invalidTimestamp)
  refuseIf (eta < minAcceptable ∨ maxAcceptable < eta) (.err .timelockEtaInvalid)
  refuseIf (maxQueuedChanges ≤ t.pendingIds.length) (.err .timelockQueueFull)
  refuseIf (alreadyQueued t caller action = true) (.err .timelockAlreadyQueued)
  let seq ← orRefuse (fitsU 64 (t.counter + 1)) (.err .overflow)
  let changeId := crypto.sha256 (changeSalt crypto caller action eta now seq)
  let change : QueuedChange :=
    { changeId, action, proposer := caller, queuedAt := now, eta, executed := false
      cancelled := false }
  pure (changeId, { s with
    timelock := { t with
      counter := seq
      queuedChange := Function.update t.queuedChange changeId (some change)
      pendingIds := t.pendingIds ++ [changeId] } })

def cancelChange (env : Env contract) (s : State) (caller : Address) (changeId : Bytes32) :
    Outcome State := do
  let t := s.timelock
  let change ← orRefuse (t.queuedChange changeId) (.err .timelockNotFound)
  refuseIf (caller ≠ change.proposer ∧ hasRole s .admin caller = false) (.err .notAdmin)
  requireAuth env caller
  refuseIf (change.executed = true) (.err .timelockAlreadyExecuted)
  refuseIf (change.cancelled = true) (.err .timelockCancelled)
  let t := { t with
    queuedChange := Function.update t.queuedChange changeId
      (some { change with cancelled := true }) }
  pure { s with timelock := removeFromPending t changeId }

/-- A role is transferred with the consent of its new holder, who may hold another one, and who may be
the caller, authenticated before in this frame. -/
def dispatch (env : Env contract) (s : State) (caller : Address) : GovernedAction → Outcome State
  | .transferRole role recipient =>
    if s.governance.role role = some recipient then pure s
    else do
      requireAuthAfter env caller recipient
      pure (setRole s role recipient)
  | .updateCourseRegistry registry =>
    pure { s with governance := { s.governance with courseRegistry := some registry } }
  | .updateTimelockConfig minDelay maxDelay => do
    let timelock ← validateAndStoreConfig s.timelock minDelay maxDelay
    pure { s with timelock := timelock }

def executeChange (env : Env contract) (s : State) (caller : Address) (changeId : Bytes32) :
    Outcome State := do
  requireAuth env caller
  let change ← orRefuse (s.timelock.queuedChange changeId) (.err .timelockNotFound)
  refuseIf (change.executed = true ∨ s.timelock.executed changeId = true)
    (.err .timelockAlreadyExecuted)
  refuseIf (change.cancelled = true) (.err .timelockCancelled)
  refuseIf (env.timestamp < change.eta) (.err .timelockNotReady)
  let s ← dispatch env s caller change.action
  let t := { s.timelock with
    queuedChange := Function.update s.timelock.queuedChange changeId
      (some { change with executed := true })
    executed := Function.update s.timelock.executed changeId true }
  pure { s with timelock := removeFromPending t changeId }

end Timelocks

/-- The administrator may also set the registry at once. -/
def setCourseRegistry (env : Env contract) (s : State) (caller courseRegistryId : Address) :
    Outcome State := do
  ensureActive s
  requireRole env s .admin caller
  pure { s with governance := { s.governance with courseRegistry := some courseRegistryId } }

end ChainVerse.LibraryRights
