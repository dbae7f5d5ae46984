import ChainVerse.Library.Contract

namespace ChainVerse.LibraryRights

variable {contract : Address} {crypto : Crypto} {env : Env contract} {s s' : State}
variable {caller : Address}

section Governance

theorem requireRole_eq_ok {role : Role} {u : Unit} :
    requireRole env s role caller = .ok u ↔
      s.governance.role role = some caller ∧ env.signers caller = true := by
  simp only [requireRole, getRole, bind_eq_ok, orRefuse_eq_ok, refuseIf_eq_ok, exists_unit, not_not,
    requireAuth_eq_ok]
  constructor
  · rintro ⟨holder, hholder, rfl, hsigned⟩
    exact ⟨hholder, hsigned⟩
  · intro h
    exact ⟨caller, h.1, rfl, h.2⟩

/-- Who holds each role after bootstrap. -/
def firstHolders (admin treasury policyManager emergency librarian : Address) : Role → Address
  | .admin => admin
  | .treasury => treasury
  | .policyManager => policyManager
  | .emergency => emergency
  | .librarian => librarian

theorem firstHolders_injective {admin treasury policyManager emergency librarian : Address}
    (h : [admin, treasury, policyManager, emergency, librarian].Nodup) :
    Function.Injective (firstHolders admin treasury policyManager emergency librarian) := by
  intro role role' hsame
  cases role <;> cases role' <;> simp_all [firstHolders]

end Governance

section Governing

/-- Everything that an accepted governing call can do. -/
inductive Governs (env : Env contract) (crypto : Crypto) (s : State) :
    GovernCall → Answer → State → Prop where
  | bootstrap {admin treasury policyManager emergency librarian : Address}
      (holders : Role → Address) (first : s.governance.role .admin = none)
      (distinct : holders.Injective) :
      Governs env crypto s (.bootstrap admin treasury policyManager emergency librarian) .none
        { s with
          governance := { s.governance with role := fun role => some (holders role) }
          migration := { s.migration with schemaVersion := initialSchemaVersion } }
  | pause {caller : Address} {reasonHash : Bytes32} (record : PauseRecord) :
      Governs env crypto s (.pauseLibrary caller reasonHash) .none { s with pause := some record }
  | unpause {caller : Address} {reasonHash : Bytes32} :
      Governs env crypto s (.unpauseLibrary caller reasonHash) .none { s with pause := none }
  | begins {caller : Address} {targetVersion : Nat}
      (admin : s.governance.role .admin = some caller) (idle : isMigrating s = false) :
      Governs env crypto s (.beginMigration caller targetVersion) .none (setMigration s
        { fromVersion := s.migration.schemaVersion, targetVersion := s.migration.schemaVersion + 1
          stepsDone := 0, totalSteps := migrationSteps, phase := .migrating })
  | noBatch {caller : Address} {limit : Nat} {o : Answer} :
      Governs env crypto s (.migrateBatch caller limit) o s
  | batch {caller : Address} {limit : Nat} {o : Answer} (st : MigrationState) (batch : Nat)
      (admin : s.governance.role .admin = some caller)
      (state : s.migration.state = some st) (phase : st.phase = .migrating)
      (within : batch ≤ st.totalSteps - st.stepsDone) :
      Governs env crypto s (.migrateBatch caller limit) o
        (setMigration s { st with stepsDone := st.stepsDone + batch })
  | finalize {caller : Address} (st : MigrationState)
      (admin : s.governance.role .admin = some caller) (state : s.migration.state = some st)
      (phase : st.phase = .migrating) (complete : st.totalSteps ≤ st.stepsDone) :
      Governs env crypto s (.finalizeMigration caller) .none { s with migration :=
        { schemaVersion := st.targetVersion
          state := some
            { fromVersion := st.targetVersion, targetVersion := st.targetVersion, stepsDone := 0
              totalSteps := st.totalSteps, phase := .idle }
          logCount := s.migration.logCount + 1
          log := Function.update s.migration.log (s.migration.logCount + 1) (some
            { fromVersion := st.fromVersion, targetVersion := st.targetVersion
              completedAt := env.timestamp, ranBy := caller }) } }
  | queue {caller : Address} {action : GovernedAction} {eta : Nat} (id : Bytes32)
      (admin : s.governance.role .admin = some caller)
      (hashed : id = crypto.sha256
        (changeSalt crypto caller action eta env.timestamp (s.timelock.counter + 1)))
      (fits : s.timelock.counter + 1 < 2^64)
      (delay : env.timestamp + (timelockConfig s.timelock).minDelay ≤ eta)
      (room : s.timelock.pendingIds.length < maxQueuedChanges)
      (single : alreadyQueued s.timelock caller action = false) :
      Governs env crypto s (.queueChange caller action eta) (.id id)
        { s with timelock := { s.timelock with
          counter := s.timelock.counter + 1
          queuedChange := Function.update s.timelock.queuedChange id (some
            { changeId := id, action, proposer := caller, queuedAt := env.timestamp, eta
              executed := false, cancelled := false })
          pendingIds := s.timelock.pendingIds ++ [id] } }
  | cancel {caller : Address} {id : Bytes32} (change : QueuedChange)
      (found : s.timelock.queuedChange id = some change) (executed : change.executed = false)
      (cancelled : change.cancelled = false) :
      Governs env crypto s (.cancelChange caller id) .none { s with timelock := { s.timelock with
        queuedChange := Function.update s.timelock.queuedChange id
          (some { change with cancelled := true })
        pendingIds := s.timelock.pendingIds.filter fun x => x ≠ id } }
  | execute {caller : Address} {id : Bytes32} (change : QueuedChange) (t : State)
      (found : s.timelock.queuedChange id = some change) (executed : change.executed = false)
      (cancelled : change.cancelled = false) (ripe : change.eta ≤ env.timestamp)
      (dispatched : dispatch env s caller change.action = .ok t) :
      Governs env crypto s (.executeChange caller id) .none { s with
        governance := t.governance
        timelock := { s.timelock with
          config := t.timelock.config
          queuedChange := Function.update s.timelock.queuedChange id
            (some { change with executed := true })
          executed := Function.update s.timelock.executed id true
          pendingIds := s.timelock.pendingIds.filter fun x => x ≠ id } }
  | repoint {caller courseRegistryId : Address} (admin : s.governance.role .admin = some caller) :
      Governs env crypto s (.setCourseRegistry caller courseRegistryId) .none
        { s with governance := { s.governance with courseRegistry := some courseRegistryId } }

theorem bootstrap_spec {admin treasury policyManager emergency librarian : Address}
    (h : bootstrap env s admin treasury policyManager emergency librarian = .ok s') :
    Governs env crypto s (.bootstrap admin treasury policyManager emergency librarian) .none s' := by
  simp only [bootstrap, bind_eq_ok, refuseIf_eq_ok, exists_unit, pure_eq_ok, not_not,
    Bool.not_eq_true, Option.isSome_eq_false_iff, Option.isNone_iff_eq_none] at h
  obtain ⟨hfirst, hdistinct, _, _, _, _, _, rfl⟩ := h
  have hroles : (setRole (setRole (setRole (setRole (setRole s .admin admin) .treasury treasury)
      .policyManager policyManager) .emergency emergency) .librarian librarian).governance.role =
        fun role => some (firstHolders admin treasury policyManager emergency librarian role) := by
    funext role
    cases role <;> rfl
  simp only [setRole] at hroles ⊢
  rw [hroles]
  exact .bootstrap _ hfirst (firstHolders_injective hdistinct)

theorem beginMigration_spec {targetVersion : Nat}
    (h : beginMigration env s caller targetVersion = .ok s') :
    Governs env crypto s (.beginMigration caller targetVersion) .none s' := by
  simp only [beginMigration, bind_eq_ok, refuseIf_eq_ok, orRefuse_eq_ok, fitsU_eq_some, exists_unit,
    pure_eq_ok, not_not, Bool.not_eq_true] at h
  obtain ⟨hadmin, hidle, _, next, ⟨_, rfl⟩, rfl, rfl⟩ := h
  exact .begins (requireRole_eq_ok.mp hadmin).1 hidle

/-- Steps from the cursor on always run. -/
theorem runSteps_eq (st : MigrationState) (batch : Nat) :
    runSteps st batch = .ok { st with stepsDone := st.stepsDone + batch } := by
  induction batch generalizing st with
  | zero => rfl
  | succ batch ih =>
    have hstep : runStep st st.stepsDone = .ok () := by
      rw [runStep, refuseIf_eq_ok]
      exact not_not_intro rfl
    rw [runSteps, hstep, ok_bind, ih, Nat.add_assoc, Nat.add_comm 1]

theorem migrateBatch_spec {limit : Nat} {result : Nat × Bool} {o : Answer}
    (h : migrateBatch env s caller limit = .ok (result, s')) :
    Governs env crypto s (.migrateBatch caller limit) o s' := by
  simp only [migrateBatch, bind_eq_ok, exists_unit] at h
  obtain ⟨hadmin, h⟩ := h
  cases hstate : s.migration.state with
  | none =>
    simp only [hstate, pure_eq_ok, Prod.mk.injEq] at h
    obtain ⟨_, rfl⟩ := h
    exact .noBatch
  | some st =>
    simp only [hstate] at h
    split_ifs at h with hphase
    · simp only [runSteps_eq, ok_bind, pure_eq_ok, Prod.mk.injEq] at h
      obtain ⟨_, rfl⟩ := h
      exact .batch st _ (requireRole_eq_ok.mp hadmin).1 hstate hphase (Nat.min_le_right _ _)
    · simp only [pure_eq_ok, Prod.mk.injEq] at h
      obtain ⟨_, rfl⟩ := h
      exact .noBatch

theorem finalizeMigration_spec (h : finalizeMigration env s caller = .ok s') :
    Governs env crypto s (.finalizeMigration caller) .none s' := by
  simp only [finalizeMigration, bind_eq_ok, refuseIf_eq_ok, orRefuse_eq_ok, fitsU_eq_some,
    exists_unit, pure_eq_ok, not_not, not_lt] at h
  obtain ⟨hadmin, st, hstate, hphase, hdone, idx, ⟨_, rfl⟩, rfl⟩ := h
  exact .finalize st (requireRole_eq_ok.mp hadmin).1 hstate hphase hdone

theorem queueChange_spec {action : GovernedAction} {eta : Nat} {id : Bytes32}
    (h : queueChange env crypto s caller action eta = .ok (id, s')) :
    Governs env crypto s (.queueChange caller action eta) (.id id) s' := by
  simp only [queueChange, bind_eq_ok, refuseIf_eq_ok, orRefuse_eq_ok, exists_unit, pure_eq_ok,
    fitsU_eq_some, Prod.mk.injEq, not_or, not_lt, not_le, Bool.not_eq_true] at h
  obtain ⟨hadmin, minAcceptable, ⟨_, rfl⟩, maxAcceptable, _, ⟨hdelay, _⟩, hroom, hsingle, seq,
    ⟨hfits, rfl⟩, rfl, rfl⟩ := h
  exact .queue _ (requireRole_eq_ok.mp hadmin).1 rfl hfits hdelay hroom hsingle

theorem cancelChange_spec {id : Bytes32} (h : cancelChange env s caller id = .ok s') :
    Governs env crypto s (.cancelChange caller id) .none s' := by
  simp only [cancelChange, bind_eq_ok, refuseIf_eq_ok, orRefuse_eq_ok, exists_unit, pure_eq_ok,
    Bool.not_eq_true] at h
  obtain ⟨change, hfound, _, _, hexecuted, hcancelled, rfl⟩ := h
  exact .cancel change hfound hexecuted hcancelled

/-- An executed action writes the settings, or the window of the timelock. -/
theorem dispatch_frame {action : GovernedAction} (h : dispatch env s caller action = .ok s') :
    ∃ governance config,
      s' = { s with governance := governance, timelock := { s.timelock with config := config } } := by
  cases action with
  | transferRole role recipient =>
    simp only [dispatch] at h
    split_ifs at h
    · obtain rfl := pure_eq_ok.mp h
      exact ⟨_, _, rfl⟩
    · simp only [bind_eq_ok, exists_unit, pure_eq_ok] at h
      obtain ⟨_, rfl⟩ := h
      exact ⟨_, _, rfl⟩
  | updateCourseRegistry registry =>
    obtain rfl := pure_eq_ok.mp h
    exact ⟨_, _, rfl⟩
  | updateTimelockConfig minDelay maxDelay =>
    simp only [dispatch, validateAndStoreConfig, bind_eq_ok, exists_unit, pure_eq_ok] at h
    obtain ⟨_, ⟨_, rfl⟩, rfl⟩ := h
    exact ⟨_, _, rfl⟩

theorem dispatch_transfer {role : Role} {recipient : Address}
    (h : dispatch env s caller (.transferRole role recipient) = .ok s') :
    s'.governance.role = Function.update s.governance.role role (some recipient) := by
  simp only [dispatch] at h
  split_ifs at h with hholds
  · obtain rfl := pure_eq_ok.mp h
    rw [← hholds, Function.update_eq_self]
  · simp only [bind_eq_ok, exists_unit, pure_eq_ok] at h
    obtain ⟨_, rfl⟩ := h
    rfl

theorem dispatch_other {action : GovernedAction}
    (haction : ∀ role recipient, action ≠ .transferRole role recipient)
    (h : dispatch env s caller action = .ok s') : s'.governance.role = s.governance.role := by
  cases action with
  | transferRole role recipient => exact absurd rfl (haction role recipient)
  | updateCourseRegistry registry =>
    obtain rfl := pure_eq_ok.mp h
    rfl
  | updateTimelockConfig minDelay maxDelay =>
    simp only [dispatch, bind_eq_ok, pure_eq_ok] at h
    obtain ⟨_, _, rfl⟩ := h
    rfl

theorem executeChange_spec {id : Bytes32} (h : executeChange env s caller id = .ok s') :
    Governs env crypto s (.executeChange caller id) .none s' := by
  simp only [executeChange, bind_eq_ok, refuseIf_eq_ok, orRefuse_eq_ok, exists_unit, pure_eq_ok,
    not_or, Bool.not_eq_true, not_lt] at h
  obtain ⟨_, change, hfound, ⟨hexecuted, _⟩, hcancelled, hripe, t, hdispatch, rfl⟩ := h
  have hexecute : Governs env crypto s (.executeChange caller id) .none _ :=
    .execute change t hfound hexecuted hcancelled hripe hdispatch
  obtain ⟨governance, config, rfl⟩ := dispatch_frame hdispatch
  exact hexecute

theorem govern_spec {call : GovernCall} {o : Answer} (h : govern env crypto s call = .ok (o, s')) :
    Governs env crypto s call o s' := by
  cases call with
  | bootstrap =>
    simp only [govern, map_eq_ok, silent, Prod.mk.injEq] at h
    obtain ⟨t, hcall, rfl, rfl⟩ := h
    exact bootstrap_spec hcall
  | pauseLibrary =>
    simp only [govern, pauseLibrary, map_eq_ok, silent, Prod.mk.injEq, bind_eq_ok, exists_unit,
      pure_eq_ok] at h
    obtain ⟨t, ⟨_, _, _, _, rfl⟩, rfl, rfl⟩ := h
    exact .pause _
  | unpauseLibrary =>
    simp only [govern, unpauseLibrary, map_eq_ok, silent, Prod.mk.injEq, bind_eq_ok, exists_unit,
      pure_eq_ok] at h
    obtain ⟨t, ⟨_, _, _, rfl⟩, rfl, rfl⟩ := h
    exact .unpause
  | beginMigration =>
    simp only [govern, map_eq_ok, silent, Prod.mk.injEq] at h
    obtain ⟨t, hcall, rfl, rfl⟩ := h
    exact beginMigration_spec hcall
  | migrateBatch =>
    simp only [govern, map_eq_ok, Prod.mk.injEq] at h
    obtain ⟨⟨result, t⟩, hcall, rfl, rfl⟩ := h
    exact migrateBatch_spec hcall
  | finalizeMigration =>
    simp only [govern, map_eq_ok, silent, Prod.mk.injEq] at h
    obtain ⟨t, hcall, rfl, rfl⟩ := h
    exact finalizeMigration_spec hcall
  | queueChange =>
    simp only [govern, map_eq_ok, withId, Prod.mk.injEq] at h
    obtain ⟨⟨id, t⟩, hcall, rfl, rfl⟩ := h
    exact queueChange_spec hcall
  | cancelChange =>
    simp only [govern, map_eq_ok, silent, Prod.mk.injEq] at h
    obtain ⟨t, hcall, rfl, rfl⟩ := h
    exact cancelChange_spec hcall
  | executeChange =>
    simp only [govern, map_eq_ok, silent, Prod.mk.injEq] at h
    obtain ⟨t, hcall, rfl, rfl⟩ := h
    exact executeChange_spec hcall
  | setCourseRegistry =>
    simp only [govern, setCourseRegistry, map_eq_ok, silent, Prod.mk.injEq, bind_eq_ok, exists_unit,
      pure_eq_ok] at h
    obtain ⟨t, ⟨_, hadmin, rfl⟩, rfl, rfl⟩ := h
    exact .repoint (requireRole_eq_ok.mp hadmin).1

/-- A governing call leaves the lending, the catalog and the services. -/
theorem Governs.frame {call : GovernCall} {o : Answer} (h : Governs env crypto s call o s') :
    s'.lending = s.lending ∧ s'.catalog = s.catalog ∧ s'.services = s.services := by
  cases h <;> exact ⟨rfl, rfl, rfl⟩

end Governing

end ChainVerse.LibraryRights
