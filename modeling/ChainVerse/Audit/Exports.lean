import ChainVerse.Framework.Histories
import ChainVerse.Framework.Machine
import ChainVerse.Framework.Tables
import ChainVerse.Host.Bytes

namespace ChainVerse.ScholarshipAuditExports

def contractVersion : Nat := 1

def maxExportsPerProgram : Nat := 64

inductive ContractError where
  | notInitialized
  | alreadyInitialized
  | notAdmin
  | programNotFound
  | programAlreadyExists
  | notProgramSponsor
  | unauthorized
  | invalidPeriod
  | invalidEvidenceHash
  | exportIdConflict
  | exportNotFound
  | exportLimitReached
  | counterOverflow
  deriving DecidableEq, Repr

abbrev Outcome (α : Type) := Except (Abort ContractError) α

structure Program where
  sponsor : Address
  deriving DecidableEq

structure EvidenceHashes where
  governance : Bytes32
  decisions : Bytes32
  consent : Bytes32
  funds : Bytes32
  payments : Bytes32
  deriving DecidableEq

structure AuditExport where
  exportId : Bytes32
  programId : Bytes32
  periodStart : Nat
  periodEnd : Nat
  generatedAt : Nat
  generatedBy : Address
  schemaVersion : Nat
  packageHash : Bytes32
  sourceCheckpointHash : Bytes32
  evidenceHashes : EvidenceHashes
  deriving DecidableEq

/-- The contract's storage; exports stand under their program and their id. -/
structure State where
  admin : Option Address
  program : Bytes32 → Option Program
  regulator : Bytes32 × Address → Option Bool
  stored : Bytes32 × Bytes32 → Option AuditExport
  /-- Zero where nothing is stored. -/
  exportCount : Bytes32 → Nat

def State.empty : State where
  admin := none
  program := fun _ => none
  regulator := fun _ => none
  stored := fun _ => none
  exportCount := fun _ => 0

variable {contract : Address}

section Helpers

def admin (s : State) : Outcome Address := orRefuse s.admin (.err .notInitialized)

def requireAdmin (env : Env contract) (s : State) (caller : Address) : Outcome Unit := do
  let configured ← admin s
  refuseIf (configured ≠ caller) (.err .notAdmin)
  requireAuth env caller

/-- The sponsor of the program or the administrator; the latter is looked up only for somebody else. -/
def requireSponsorOrAdmin (s : State) (program : Program) (caller : Address) (e : ContractError) :
    Outcome Unit :=
  if caller = program.sponsor then pure ()
  else do
    let configured ← admin s
    refuseIf (caller ≠ configured) (.err e)

def sameExportInputs (existing proposed : AuditExport) : Bool :=
  existing.exportId = proposed.exportId ∧ existing.programId = proposed.programId ∧
    existing.periodStart = proposed.periodStart ∧ existing.periodEnd = proposed.periodEnd ∧
    existing.generatedBy = proposed.generatedBy ∧ existing.schemaVersion = proposed.schemaVersion ∧
    existing.packageHash = proposed.packageHash ∧
    existing.sourceCheckpointHash = proposed.sourceCheckpointHash ∧
    existing.evidenceHashes = proposed.evidenceHashes

def validHashes (packageHash checkpointHash : Bytes32) (hashes : EvidenceHashes) : Bool :=
  packageHash ≠ 0 ∧ checkpointHash ≠ 0 ∧ hashes.governance ≠ 0 ∧ hashes.decisions ≠ 0 ∧
    hashes.consent ≠ 0 ∧ hashes.funds ≠ 0 ∧ hashes.payments ≠ 0

end Helpers

section EntryPoints

def initializeContract (env : Env contract) (s : State) (admin : Address) : Outcome State := do
  refuseIf (s.admin ≠ none) (.err .alreadyInitialized)
  requireAuth env admin
  pure { s with admin := some admin }

def registerProgram (env : Env contract) (s : State) (admin : Address) (programId : Bytes32)
    (sponsor : Address) : Outcome State := do
  requireAdmin env s admin
  refuseIf (s.program programId ≠ none) (.err .programAlreadyExists)
  pure { s with program := Function.update s.program programId (some { sponsor }) }

/-- What `grant_regulator` and `revoke_regulator` share. -/
def setRegulator (env : Env contract) (s : State) (caller : Address) (programId : Bytes32)
    (regulator : Address) (access : Bool) : Outcome State := do
  let program ← orRefuse (s.program programId) (.err .programNotFound)
  requireSponsorOrAdmin s program caller .unauthorized
  requireAuth env caller
  pure { s with regulator := Function.update s.regulator (programId, regulator) (some access) }

def grantRegulator (env : Env contract) (s : State) (caller : Address) (programId : Bytes32)
    (regulator : Address) : Outcome State :=
  setRegulator env s caller programId regulator true

def revokeRegulator (env : Env contract) (s : State) (caller : Address) (programId : Bytes32)
    (regulator : Address) : Outcome State :=
  setRegulator env s caller programId regulator false

def publishExport (env : Env contract) (s : State) (caller : Address) (exportId programId : Bytes32)
    (periodStart periodEnd : Nat) (packageHash sourceCheckpointHash : Bytes32)
    (evidenceHashes : EvidenceHashes) : Outcome State := do
  let program ← orRefuse (s.program programId) (.err .programNotFound)
  requireSponsorOrAdmin s program caller .notProgramSponsor
  requireAuth env caller
  refuseIf (periodEnd < periodStart ∨ env.timestamp < periodEnd) (.err .invalidPeriod)
  refuseIf (validHashes packageHash sourceCheckpointHash evidenceHashes = false)
    (.err .invalidEvidenceHash)
  let record : AuditExport :=
    { exportId, programId, periodStart, periodEnd, generatedAt := env.timestamp, generatedBy := caller,
      schemaVersion := contractVersion, packageHash, sourceCheckpointHash, evidenceHashes }
  match s.stored (programId, exportId) with
  | some existing =>
    -- An exact retry succeeds and writes nothing.
    refuseIf (sameExportInputs existing record = false) (.err .exportIdConflict)
    pure s
  | none =>
    let count := s.exportCount programId
    refuseIf (maxExportsPerProgram ≤ count) (.err .exportLimitReached)
    let nextCount ← orRefuse (fitsU 32 (count + 1)) (.err .counterOverflow)
    pure { s with
      stored := Function.update s.stored (programId, exportId) (some record)
      exportCount := Function.update s.exportCount programId nextCount }

def getExport (env : Env contract) (s : State) (caller : Address) (programId exportId : Bytes32) :
    Outcome AuditExport := do
  requireAuth env caller
  let program ← orRefuse (s.program programId) (.err .programNotFound)
  let configured ← admin s
  let isRegulator := (s.regulator (programId, caller)).getD false
  refuseIf (caller ≠ configured ∧ caller ≠ program.sponsor ∧ isRegulator = false) (.err .unauthorized)
  orRefuse (s.stored (programId, exportId)) (.err .exportNotFound)

end EntryPoints

/-- The entry points that need somebody's signature. -/
inductive Call where
  | initializeContract (admin : Address)
  | registerProgram (admin : Address) (programId : Bytes32) (sponsor : Address)
  | grantRegulator (caller : Address) (programId : Bytes32) (regulator : Address)
  | revokeRegulator (caller : Address) (programId : Bytes32) (regulator : Address)
  | publishExport (caller : Address) (exportId programId : Bytes32) (periodStart periodEnd : Nat)
      (packageHash sourceCheckpointHash : Bytes32) (evidenceHashes : EvidenceHashes)
  | getExport (caller : Address) (programId exportId : Bytes32)
  deriving DecidableEq

structure Input (contract : Address) where
  env : Env contract
  call : Call

/-- What an entry point returns. -/
inductive Answer where
  | done
  | found (record : AuditExport)
  deriving DecidableEq

/-- One entry point applied to the state. -/
def execute (env : Env contract) (s : State) : Call → Outcome (Answer × State)
  | .initializeContract admin => (.done, ·) <$> initializeContract env s admin
  | .registerProgram admin programId sponsor =>
    (.done, ·) <$> registerProgram env s admin programId sponsor
  | .grantRegulator caller programId regulator =>
    (.done, ·) <$> grantRegulator env s caller programId regulator
  | .revokeRegulator caller programId regulator =>
    (.done, ·) <$> revokeRegulator env s caller programId regulator
  | .publishExport caller exportId programId periodStart periodEnd packageHash sourceCheckpointHash
      evidenceHashes =>
    (.done, ·) <$> publishExport env s caller exportId programId periodStart periodEnd packageHash
      sourceCheckpointHash evidenceHashes
  | .getExport caller programId exportId =>
    (fun record => (.found record, s)) <$> getExport env s caller programId exportId

def machine (contract : Address) : Machine State (Input contract) Answer (Abort ContractError) where
  step s i := execute i.env s i.call

section Steps

variable {env : Env contract} {s s' : State} {call : Call} {o : Answer}

/-- An accepted call of a run, with the stores around it. -/
abbrev Step (contract : Address) := Entry State (Input contract) Answer

/-- The sponsor of the program or the administrator. -/
def Allowed (s : State) (program : Program) (caller : Address) : Prop :=
  caller = program.sponsor ∨ s.admin = some caller

/-- A period that has ended when the export is made, and no blank commitment. -/
structure AuditExport.Sound (r : AuditExport) : Prop where
  period : r.periodStart ≤ r.periodEnd
  ended : r.periodEnd ≤ r.generatedAt
  version : r.schemaVersion = contractVersion
  hashes : validHashes r.packageHash r.sourceCheckpointHash r.evidenceHashes = true

/-- Where the export is stored, and the call that publishes it. -/
def AuditExport.key (r : AuditExport) : Bytes32 × Bytes32 := (r.programId, r.exportId)

def AuditExport.publishedBy (r : AuditExport) : Call :=
  .publishExport r.generatedBy r.exportId r.programId r.periodStart r.periodEnd r.packageHash
    r.sourceCheckpointHash r.evidenceHashes

/-- The access that a call sets: the program, the regulator, and whether it is given. -/
def Call.regulates : Call → Option ((Bytes32 × Address) × Bool)
  | .grantRegulator _ programId regulator => some ((programId, regulator), true)
  | .revokeRegulator _ programId regulator => some ((programId, regulator), false)
  | _ => none

/-- Where the export that a call publishes is stored. -/
def Call.publishes : Call → Option (Bytes32 × Bytes32)
  | .publishExport _ exportId programId _ _ _ _ _ => some (programId, exportId)
  | _ => none

def Call.caller : Call → Address
  | .initializeContract caller | .registerProgram caller _ _ | .grantRegulator caller _ _
  | .revokeRegulator caller _ _ | .publishExport caller _ _ _ _ _ _ _ | .getExport caller _ _ => caller

/-- Everything an accepted call can have done. -/
inductive Effect (env : Env contract) (s : State) : Call → Answer → State → Prop where
  | initialized (admin : Address) (vacant : s.admin = none) :
      Effect env s (.initializeContract admin) .done { s with admin := some admin }
  | registered (admin : Address) (programId : Bytes32) (sponsor : Address)
      (vacant : s.program programId = none) : Effect env s (.registerProgram admin programId sponsor) .done
        { s with program := Function.update s.program programId (some { sponsor }) }
  | regulated (call : Call) (key : Bytes32 × Address) (access : Bool) (program : Program)
      (named : call.regulates = some (key, access)) (found : s.program key.1 = some program)
      (allowed : Allowed s program call.caller) :
      Effect env s call .done { s with regulator := Function.update s.regulator key (some access) }
  | published (r : AuditExport) (program : Program) (found : s.program r.programId = some program)
      (allowed : Allowed s program r.generatedBy) (sound : r.Sound) (now : r.generatedAt = env.timestamp)
      (vacant : s.stored r.key = none) (room : s.exportCount r.programId < maxExportsPerProgram) :
      Effect env s r.publishedBy .done { s with
        stored := Function.update s.stored r.key (some r)
        exportCount := Function.update s.exportCount r.programId (s.exportCount r.programId + 1) }
  | retried (r : AuditExport) (found : s.stored r.key = some r) : Effect env s r.publishedBy .done s
  | read (caller : Address) (key : Bytes32 × Bytes32) (program : Program) (r : AuditExport)
      (found : s.program key.1 = some program)
      (allowed : Allowed s program caller ∨ s.regulator (key.1, caller) = some true)
      (stored : s.stored key = some r) : Effect env s (.getExport caller key.1 key.2) (.found r) s

theorem requireSponsorOrAdmin_eq_ok {program : Program} {caller : Address} {e : ContractError} {u : Unit} :
    requireSponsorOrAdmin s program caller e = .ok u ↔ Allowed s program caller := by
  unfold requireSponsorOrAdmin Allowed
  by_cases hsponsor : caller = program.sponsor
  · simp [hsponsor]
  · rw [if_neg hsponsor]
    simp only [admin, bind_eq_ok, orRefuse_eq_ok, refuseIf_eq_ok, not_not, hsponsor, false_or]
    constructor
    · rintro ⟨configured, hconfigured, rfl⟩
      exact hconfigured
    · intro hconfigured
      exact ⟨caller, hconfigured, rfl⟩

theorem setRegulator_effect {caller : Address} {key : Bytes32 × Address} {access : Bool}
    (hnamed : call.regulates = some (key, access)) (hcaller : call.caller = caller)
    (h : setRegulator env s caller key.1 key.2 access = .ok s') : Effect env s call .done s' := by
  simp only [setRegulator, bind_eq_ok, exists_unit, orRefuse_eq_ok, requireSponsorOrAdmin_eq_ok,
    pure_eq_ok] at h
  obtain ⟨program, hfound, hallowed, _, rfl⟩ := h
  exact .regulated call key access program hnamed hfound (hcaller ▸ hallowed)

theorem publishExport_effect {caller : Address} {exportId programId : Bytes32}
    {periodStart periodEnd : Nat} {packageHash sourceCheckpointHash : Bytes32}
    {evidenceHashes : EvidenceHashes}
    (h : publishExport env s caller exportId programId periodStart periodEnd packageHash
      sourceCheckpointHash evidenceHashes = .ok s') :
    Effect env s (.publishExport caller exportId programId periodStart periodEnd packageHash
      sourceCheckpointHash evidenceHashes) .done s' := by
  simp only [publishExport, bind_eq_ok, exists_unit, orRefuse_eq_ok, refuseIf_eq_ok,
    requireSponsorOrAdmin_eq_ok, not_or, not_lt, Bool.not_eq_false] at h
  obtain ⟨program, hfound, hallowed, _, ⟨hperiod, hended⟩, hhashes, h⟩ := h
  let record : AuditExport :=
    { exportId, programId, periodStart, periodEnd, generatedAt := env.timestamp, generatedBy := caller,
      schemaVersion := contractVersion, packageHash, sourceCheckpointHash, evidenceHashes }
  rcases hstored : s.stored (programId, exportId) with _ | existing
  · rw [hstored] at h
    simp only [bind_eq_ok, exists_unit, orRefuse_eq_ok, refuseIf_eq_ok, fitsU_eq_some, pure_eq_ok,
      not_le] at h
    obtain ⟨hroom, _, ⟨_, rfl⟩, rfl⟩ := h
    exact .published record program hfound hallowed ⟨hperiod, hended, rfl, hhashes⟩ rfl hstored hroom
  · rw [hstored] at h
    simp only [bind_eq_ok, exists_unit, refuseIf_eq_ok, pure_eq_ok, Bool.not_eq_false] at h
    obtain ⟨hsame, rfl⟩ := h
    simp only [sameExportInputs, decide_eq_true_eq] at hsame
    obtain ⟨rfl, rfl, rfl, rfl, rfl, _, rfl, rfl, rfl⟩ := hsame
    exact .retried existing hstored

theorem getExport_effect {caller : Address} {programId exportId : Bytes32} {r : AuditExport}
    (h : getExport env s caller programId exportId = .ok r) :
    Effect env s (.getExport caller programId exportId) (.found r) s := by
  simp only [getExport, admin, bind_eq_ok, exists_unit, orRefuse_eq_ok, refuseIf_eq_ok] at h
  obtain ⟨_, program, hfound, configured, hconfigured, haccess, hstored⟩ := h
  refine .read caller (programId, exportId) program r hfound ?_ hstored
  by_cases hadmin : caller = configured
  · exact .inl (.inr (hadmin ▸ hconfigured))
  · by_cases hsponsor : caller = program.sponsor
    · exact .inl (.inl hsponsor)
    · right
      rcases hregulator : s.regulator (programId, caller) with _ | access
      · exact absurd ⟨hadmin, hsponsor, by rw [hregulator]; rfl⟩ haccess
      · cases access with
        | true => rfl
        | false => exact absurd ⟨hadmin, hsponsor, by rw [hregulator]; rfl⟩ haccess

/-- What an accepted entry point has done. -/
theorem step_effect {i : Input contract} (h : (machine contract).step s i = .ok (o, s')) :
    Effect i.env s i.call o s' := by
  obtain ⟨env, call⟩ := i
  cases call with
  | initializeContract admin =>
    simp only [machine, execute, map_eq_ok, initializeContract, bind_eq_ok, exists_unit,
      refuseIf_eq_ok, pure_eq_ok, not_not, Prod.mk.injEq] at h
    obtain ⟨_, ⟨hvacant, _, rfl⟩, rfl, rfl⟩ := h
    exact .initialized admin hvacant
  | registerProgram admin programId sponsor =>
    simp only [machine, execute, map_eq_ok, registerProgram, bind_eq_ok, exists_unit,
      refuseIf_eq_ok, pure_eq_ok, not_not, Prod.mk.injEq] at h
    obtain ⟨_, ⟨_, hvacant, rfl⟩, rfl, rfl⟩ := h
    exact .registered admin programId sponsor hvacant
  | grantRegulator caller programId regulator =>
    simp only [machine, execute, map_eq_ok, Prod.mk.injEq] at h
    obtain ⟨_, hset, rfl, rfl⟩ := h
    exact setRegulator_effect rfl rfl hset
  | revokeRegulator caller programId regulator =>
    simp only [machine, execute, map_eq_ok, Prod.mk.injEq] at h
    obtain ⟨_, hset, rfl, rfl⟩ := h
    exact setRegulator_effect rfl rfl hset
  | publishExport =>
    simp only [machine, execute, map_eq_ok, Prod.mk.injEq] at h
    obtain ⟨_, hpublish, rfl, rfl⟩ := h
    exact publishExport_effect hpublish
  | getExport =>
    simp only [machine, execute, map_eq_ok, Prod.mk.injEq] at h
    obtain ⟨_, hget, rfl, rfl⟩ := h
    exact getExport_effect hget

/-- Every accepted call is signed by the one in whose name it is made. -/
theorem step_signed {i : Input contract} (h : (machine contract).step s i = .ok (o, s')) :
    i.env.signers i.call.caller = true := by
  obtain ⟨env, call⟩ := i
  cases call with
  | initializeContract =>
    simp only [machine, execute, map_eq_ok, initializeContract, bind_eq_ok, exists_unit,
      requireAuth_eq_ok] at h
    obtain ⟨_, ⟨_, hsigned, _⟩, _⟩ := h
    exact hsigned
  | registerProgram =>
    simp only [machine, execute, map_eq_ok, registerProgram, requireAdmin, bind_eq_ok, exists_unit,
      requireAuth_eq_ok] at h
    obtain ⟨_, ⟨⟨_, _, _, hsigned⟩, _⟩, _⟩ := h
    exact hsigned
  | grantRegulator =>
    simp only [machine, execute, map_eq_ok, grantRegulator, setRegulator, bind_eq_ok, exists_unit,
      requireAuth_eq_ok] at h
    obtain ⟨_, ⟨_, _, _, hsigned, _⟩, _⟩ := h
    exact hsigned
  | revokeRegulator =>
    simp only [machine, execute, map_eq_ok, revokeRegulator, setRegulator, bind_eq_ok, exists_unit,
      requireAuth_eq_ok] at h
    obtain ⟨_, ⟨_, _, _, hsigned, _⟩, _⟩ := h
    exact hsigned
  | publishExport =>
    simp only [machine, execute, map_eq_ok, publishExport, bind_eq_ok, exists_unit,
      requireAuth_eq_ok] at h
    obtain ⟨_, ⟨_, _, _, hsigned, _⟩, _⟩ := h
    exact hsigned
  | getExport =>
    simp only [machine, execute, map_eq_ok, getExport, bind_eq_ok, exists_unit,
      requireAuth_eq_ok] at h
    obtain ⟨_, ⟨hsigned, _⟩, _⟩ := h
    exact hsigned

end Steps

section Publications

variable {s s' : State} {es : List (Step contract)} {i : Input contract} {o : Answer}

/-- What no later call takes back. -/
structure Extends (s s' : State) : Prop where
  admin : ∀ a, s.admin = some a → s'.admin = some a
  program : ∀ id program, s.program id = some program → s'.program id = some program
  stored : ∀ key r, s.stored key = some r → s'.stored key = some r

theorem Extends.refl (s : State) : Extends s s := ⟨fun _ => id, fun _ _ => id, fun _ _ => id⟩

theorem Extends.trans {a b c : State} (h : Extends a b) (h' : Extends b c) : Extends a c where
  admin x hx := h'.admin x (h.admin x hx)
  program id program hprogram := h'.program id program (h.program id program hprogram)
  stored key r hr := h'.stored key r (h.stored key r hr)

theorem Extends.allowed {program : Program} {caller : Address} (h : Extends s s')
    (hallowed : Allowed s program caller) : Allowed s' program caller :=
  hallowed.imp_right (h.admin caller)

theorem step_extends (h : Effect i.env s i.call o s') : Extends s s' := by
  obtain ⟨env, call⟩ := i
  cases h with
  | initialized admin vacant =>
    refine ⟨?_, fun _ _ => id, fun _ _ => id⟩
    intro a ha
    rw [vacant] at ha
    cases ha
  | registered _ _ _ vacant => exact ⟨fun _ => id, fun _ _ => update_keeps_row vacant, fun _ _ => id⟩
  | regulated => exact ⟨fun _ => id, fun _ _ => id, fun _ _ => id⟩
  | published _ _ _ _ _ _ vacant => exact ⟨fun _ => id, fun _ _ => id, fun _ _ => update_keeps_row vacant⟩
  | retried => exact .refl _
  | read => exact .refl _

/-- The stored exports are those that have been published. -/
structure Kept (s : State) (es : List (Step contract)) : Prop where
  rows : ∀ key r, s.stored key = some r → key = r.key ∧ r.Sound ∧
    ∃ program, s.program r.programId = some program ∧ Allowed s program r.generatedBy
  published : ∀ key r, s.stored key = some r →
    ∃ e ∈ es, e.input.call = r.publishedBy ∧ e.input.env.timestamp = r.generatedAt
  answered : ∀ e ∈ es, ∀ key, e.input.call.publishes = some key →
    ∃ r, s.stored key = some r ∧ e.input.call = r.publishedBy
  counted : ∀ programId, {id | s.stored (programId, id) ≠ none}.ncard = s.exportCount programId ∧
    s.exportCount programId ≤ maxExportsPerProgram

theorem kept_empty : Kept State.empty ([] : List (Step contract)) where
  rows _ _ h := nomatch h
  published _ _ h := nomatch h
  answered _ h := absurd h List.not_mem_nil
  counted programId := by
    have hnone : {id : Bytes32 | State.empty.stored (programId, id) ≠ none} = ∅ := by
      ext id
      simp [State.empty]
    refine ⟨?_, Nat.zero_le _⟩
    rw [hnone, Set.ncard_empty]
    rfl

/-- Counting the exports of one program after one more. -/
theorem counted_published {r : AuditExport} (vacant : s.stored r.key = none)
    (room : s.exportCount r.programId < maxExportsPerProgram)
    (h : ∀ programId, {id | s.stored (programId, id) ≠ none}.ncard = s.exportCount programId ∧
      s.exportCount programId ≤ maxExportsPerProgram) (programId : Bytes32) :
    {id | Function.update s.stored r.key (some r) (programId, id) ≠ none}.ncard =
        Function.update s.exportCount r.programId (s.exportCount r.programId + 1) programId ∧
      Function.update s.exportCount r.programId (s.exportCount r.programId + 1) programId ≤
        maxExportsPerProgram := by
  have hline := @ncard_update_line _ (fun row : Option AuditExport => row ≠ none) _ _ _ _ _ s.stored
    programId (finite_bytes32 _) r.programId r.exportId (some r)
  have hvacant : s.stored (r.programId, r.exportId) = none := vacant
  rw [hvacant] at hline
  obtain ⟨hcount, hbound⟩ := h programId
  have hline' : {id | Function.update s.stored r.key (some r) (programId, id) ≠ none}.ncard =
      s.exportCount programId + if programId = r.programId then 1 else 0 := by
    simpa [hcount, AuditExport.key] using hline
  rw [hline']
  by_cases hprogram : programId = r.programId
  · rw [hprogram, Function.update_self, if_pos rfl]
    exact ⟨rfl, room⟩
  · rw [Function.update_of_ne hprogram, if_neg hprogram]
    exact ⟨rfl, hbound⟩

theorem Kept.rows_extend (h : Kept s es) (hextends : Extends s s') (key : Bytes32 × Bytes32)
    (r : AuditExport) (hrow : s.stored key = some r) : key = r.key ∧ r.Sound ∧
      ∃ program, s'.program r.programId = some program ∧ Allowed s' program r.generatedBy := by
  obtain ⟨hkey, hsound, program, hfound, hallowed⟩ := h.rows key r hrow
  exact ⟨hkey, hsound, program, hextends.program _ _ hfound, hextends.allowed hallowed⟩

/-- What the journal says of the exports goes on to hold after one more line. -/
theorem Kept.published_snoc (h : Kept s es) (e : Step contract) (key : Bytes32 × Bytes32)
    (r : AuditExport) (hrow : s.stored key = some r) :
    ∃ x ∈ es ++ [e], x.input.call = r.publishedBy ∧ x.input.env.timestamp = r.generatedAt := by
  obtain ⟨x, hx, hcall⟩ := h.published key r hrow
  exact ⟨x, List.mem_append_left _ hx, hcall⟩

theorem Kept.answered_snoc (h : Kept s es) (hextends : Extends s s') {e : Step contract}
    (hlast : ∀ key, e.input.call.publishes = some key →
      ∃ r, s'.stored key = some r ∧ e.input.call = r.publishedBy) :
    ∀ x ∈ es ++ [e], ∀ key, x.input.call.publishes = some key →
      ∃ r, s'.stored key = some r ∧ x.input.call = r.publishedBy := by
  intro x hx key hkey
  rcases List.mem_append.mp hx with hold | hnew
  · obtain ⟨r, hr, hcall⟩ := h.answered x hold key hkey
    exact ⟨r, hextends.stored key r hr, hcall⟩
  · rw [List.mem_singleton.mp hnew] at hkey ⊢
    exact hlast key hkey

/-- A call that writes no export. -/
theorem Kept.aside (h : Kept s es) (hextends : Extends s s') {e : Step contract}
    (hstored : s'.stored = s.stored) (hcount : s'.exportCount = s.exportCount)
    (hlast : ∀ key, e.input.call.publishes = some key →
      ∃ r, s'.stored key = some r ∧ e.input.call = r.publishedBy) : Kept s' (es ++ [e]) where
  rows := by
    rw [hstored]
    exact h.rows_extend hextends
  published := by
    rw [hstored]
    exact h.published_snoc e
  answered := h.answered_snoc hextends hlast
  counted := by
    rw [hstored, hcount]
    exact h.counted

theorem Kept.step (h : Kept s es) (hstep : Effect i.env s i.call o s') :
    Kept s' (es ++ [⟨s, i, o, s'⟩]) := by
  have hextends := step_extends hstep
  obtain ⟨env, call⟩ := i
  cases hstep with
  | initialized => exact h.aside hextends rfl rfl fun _ hkey => nomatch hkey
  | registered => exact h.aside hextends rfl rfl fun _ hkey => nomatch hkey
  | regulated call _ _ _ named =>
    refine h.aside hextends rfl rfl ?_
    intro key hkey
    cases call with
    | publishExport => cases named
    | _ => cases hkey
  | retried r found =>
    refine h.aside hextends rfl rfl ?_
    rintro key ⟨⟩
    exact ⟨r, found, rfl⟩
  | read => exact h.aside hextends rfl rfl fun _ hkey => nomatch hkey
  | published r program found allowed sound now vacant room =>
    refine ⟨?_, ?_, ?_, counted_published vacant room h.counted⟩
    · intro key row hrow
      rcases update_row_cases hrow with ⟨rfl, rfl⟩ | ⟨_, hold⟩
      · exact ⟨rfl, sound, program, found, allowed⟩
      · exact h.rows_extend hextends key row hold
    · intro key row hrow
      rcases update_row_cases hrow with ⟨rfl, rfl⟩ | ⟨_, hold⟩
      · exact ⟨_, List.mem_concat_self, rfl, now.symm⟩
      · exact h.published_snoc _ key row hold
    · apply h.answered_snoc hextends
      rintro key ⟨⟩
      exact ⟨r, Function.update_self _ _ _, rfl⟩

theorem run_kept (is : List (Input contract)) :
    Kept ((machine contract).run State.empty is) ((machine contract).journal State.empty is) :=
  Machine.run_journal_invariant kept_empty (fun _ _ _ _ _ h hstep => h.step (step_effect hstep)) is

theorem run_extends (s : State) (is : List (Input contract)) :
    Extends s ((machine contract).run s is) :=
  @Machine.run_relation _ _ _ _ _ (fun _ => True) _ .refl (fun _ _ _ => .trans) _ trivial
    (fun _ _ _ _ _ _ => trivial) (fun _ _ _ _ _ hstep => step_extends (step_effect hstep)) is

/-- Over every run, an export stands under its own program and id as its first publication stated it and
keeps standing so, whatever is called afterwards. Its period had ended, none of its commitments is blank,
and it was made by the sponsor of the program or by the administrator. A later publication under its id
was accepted only as a repetition of the first, and a program has as many exports as its count says, 64 at
the most. -/
theorem published_exports_are_permanent (is js : List (Input contract)) :
    let s := (machine contract).run State.empty is
    let lines := (machine contract).journal State.empty is
    (∀ key r, s.stored key = some r →
      ((machine contract).run State.empty (is ++ js)).stored key = some r ∧ key = r.key ∧ r.Sound ∧
        (∃ program, s.program r.programId = some program ∧ Allowed s program r.generatedBy) ∧
        ∃ e ∈ lines, e.input.call = r.publishedBy ∧ e.input.env.timestamp = r.generatedAt) ∧
      (∀ e ∈ lines, ∀ key, e.input.call.publishes = some key →
        ∃ r, s.stored key = some r ∧ e.input.call = r.publishedBy) ∧
      ∀ programId, {id | s.stored (programId, id) ≠ none}.ncard = s.exportCount programId ∧
        s.exportCount programId ≤ maxExportsPerProgram := by
  have hkept := run_kept is
  refine ⟨?_, hkept.answered, hkept.counted⟩
  intro key r hr
  obtain ⟨hkey, hsound, hmade⟩ := hkept.rows key r hr
  refine ⟨?_, hkey, hsound, hmade, hkept.published key r hr⟩
  rw [Machine.run_append]
  exact (run_extends _ js).stored key r hr

end Publications

section Reads

variable {s s' : State} {es : List (Step contract)} {i : Input contract} {o : Answer}

/-- The regulator of the program is given access to its exports, or loses it. -/
def sets (access : Bool) (key : Bytes32 × Address) (e : Step contract) : Prop :=
  e.input.call.regulates = some (key, access)

theorem regulator_step (h : Effect i.env s i.call o s') (key : Bytes32 × Address) :
    s'.regulator key = some true ↔
      sets true key ⟨s, i, o, s'⟩ ∨ s.regulator key = some true ∧ ¬ sets false key ⟨s, i, o, s'⟩ := by
  unfold sets
  obtain ⟨env, call⟩ := i
  cases h with
  | regulated _ key' access _ named =>
    by_cases hkey : key = key'
    · cases access <;> simp [named, hkey]
    · simp [named, hkey, Ne.symm hkey]
  | initialized => simp [Call.regulates]
  | registered => simp [Call.regulates]
  | published => simp [Call.regulates]
  | retried => simp [Call.regulates]
  | read => simp [Call.regulates]

theorem run_regulator (is : List (Input contract)) (key : Bytes32 × Address) :
    ((machine contract).run State.empty is).regulator key = some true ↔
      Since (sets true key) (sets false key) ((machine contract).journal State.empty is) := by
  apply Machine.run_since (P := fun s : State => s.regulator key = some true)
  · intro h
    cases h
  · intro s i o s' hstep
    exact regulator_step (step_effect hstep) key

/-- Whoever sets the access to the exports of a program is its sponsor or the administrator. -/
theorem regulates_allowed {key : Bytes32 × Address} {access : Bool} (h : Effect i.env s i.call o s')
    (hnamed : i.call.regulates = some (key, access)) :
    ∃ program, s.program key.1 = some program ∧ Allowed s program i.call.caller := by
  obtain ⟨env, call⟩ := i
  cases h with
  | regulated _ _ _ program named found allowed =>
    rw [named] at hnamed
    cases hnamed
    exact ⟨program, found, allowed⟩
  | initialized => cases hnamed
  | registered => cases hnamed
  | published => cases hnamed
  | retried => cases hnamed
  | read => cases hnamed

theorem read_effect {env : Env contract} {call : Call} {r : AuditExport} (h : Effect env s call (.found r) s') :
    ∃ caller key program, call = .getExport caller key.1 key.2 ∧ s.program key.1 = some program ∧
      (Allowed s program caller ∨ s.regulator (key.1, caller) = some true) ∧ s.stored key = some r := by
  cases h with
  | read caller key program _ found allowed stored => exact ⟨caller, key, program, rfl, found, allowed, stored⟩

/-- Over every run, an export is read only with the signature of the reader, who is the sponsor of its
program, the administrator, or a regulator to whom access to that program has been given and not taken
back since. The reader gets what was published under that id. Access is given and taken back only by the
sponsor of the program or by the administrator, and they sign for it. -/
theorem exports_are_read_with_standing_access (is : List (Input contract)) :
    (∀ earlier e later r,
      (machine contract).journal State.empty is = earlier ++ e :: later → e.output = .found r →
        e.input.call = .getExport e.input.call.caller r.programId r.exportId ∧
          e.input.env.signers e.input.call.caller = true ∧
          (∃ program, e.pre.program r.programId = some program ∧
            (Allowed e.pre program e.input.call.caller ∨
              Since (sets true (r.programId, e.input.call.caller))
                (sets false (r.programId, e.input.call.caller)) earlier)) ∧
          ∃ p ∈ earlier, p.input.call = r.publishedBy ∧ p.input.env.timestamp = r.generatedAt) ∧
      ∀ e ∈ (machine contract).journal State.empty is, ∀ key access,
        e.input.call.regulates = some (key, access) →
          e.input.env.signers e.input.call.caller = true ∧
            ∃ program, e.pre.program key.1 = some program ∧ Allowed e.pre program e.input.call.caller := by
  refine ⟨?_, ?_⟩
  · intro earlier e later r hsplit hanswer
    obtain ⟨js, _, _, hjournal, hrun, hstep⟩ := Machine.journal_split hsplit
    have hsigned := step_signed hstep
    have heffect := step_effect hstep
    rw [hanswer] at heffect
    obtain ⟨caller, key, program, hcall, hfound, hallowed, hstored⟩ := read_effect heffect
    have hkept := run_kept js
    rw [hjournal, hrun] at hkept
    obtain ⟨hkey, _⟩ := hkept.rows key r hstored
    subst hkey
    have hcaller : e.input.call.caller = caller := by
      rw [hcall]
      rfl
    have hregulator := run_regulator js (r.programId, caller)
    rw [hjournal, hrun] at hregulator
    rw [hcaller] at hsigned ⊢
    exact ⟨hcall, hsigned, ⟨program, hfound, hallowed.imp_right hregulator.mp⟩,
      hkept.published _ r hstored⟩
  · intro e he key access hnamed
    obtain ⟨hstep, _⟩ := Machine.journal_step he
    exact ⟨step_signed hstep, regulates_allowed (step_effect hstep) hnamed⟩

end Reads

end ChainVerse.ScholarshipAuditExports
