import ChainVerse.Library.Control
import ChainVerse.Library.Services

namespace ChainVerse.LibraryRights

variable {contract : Address}

section Validation

def metadataUriMaxLen : Nat := 200

def allowedUriSchemes : List String := ["ipfs://", "ipns://", "https://", "ar://"]

/-- The URI is compared byte by byte from its start. -/
def validateMetadata (metadata : MetadataCommitment) : Outcome Unit := do
  refuseIf (metadata.manifestHash = 0) (.err .invalidHash)
  refuseIf (metadata.uri.isEmpty = true ∨ metadataUriMaxLen < metadata.uri.utf8ByteSize)
    (.err .invalidMetadataUri)
  refuseIf (¬∃ scheme ∈ allowedUriSchemes, scheme.toList <+: metadata.uri.toList)
    (.err .invalidMetadataUri)

def validateContent (content : ContentCommitment) : Outcome Unit :=
  refuseIf (content.digest = 0) (.err .invalidHash)

def validateIdentifier (id : Bytes32) : Outcome Unit := refuseIf (id = 0) (.err .invalidIdentifier)

end Validation

section Storage

def hasEntry (c : Catalog) (id : Bytes32) : Bool := (c.entry id).isSome

def getEntry (c : Catalog) (id : Bytes32) : Outcome CatalogEntry :=
  orRefuse (c.entry id) (.err .entryNotFound)

def writeEntry (c : Catalog) (id : Bytes32) (entry : CatalogEntry) : Catalog :=
  { c with entry := Function.update c.entry id (some entry) }

/-- The history has a number of its own, beside the version of the entry. -/
def appendVersion (c : Catalog) (id : Bytes32) (snapshot : VersionSnapshot) : Outcome Catalog := do
  let next ← orRefuse (fitsU 32 (c.entryVersionCount id + 1)) (.err .overflow)
  pure { c with
    entryVersion := Function.update c.entryVersion (id, next) (some snapshot)
    entryVersionCount := Function.update c.entryVersionCount id next }

def recordChild (c : Catalog) (parentId childId : Bytes32) : Outcome Catalog := do
  let n := c.childCount parentId
  let next ← orRefuse (fitsU 32 (n + 1)) (.err .overflow)
  pure { c with
    childIndex := Function.update c.childIndex (parentId, n) (some childId)
    childCount := Function.update c.childCount parentId next }

def makeSnapshot (env : Env contract) (version : Nat) (metadata : MetadataCommitment)
    (content : ContentState) (custodian registeredBy : Address) : VersionSnapshot where
  version := version
  metadata := metadata
  content := content
  custodian := custodian
  registeredBy := registeredBy
  registeredAt := env.timestamp

end Storage

section Registration

def registerWork (env : Env contract) (s : State) (caller : Address) (workId : Bytes32)
    (metadata : MetadataCommitment) (custodian : Address) : Outcome (Nat × Catalog) := do
  ensureActive s
  requireRole env s .policyManager caller
  validateIdentifier workId
  validateMetadata metadata
  refuseIf (hasEntry s.catalog workId = true) (.err .alreadyRegistered)
  let entry : CatalogEntry :=
    { kind := .work, parent := none, version := 1, metadata, content := .none, custodian }
  let snapshot := makeSnapshot env 1 metadata .none custodian caller
  let c ← appendVersion (writeEntry s.catalog workId entry) workId snapshot
  pure (1, c)

def registerEdition (env : Env contract) (s : State) (caller : Address)
    (parentWorkId editionId : Bytes32) (metadata : MetadataCommitment) (custodian : Address) :
    Outcome (Nat × Catalog) := do
  ensureActive s
  requireRole env s .policyManager caller
  validateIdentifier editionId
  validateMetadata metadata
  refuseIf (hasEntry s.catalog editionId = true) (.err .alreadyRegistered)
  let parent ← getEntry s.catalog parentWorkId
  refuseIf (parent.kind ≠ .work) (.err .invalidParent)
  let entry : CatalogEntry :=
    { kind := .edition, parent := some parentWorkId, version := 1, metadata, content := .none
      custodian }
  let snapshot := makeSnapshot env 1 metadata .none custodian caller
  let c ← appendVersion (writeEntry s.catalog editionId entry) editionId snapshot
  let c ← recordChild c parentWorkId editionId
  pure (1, c)

def registerRendition (env : Env contract) (s : State) (caller : Address)
    (parentEditionId renditionId : Bytes32) (content : ContentCommitment)
    (metadata : MetadataCommitment) (custodian : Address) : Outcome (Nat × Catalog) := do
  ensureActive s
  requireRole env s .policyManager caller
  validateIdentifier renditionId
  validateMetadata metadata
  validateContent content
  refuseIf (hasEntry s.catalog renditionId = true) (.err .alreadyRegistered)
  let parent ← getEntry s.catalog parentEditionId
  refuseIf (parent.kind ≠ .edition) (.err .invalidParent)
  let contentState := ContentState.committed content
  let entry : CatalogEntry :=
    { kind := .rendition, parent := some parentEditionId, version := 1, metadata
      content := contentState, custodian }
  let snapshot := makeSnapshot env 1 metadata contentState custodian caller
  let c ← appendVersion (writeEntry s.catalog renditionId entry) renditionId snapshot
  let c ← recordChild c parentEditionId renditionId
  pure (1, c)

def updateMetadata (env : Env contract) (s : State) (caller : Address) (entryId : Bytes32)
    (metadata : MetadataCommitment) : Outcome (Nat × Catalog) := do
  ensureActive s
  requireRole env s .policyManager caller
  validateMetadata metadata
  let entry ← getEntry s.catalog entryId
  let newVersion ← orRefuse (fitsU 32 (entry.version + 1)) (.err .overflow)
  let updated := { entry with version := newVersion, metadata := metadata }
  let snapshot := makeSnapshot env newVersion metadata updated.content updated.custodian caller
  let c ← appendVersion (writeEntry s.catalog entryId updated) entryId snapshot
  pure (newVersion, c)

def updateContentHash (env : Env contract) (s : State) (caller : Address) (renditionId : Bytes32)
    (content : ContentCommitment) : Outcome (Nat × Catalog) := do
  ensureActive s
  requireRole env s .policyManager caller
  validateContent content
  let entry ← getEntry s.catalog renditionId
  refuseIf (entry.kind ≠ .rendition) (.err .invalidKind)
  let newVersion ← orRefuse (fitsU 32 (entry.version + 1)) (.err .overflow)
  let newContent := ContentState.committed content
  let updated := { entry with version := newVersion, content := newContent }
  let snapshot := makeSnapshot env newVersion updated.metadata newContent updated.custodian caller
  let c ← appendVersion (writeEntry s.catalog renditionId updated) renditionId snapshot
  pure (newVersion, c)

end Registration

section Queries

def childrenMaxPage : Nat := 50

def versionCount (c : Catalog) (entryId : Bytes32) : Nat := c.entryVersionCount entryId

def getVersion (c : Catalog) (entryId : Bytes32) (version : Nat) : Outcome VersionSnapshot := do
  refuseIf (version = 0 ∨ versionCount c entryId < version) (.err .versionNotFound)
  orRefuse (c.entryVersion (entryId, version)) (.err .versionNotFound)

/-- The loop over the slots from `idx` on, with room for `room` more ids: what it collects and where it
stops. -/
def collectChildren (c : Catalog) (parentId : Bytes32) (total : Nat) :
    (room idx : Nat) → List Bytes32 × Nat
  | 0, idx => ([], idx)
  | room + 1, idx =>
    if idx < total then
      match c.childIndex (parentId, idx) with
      | some id =>
        let rest := collectChildren c parentId total room (idx + 1)
        (id :: rest.1, rest.2)
      | none => ([], idx)
    else ([], idx)

def children (c : Catalog) (parentId : Bytes32) (cursor limit : Nat) : Outcome ChildrenPage := do
  refuseIf (limit = 0 ∨ childrenMaxPage < limit) (.err .invalidLimit)
  let total := c.childCount parentId
  refuseIf (total < cursor) (.err .invalidLimit)
  let (ids, idx) := collectChildren c parentId total limit cursor
  pure { ids, nextCursor := idx, done := decide (total ≤ idx) }

end Queries

section Calls

inductive GovernCall where
  | bootstrap (admin treasury policyManager emergency librarian : Address)
  | pauseLibrary (caller : Address) (reasonHash : Bytes32)
  | unpauseLibrary (caller : Address) (reasonHash : Bytes32)
  | beginMigration (caller : Address) (targetVersion : Nat)
  | migrateBatch (caller : Address) (limit : Nat)
  | finalizeMigration (caller : Address)
  | queueChange (caller : Address) (action : GovernedAction) (eta : Nat)
  | cancelChange (caller : Address) (changeId : Bytes32)
  | executeChange (caller : Address) (changeId : Bytes32)
  | setCourseRegistry (caller courseRegistryId : Address)
  deriving DecidableEq, Repr

inductive LendCall where
  | putPolicy (caller : Address) (policyId : Symbol)
      (maxConcurrentLoansPerPatron maxTotalConcurrentLoans : Nat)
  | putWork (caller : Address) (workId workHash : Bytes32) (custodian : Address)
      (policyId : Symbol)
  | borrowWork (caller : Address) (workId : Bytes32) (borrower : Address)
  | returnWork (caller : Address) (workId : Bytes32) (borrower : Address)
  | placeHold (caller : Address) (workId : Bytes32) (holder : Address)
  | claimHold (caller : Address) (workId : Bytes32) (holder : Address)
  | createReserve (caller : Address) (workId courseId : Bytes32) (seats expiry : Nat)
  | borrowFromReserve (caller : Address) (workId courseId : Bytes32) (borrower : Address)
  | returnToReserve (caller : Address) (workId courseId : Bytes32) (borrower : Address)
  | checkoutWork (patron : Address) (workId : Bytes32) (loanDuration : Nat) (autoRenew : Bool)
      (maxRenewals maxLicenseDuration : Nat)
  | returnLoan (patron : Address) (loanId : Bytes32)
  | renewLoan (patron : Address) (loanId : Bytes32) (renewalDuration : Nat)
  deriving DecidableEq, Repr

inductive CatalogCall where
  | registerWork (caller : Address) (workId : Bytes32) (metadata : MetadataCommitment)
      (custodian : Address)
  | registerEdition (caller : Address) (parentWorkId editionId : Bytes32)
      (metadata : MetadataCommitment) (custodian : Address)
  | registerRendition (caller : Address) (parentEditionId renditionId : Bytes32)
      (content : ContentCommitment) (metadata : MetadataCommitment) (custodian : Address)
  | updateMetadata (caller : Address) (entryId : Bytes32) (metadata : MetadataCommitment)
  | updateContentHash (caller : Address) (renditionId : Bytes32) (content : ContentCommitment)
  deriving DecidableEq, Repr

inductive ServeCall where
  | deactivateWork (caller : Address) (workId : Bytes32)
  | legalTakedownWork (caller : Address) (workId : Bytes32)
  | quarantineWork (caller : Address) (workId reasonHash : Bytes32)
  | restoreQuarantinedWork (caller : Address) (workId reviewHash : Bytes32)
  | commitClassification (caller : Address) (kind : ClassificationKind) (manifestHash : Bytes32)
      (schemaVersion : Nat)
  | attestProvenance (caller : Address) (workId : Bytes32) (provenanceType : ProvenanceType)
      (provenanceHash : Bytes32)
  | approveWasmHash (caller : Address) (newHash : Bytes32)
  | attestMembership (caller wallet : Address)
      (claimCommitment institutionDomainHash networkId : Bytes32) (expiresAt : Nat)
  | revokeMembership (caller : Address) (attestationId : Bytes32)
  | addKeeper (caller keeper : Address)
  | removeKeeper (caller keeper : Address)
  | appendPolicy (caller : Address) (policyId : Bytes32) (scope : PolicyScope)
      (loanDurationSecs maxConcurrentLoans renewalLimit holdDurationSecs : Nat) (finePerDay : Int)
  | registerLicense (caller : Address) (licenseId workId : Bytes32) (institution : Address)
      (expiresAt : Nat)
  | registerLicensedRendition (caller : Address) (renditionId workId : Bytes32) (format : Symbol)
  | registerSeat (caller : Address) (seatId : Bytes32) (institution : Address)
  | checkout (borrower institution courseRegistry : Address) (courseId borrowerRole : Symbol)
      (collection : Option Bytes32) (policyId licenseId renditionId seatId : Bytes32)
  deriving DecidableEq, Repr

/-- The state-changing entry points, by the part of the storage that they write. -/
inductive Call where
  | govern (call : GovernCall)
  | lend (call : LendCall)
  | catalog (call : CatalogCall)
  | serve (call : ServeCall)
  deriving DecidableEq, Repr

end Calls

structure Input (contract : Address) where
  env : Env contract
  registries : Registries
  call : Call

inductive Answer where
  | none
  | id (id : Bytes32)
  | version (version : Nat)
  | batch (steps : Nat) (complete : Bool)
  deriving DecidableEq, Repr

section Execution

def silent {S : Type} (s : S) : Answer × S := (.none, s)

def withId {S : Type} (result : Bytes32 × S) : Answer × S := (.id result.1, result.2)

def withVersion {S : Type} (result : Nat × S) : Answer × S := (.version result.1, result.2)

def govern (env : Env contract) (crypto : Crypto) (s : State) : GovernCall → Outcome (Answer × State)
  | .bootstrap admin treasury policyManager emergency librarian =>
    silent <$> bootstrap env s admin treasury policyManager emergency librarian
  | .pauseLibrary caller reasonHash => silent <$> pauseLibrary env s caller reasonHash
  | .unpauseLibrary caller reasonHash => silent <$> unpauseLibrary env s caller reasonHash
  | .beginMigration caller targetVersion => silent <$> beginMigration env s caller targetVersion
  | .migrateBatch caller limit =>
    (fun result => (.batch result.1.1 result.1.2, result.2)) <$> migrateBatch env s caller limit
  | .finalizeMigration caller => silent <$> finalizeMigration env s caller
  | .queueChange caller action eta => withId <$> queueChange env crypto s caller action eta
  | .cancelChange caller changeId => silent <$> cancelChange env s caller changeId
  | .executeChange caller changeId => silent <$> executeChange env s caller changeId
  | .setCourseRegistry caller courseRegistryId =>
    silent <$> setCourseRegistry env s caller courseRegistryId

def lend (env : Env contract) (crypto : Crypto) (registries : Registries) (s : State) :
    LendCall → Outcome (Answer × Lending)
  | .putPolicy caller policyId maxConcurrentLoansPerPatron maxTotalConcurrentLoans =>
    silent <$> putPolicy env s caller policyId maxConcurrentLoansPerPatron maxTotalConcurrentLoans
  | .putWork caller workId workHash custodian policyId =>
    silent <$> putWork env s caller workId workHash custodian policyId
  | .borrowWork caller workId borrower => silent <$> borrowWork env s caller workId borrower
  | .returnWork caller workId borrower => silent <$> returnWork s caller workId borrower
  | .placeHold caller workId holder => silent <$> placeHold env s caller workId holder
  | .claimHold caller workId holder => silent <$> claimHold env s caller workId holder
  | .createReserve caller workId courseId seats expiry =>
    silent <$> createReserve env s caller workId courseId seats expiry
  | .borrowFromReserve caller workId courseId borrower =>
    silent <$> borrowFromReserve env registries s caller workId courseId borrower
  | .returnToReserve caller workId courseId borrower =>
    silent <$> returnToReserve s caller workId courseId borrower
  | .checkoutWork patron workId loanDuration autoRenew maxRenewals maxLicenseDuration =>
    withId <$> checkoutWork env crypto s patron workId loanDuration autoRenew maxRenewals
      maxLicenseDuration
  | .returnLoan patron loanId => silent <$> returnLoan env s patron loanId
  | .renewLoan patron loanId renewalDuration =>
    silent <$> renewLoan env s patron loanId renewalDuration

def writeCatalog (env : Env contract) (s : State) : CatalogCall → Outcome (Answer × Catalog)
  | .registerWork caller workId metadata custodian =>
    withVersion <$> registerWork env s caller workId metadata custodian
  | .registerEdition caller parentWorkId editionId metadata custodian =>
    withVersion <$> registerEdition env s caller parentWorkId editionId metadata custodian
  | .registerRendition caller parentEditionId renditionId content metadata custodian =>
    withVersion <$> registerRendition env s caller parentEditionId renditionId content metadata
      custodian
  | .updateMetadata caller entryId metadata =>
    withVersion <$> updateMetadata env s caller entryId metadata
  | .updateContentHash caller renditionId content =>
    withVersion <$> updateContentHash env s caller renditionId content

def serve (env : Env contract) (crypto : Crypto) (registries : Registries) (s : State) :
    ServeCall → Outcome (Answer × Services)
  | .deactivateWork caller workId => silent <$> deactivateWork env s caller workId
  | .legalTakedownWork caller workId => silent <$> legalTakedownWork env s caller workId
  | .quarantineWork caller workId reasonHash => silent <$> quarantineWork env s caller workId reasonHash
  | .restoreQuarantinedWork caller workId reviewHash =>
    silent <$> restoreQuarantinedWork env s caller workId reviewHash
  | .commitClassification caller kind manifestHash schemaVersion =>
    silent <$> commitClassification env s caller kind manifestHash schemaVersion
  | .attestProvenance caller workId provenanceType provenanceHash =>
    silent <$> attestProvenance env s caller workId provenanceType provenanceHash
  | .approveWasmHash caller newHash => silent <$> approveWasmHash env s caller newHash
  | .attestMembership caller wallet claimCommitment institutionDomainHash networkId expiresAt =>
    withId <$> attestMembership env crypto s caller wallet claimCommitment institutionDomainHash
      networkId expiresAt
  | .revokeMembership caller attestationId => silent <$> revokeMembership env s caller attestationId
  | .addKeeper caller keeper => silent <$> addKeeper env s caller keeper
  | .removeKeeper caller keeper => silent <$> removeKeeper env s caller keeper
  | .appendPolicy caller policyId scope loanDurationSecs maxConcurrentLoans renewalLimit
      holdDurationSecs finePerDay =>
    withVersion <$> appendPolicy env s caller policyId scope loanDurationSecs maxConcurrentLoans
      renewalLimit holdDurationSecs finePerDay
  | .registerLicense caller licenseId workId institution expiresAt =>
    silent <$> registerLicense env s caller licenseId workId institution expiresAt
  | .registerLicensedRendition caller renditionId workId format =>
    silent <$> registerLicensedRendition env s caller renditionId workId format
  | .registerSeat caller seatId institution => silent <$> registerSeat env s caller seatId institution
  | .checkout borrower institution courseRegistry courseId borrowerRole collection policyId licenseId
      renditionId seatId =>
    withId <$> checkout env crypto registries s borrower institution courseRegistry courseId
      borrowerRole collection policyId licenseId renditionId seatId

def execute (env : Env contract) (crypto : Crypto) (registries : Registries) (s : State) :
    Call → Outcome (Answer × State)
  | .govern call => govern env crypto s call
  | .lend call =>
    (fun result => (result.1, { s with lending := result.2 })) <$> lend env crypto registries s call
  | .catalog call =>
    (fun result => (result.1, { s with catalog := result.2 })) <$> writeCatalog env s call
  | .serve call =>
    (fun result => (result.1, { s with services := result.2 })) <$> serve env crypto registries s call

def machine (contract : Address) (crypto : Crypto) :
    Machine State (Input contract) Answer (Abort ContractError) where
  step s i := execute i.env crypto i.registries s i.call

end Execution

/-- An accepted call of a run, with the stores around it. -/
abbrev Step (contract : Address) := Entry State (Input contract) Answer

section Families

variable {crypto : Crypto} {s s' : State} {i : Input contract} {o : Answer}

theorem step_govern {call : GovernCall} (hcall : i.call = .govern call)
    (h : (machine contract crypto).step s i = .ok (o, s')) :
    govern i.env crypto s call = .ok (o, s') := by
  simpa only [machine, execute, hcall] using h

theorem step_lend {call : LendCall} (hcall : i.call = .lend call)
    (h : (machine contract crypto).step s i = .ok (o, s')) :
    ∃ l, lend i.env crypto i.registries s call = .ok (o, l) ∧ s' = { s with lending := l } := by
  simp only [machine, execute, hcall, map_eq_ok, Prod.mk.injEq] at h
  obtain ⟨⟨_, l⟩, hlend, rfl, rfl⟩ := h
  exact ⟨l, hlend, rfl⟩

theorem step_catalog {call : CatalogCall} (hcall : i.call = .catalog call)
    (h : (machine contract crypto).step s i = .ok (o, s')) :
    ∃ c, writeCatalog i.env s call = .ok (o, c) ∧ s' = { s with catalog := c } := by
  simp only [machine, execute, hcall, map_eq_ok, Prod.mk.injEq] at h
  obtain ⟨⟨_, c⟩, hwrite, rfl, rfl⟩ := h
  exact ⟨c, hwrite, rfl⟩

theorem step_serve {call : ServeCall} (hcall : i.call = .serve call)
    (h : (machine contract crypto).step s i = .ok (o, s')) :
    ∃ v, serve i.env crypto i.registries s call = .ok (o, v) ∧ s' = { s with services := v } := by
  simp only [machine, execute, hcall, map_eq_ok, Prod.mk.injEq] at h
  obtain ⟨⟨_, v⟩, hserve, rfl, rfl⟩ := h
  exact ⟨v, hserve, rfl⟩

end Families

/-- Registries in which everybody is enrolled. -/
def sampleRegistries : Registries where
  inCourse _ _ _ := true
  isEnrolled _ _ _ := true

/-- SHA-256 digests: of the salts of two changes, of the preimages of two loans of one work, and of that
of an attestation. -/
def sampleChangeId : Bytes32 :=
  0x31ddfd1e597c16be2f5720da3276e48586129531db4e1f06a35025bb9e1a6158

def sampleTransferId : Bytes32 :=
  0x1a544dcbf5cd6a0509cb9a9e73dda516cabdd865fbd58ca1f463d7736b2834af

def sampleLoanId : Bytes32 :=
  0x108690ef518cdd255bccade5a2a3c090af202a35b26b06e815a817e7f1b891fb

def sampleSecondLoanId : Bytes32 :=
  0xb2e553abf41ecf9409950f954cba3d2d6e3c299c1ec91aaf28f00e9754138fe2

def sampleAttestationId : Bytes32 :=
  0x23d28624ebdd489fc88f11a020a9720e8a9cdc875cda0aac60f39e5e414fab11

def sampleSalt (rest : List Byte) : List Byte :=
  accountXdr ⟨1⟩ ++ rest ++ beBytes 8 604810 ++ beBytes 8 10 ++ beBytes 8 1

def sampleCrypto : Crypto where
  sha256 p :=
    if p = sampleSalt ([2] ++ accountXdr ⟨7⟩) then sampleChangeId
    else if p = sampleSalt ([1] ++ beBytes 4 2 ++ accountXdr ⟨5⟩) then sampleTransferId
    else if p = bytes32 1 ++ beBytes 8 10 then sampleLoanId
    else if p = bytes32 1 ++ beBytes 8 20 then sampleSecondLoanId
    else if p = accountXdr ⟨9⟩ ++ bytes32 1 ++ bytes32 2 ++ bytes32 3 ++ beBytes 8 1 then
      sampleAttestationId
    else 0
  addressXdr := accountXdr

/-- The five roles go to the accounts 1 to 5. -/
def sampleBootstrap : Input ⟨0⟩ :=
  ⟨.sample, sampleRegistries, .govern (.bootstrap ⟨1⟩ ⟨2⟩ ⟨3⟩ ⟨4⟩ ⟨5⟩)⟩

end ChainVerse.LibraryRights
