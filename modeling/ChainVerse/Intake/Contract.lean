import ChainVerse.Framework.Machine
import ChainVerse.Host.Bytes
import Mathlib.Logic.Function.Basic

namespace ChainVerse.ScholarshipApplications

inductive ContractError where
  | notInitialized
  | alreadyInitialized
  | notAdmin
  | programNotFound
  | programAlreadyExists
  | programInactive
  | deadlinePassed
  | duplicateApplication
  | applicationNotFound
  | noFormSchemaPublished
  | formSchemaNotFound
  | noConsentTermsPublished
  | consentTermsNotFound
  | consentNotFound
  | consentRevoked
  | consentOutOfDate
  | versionOverflow
  | versionConflict
  deriving DecidableEq, Repr

inductive ReviewError where
  | notAdmin
  | reviewerNotFound
  | reviewerInactive
  | reviewerAtCapacity
  | reviewerConflicted
  | noEligibleReviewer
  | assignmentNotFound
  | alreadyAssigned
  | unauthorized
  deriving DecidableEq, Repr

inductive PrivacyError where
  | notAdmin
  | unauthorized
  | applicationNotFound
  | requestNotFound
  | requestAlreadyProcessed
  | invalidDenialReason
  | counterOverflow
  | noExportableData
  | exportAlreadyPending
  | exportRequestNotFound
  | exportRequestAlreadyResolved
  | invalidExportHash
  deriving DecidableEq, Repr

/-- Each part of the contract has its own errors. -/
inductive Error where
  | contract (e : ContractError)
  | review (e : ReviewError)
  | privacy (e : PrivacyError)
  deriving DecidableEq, Repr

abbrev Outcome (α : Type) := Except (Abort Error) α

structure ReviewerProfile where
  active : Bool
  maxAssignments : Nat
  currentAssignments : Nat
  deriving DecidableEq, Repr

inductive AssignmentMode where
  | roundRobin
  | loadBalanced
  | seededRandom (seed : U64)
  deriving DecidableEq, Repr

inductive ReviewMode where
  | opened
  | blind
  | doubleBlind
  deriving DecidableEq, Repr

inductive PrivacyRequestType where
  | correction
  | erasure
  deriving DecidableEq, Repr

inductive PrivacyRequestStatus where
  | pending
  | approved
  | denied
  deriving DecidableEq, Repr

structure PrivacyRequest where
  id : Nat
  applicant : Address
  programId : Bytes32
  requestType : PrivacyRequestType
  requestedAt : Nat
  targetDataHash : Bytes32
  status : PrivacyRequestStatus
  processedAt : Nat
  denialReasonHash : Bytes32
  downstreamAddressed : Bool
  deriving DecidableEq

inductive DataExportStatus where
  | pending
  | completed
  | cancelled
  deriving DecidableEq, Repr

structure DataExportRequest where
  id : Nat
  applicant : Address
  programId : Bytes32
  requestedAt : Nat
  status : DataExportStatus
  resolvedAt : Nat
  exportHash : Bytes32
  consentHistoryHash : Bytes32
  deriving DecidableEq

structure Program where
  version : Nat
  active : Bool
  deadline : Nat
  deriving DecidableEq, Repr

inductive ApplicationStatus where
  | submitted
  deriving DecidableEq, Repr

structure Application where
  applicant : Address
  programId : Bytes32
  status : ApplicationStatus
  submittedAt : Nat
  dataHash : Bytes32
  formVersion : Nat
  consentVersion : Nat
  deriving DecidableEq

structure FormSchema where
  version : Nat
  schemaHash : Bytes32
  publishedAt : Nat
  deriving DecidableEq

structure ConsentTerms where
  version : Nat
  termsHash : Bytes32
  publishedAt : Nat
  deriving DecidableEq

structure ConsentRecord where
  version : Nat
  acceptedAt : Nat
  revoked : Bool
  revokedAt : Nat
  deriving DecidableEq, Repr

/-- The contract's storage. -/
structure State where
  admin : Option Address
  program : Bytes32 → Option Program
  /-- Applications, consents and the latest requests by applicant and program. -/
  application : Address × Bytes32 → Option Application
  formVersion : Bytes32 → Option Nat
  formSchema : Bytes32 × Nat → Option FormSchema
  consentVersion : Bytes32 → Option Nat
  consentTerms : Bytes32 × Nat → Option ConsentTerms
  consent : Address × Bytes32 → Option ConsentRecord
  reviewer : Address → Option ReviewerProfile
  /-- Empty where nothing is stored. -/
  reviewerPool : Bytes32 → List Address
  /-- Reviewer, program and commitment to the applicant. -/
  conflict : Address × Bytes32 × Bytes32 → Bool
  /-- Program and commitment to the application. -/
  assignment : Bytes32 × Bytes32 → Option Address
  /-- Zero where nothing is stored. -/
  roundRobinCursor : Bytes32 → Nat
  reviewMode : Bytes32 → ReviewMode
  requestCounter : Nat
  request : Nat → Option PrivacyRequest
  applicantRequest : Address × Bytes32 → Option Nat
  exportRequestCounter : Nat
  exportRequest : Nat → Option DataExportRequest
  applicantExportRequest : Address × Bytes32 → Option Nat

def State.empty : State where
  admin := none
  program := fun _ => none
  application := fun _ => none
  formVersion := fun _ => none
  formSchema := fun _ => none
  consentVersion := fun _ => none
  consentTerms := fun _ => none
  consent := fun _ => none
  reviewer := fun _ => none
  reviewerPool := fun _ => []
  conflict := fun _ => false
  assignment := fun _ => none
  roundRobinCursor := fun _ => 0
  reviewMode := fun _ => .opened
  requestCounter := 0
  request := fun _ => none
  applicantRequest := fun _ => none
  exportRequestCounter := 0
  exportRequest := fun _ => none
  applicantExportRequest := fun _ => none

variable {contract : Address}

section Guards

def requireAdmin (env : Env contract) (s : State) (caller : Address) : Outcome Unit := do
  let admin ← orRefuse s.admin (.err (.contract .notInitialized))
  refuseIf (caller ≠ admin) (.err (.contract .notAdmin))
  requireAuth env caller

/-- Unlike `requireAdmin`, it asks for the signature first. -/
def requireReviewAdmin (env : Env contract) (s : State) (caller : Address) : Outcome Unit := do
  requireAuth env caller
  let admin ← orRefuse s.admin (.err (.review .notAdmin))
  refuseIf (admin ≠ caller) (.err (.review .unauthorized))

def requirePrivacyAdmin (env : Env contract) (s : State) (caller : Address) : Outcome Unit := do
  requireAuth env caller
  let admin ← orRefuse s.admin (.err (.privacy .notAdmin))
  refuseIf (admin ≠ caller) (.err (.privacy .unauthorized))

end Guards

section Intake

def initializeContract (env : Env contract) (s : State) (admin : Address) : Outcome State := do
  refuseIf (s.admin ≠ none) (.err (.contract .alreadyInitialized))
  requireAuth env admin
  pure { s with admin := some admin }

def registerProgram (env : Env contract) (s : State) (admin : Address) (programId : Bytes32)
    (deadline : Nat) : Outcome State := do
  requireAdmin env s admin
  refuseIf (s.program programId ≠ none) (.err (.contract .programAlreadyExists))
  pure { s with program := Function.update s.program programId (some ⟨1, true, deadline⟩) }

def setProgramActive (env : Env contract) (s : State) (admin : Address) (programId : Bytes32)
    (expectedVersion : Nat) (active : Bool) : Outcome (Nat × State) := do
  requireAdmin env s admin
  let program ← orRefuse (s.program programId) (.err (.contract .programNotFound))
  refuseIf (program.version ≠ expectedVersion) (.err (.contract .versionConflict))
  let version ← orRefuse (fitsU 32 (program.version + 1)) (.err (.contract .versionOverflow))
  pure (version, { s with
    program := Function.update s.program programId (some { program with version, active }) })

def publishFormSchema (env : Env contract) (s : State) (admin : Address)
    (programId schemaHash : Bytes32) : Outcome (Nat × State) := do
  requireAdmin env s admin
  refuseIf (s.program programId = none) (.err (.contract .programNotFound))
  let nextVersion ← orRefuse (fitsU 32 ((s.formVersion programId).getD 0 + 1))
    (.err (.contract .versionOverflow))
  pure (nextVersion, { s with
    formSchema := Function.update s.formSchema (programId, nextVersion)
      (some ⟨nextVersion, schemaHash, env.timestamp⟩)
    formVersion := Function.update s.formVersion programId (some nextVersion) })

def publishConsentTerms (env : Env contract) (s : State) (admin : Address)
    (programId termsHash : Bytes32) : Outcome (Nat × State) := do
  requireAdmin env s admin
  refuseIf (s.program programId = none) (.err (.contract .programNotFound))
  let nextVersion ← orRefuse (fitsU 32 ((s.consentVersion programId).getD 0 + 1))
    (.err (.contract .versionOverflow))
  pure (nextVersion, { s with
    consentTerms := Function.update s.consentTerms (programId, nextVersion)
      (some ⟨nextVersion, termsHash, env.timestamp⟩)
    consentVersion := Function.update s.consentVersion programId (some nextVersion) })

def recordConsent (env : Env contract) (s : State) (applicant : Address) (programId : Bytes32) :
    Outcome (Nat × State) := do
  requireAuth env applicant
  let latestVersion ← orRefuse (s.consentVersion programId) (.err (.contract .noConsentTermsPublished))
  pure (latestVersion, { s with
    consent := Function.update s.consent (applicant, programId)
      (some ⟨latestVersion, env.timestamp, false, 0⟩) })

def revokeConsent (env : Env contract) (s : State) (applicant : Address) (programId : Bytes32) :
    Outcome State := do
  requireAuth env applicant
  let record ← orRefuse (s.consent (applicant, programId)) (.err (.contract .consentNotFound))
  pure { s with
    consent := Function.update s.consent (applicant, programId)
      (some { record with revoked := true, revokedAt := env.timestamp }) }

def submitApplication (env : Env contract) (s : State) (applicant : Address)
    (programId dataHash : Bytes32) (formVersion : Nat) : Outcome State := do
  requireAuth env applicant
  let program ← orRefuse (s.program programId) (.err (.contract .programNotFound))
  refuseIf (program.active = false) (.err (.contract .programInactive))
  refuseIf (program.deadline < env.timestamp) (.err (.contract .deadlinePassed))
  refuseIf (s.formSchema (programId, formVersion) = none) (.err (.contract .formSchemaNotFound))
  let consentVersion ← orRefuse (s.consentVersion programId) (.err (.contract .noConsentTermsPublished))
  let consent ← orRefuse (s.consent (applicant, programId)) (.err (.contract .consentNotFound))
  refuseIf (consent.revoked = true) (.err (.contract .consentRevoked))
  refuseIf (consent.version ≠ consentVersion) (.err (.contract .consentOutOfDate))
  refuseIf (s.application (applicant, programId) ≠ none) (.err (.contract .duplicateApplication))
  pure { s with
    application := Function.update s.application (applicant, programId)
      (some { applicant, programId, status := .submitted, submittedAt := env.timestamp, dataHash,
              formVersion, consentVersion := consent.version }) }

end Intake

section Reviewers

/-- The number of assignments is carried over from the profile before. -/
def registerReviewer (env : Env contract) (s : State) (admin reviewer : Address)
    (maxAssignments : Nat) : Outcome State := do
  requireReviewAdmin env s admin
  let currentAssignments := (s.reviewer reviewer).elim 0 ReviewerProfile.currentAssignments
  pure { s with
    reviewer := Function.update s.reviewer reviewer
      (some { active := true, maxAssignments, currentAssignments }) }

def setReviewerActive (env : Env contract) (s : State) (admin reviewer : Address) (active : Bool) :
    Outcome State := do
  requireReviewAdmin env s admin
  let profile ← orRefuse (s.reviewer reviewer) (.err (.review .reviewerNotFound))
  pure { s with reviewer := Function.update s.reviewer reviewer (some { profile with active }) }

def setReviewerPool (env : Env contract) (s : State) (admin : Address) (programId : Bytes32)
    (reviewers : List Address) : Outcome State := do
  requireReviewAdmin env s admin
  pure { s with reviewerPool := Function.update s.reviewerPool programId reviewers }

def setReviewMode (env : Env contract) (s : State) (admin : Address) (programId : Bytes32)
    (mode : ReviewMode) : Outcome State := do
  requireReviewAdmin env s admin
  pure { s with reviewMode := Function.update s.reviewMode programId mode }

def declareConflict (env : Env contract) (s : State) (reviewer : Address)
    (programId applicantCommitment : Bytes32) : Outcome State := do
  requireAuth env reviewer
  pure { s with
    conflict := Function.update s.conflict (reviewer, programId, applicantCommitment) true }

/-- The closure `is_eligible` of `assign_reviewer`. -/
def isEligible (s : State) (programId applicationCommitment : Bytes32) (reviewer : Address) : Bool :=
  match s.reviewer reviewer with
  | none => false
  | some profile =>
    if profile.active = false ∨ profile.maxAssignments ≤ profile.currentAssignments then false
    else !s.conflict (reviewer, programId, applicationCommitment)

/-- `wrapping_mul` and `wrapping_add`, byte by byte. -/
def seededOffset (seed : U64) (applicationCommitment : Bytes32) : U64 :=
  (bytes32 applicationCommitment).foldl (fun acc byte => acc * 1000003 + Fin.ofNat _ byte.toNat) seed

def AssignmentMode.startOffset (mode : AssignmentMode) (s : State)
    (programId applicationCommitment : Bytes32) : Nat :=
  match mode with
  | .roundRobin | .loadBalanced => s.roundRobinCursor programId
  | .seededRandom seed => (seededOffset seed applicationCommitment).val

/-- The loop over the pool; the addition is a checked one. -/
def chooseReviewer (eligible : Address → Bool) (pool : List Address) (startOffset : Nat) :
    List Nat → Outcome (Option Address)
  | [] => pure none
  | step :: steps => do
    let position ← orRefuse (fitsU 64 (startOffset + step)) .overflow
    let candidate ← orRefuse (pool[position % pool.length]?) .panicked
    if eligible candidate = true then pure (some candidate)
    else chooseReviewer eligible pool startOffset steps

def assignReviewer (env : Env contract) (s : State) (admin : Address)
    (programId applicationCommitment : Bytes32) (mode : AssignmentMode) :
    Outcome (Address × State) := do
  requireReviewAdmin env s admin
  refuseIf (s.assignment (programId, applicationCommitment) ≠ none) (.err (.review .alreadyAssigned))
  let pool := s.reviewerPool programId
  refuseIf (pool = []) (.err (.review .noEligibleReviewer))
  let startOffset := mode.startOffset s programId applicationCommitment
  let found ← chooseReviewer (isEligible s programId applicationCommitment) pool startOffset
    (List.range pool.length)
  let chosen ← orRefuse found (.err (.review .noEligibleReviewer))
  let profile ← orRefuse (s.reviewer chosen) (.err (.review .reviewerNotFound))
  let currentAssignments ← orRefuse (fitsU 32 (profile.currentAssignments + 1)) .overflow
  let s := { s with
    reviewer := Function.update s.reviewer chosen (some { profile with currentAssignments })
    assignment := Function.update s.assignment (programId, applicationCommitment) (some chosen) }
  match mode with
  | .roundRobin | .loadBalanced =>
    let following ← orRefuse (fitsU 64 (startOffset + 1)) .overflow
    pure (chosen, { s with
      roundRobinCursor :=
        Function.update s.roundRobinCursor programId (following % max pool.length 1) })
  | .seededRandom _ => pure (chosen, s)

end Reviewers

section Privacy

/-- The common body of `request_correction` and `request_erasure`. -/
def fileRequest (env : Env contract) (s : State) (applicant : Address) (programId : Bytes32)
    (requestType : PrivacyRequestType) (targetDataHash : Bytes32) : Outcome (Nat × State) := do
  requireAuth env applicant
  refuseIf (s.application (applicant, programId) = none) (.err (.privacy .applicationNotFound))
  let requestId ← orRefuse (fitsU 32 (s.requestCounter + 1)) (.err (.privacy .counterOverflow))
  pure (requestId, { s with
    requestCounter := requestId
    request := Function.update s.request requestId
      (some { id := requestId, applicant, programId, requestType, requestedAt := env.timestamp,
              targetDataHash, status := .pending, processedAt := 0, denialReasonHash := 0,
              downstreamAddressed := false })
    applicantRequest := Function.update s.applicantRequest (applicant, programId) (some requestId) })

def requestCorrection (env : Env contract) (s : State) (applicant : Address)
    (programId newDataHash : Bytes32) : Outcome (Nat × State) :=
  fileRequest env s applicant programId .correction newDataHash

def requestErasure (env : Env contract) (s : State) (applicant : Address) (programId : Bytes32) :
    Outcome (Nat × State) :=
  fileRequest env s applicant programId .erasure 0

def requestDataExport (env : Env contract) (s : State) (applicant : Address) (programId : Bytes32) :
    Outcome (Nat × State) := do
  requireAuth env applicant
  refuseIf (s.application (applicant, programId) = none ∧ s.consent (applicant, programId) = none)
    (.err (.privacy .noExportableData))
  let previous := (s.applicantExportRequest (applicant, programId)).bind s.exportRequest
  refuseIf (previous.map DataExportRequest.status = some .pending)
    (.err (.privacy .exportAlreadyPending))
  let requestId ← orRefuse (fitsU 32 (s.exportRequestCounter + 1)) (.err (.privacy .counterOverflow))
  pure (requestId, { s with
    exportRequest := Function.update s.exportRequest requestId
      (some { id := requestId, applicant, programId, requestedAt := env.timestamp, status := .pending,
              resolvedAt := 0, exportHash := 0, consentHistoryHash := 0 })
    exportRequestCounter := requestId
    applicantExportRequest :=
      Function.update s.applicantExportRequest (applicant, programId) (some requestId) })

def cancelDataExport (env : Env contract) (s : State) (applicant : Address) (requestId : Nat) :
    Outcome State := do
  requireAuth env applicant
  let request ← orRefuse (s.exportRequest requestId) (.err (.privacy .exportRequestNotFound))
  refuseIf (request.applicant ≠ applicant) (.err (.privacy .unauthorized))
  refuseIf (request.status ≠ .pending) (.err (.privacy .exportRequestAlreadyResolved))
  pure { s with
    exportRequest := Function.update s.exportRequest requestId
      (some { request with status := .cancelled, resolvedAt := env.timestamp }) }

def completeDataExport (env : Env contract) (s : State) (admin : Address) (requestId : Nat)
    (exportHash consentHistoryHash : Bytes32) : Outcome State := do
  requirePrivacyAdmin env s admin
  refuseIf (exportHash = 0 ∨ consentHistoryHash = 0) (.err (.privacy .invalidExportHash))
  let request ← orRefuse (s.exportRequest requestId) (.err (.privacy .exportRequestNotFound))
  refuseIf (request.status ≠ .pending) (.err (.privacy .exportRequestAlreadyResolved))
  pure { s with
    exportRequest := Function.update s.exportRequest requestId
      (some { request with
        status := .completed
        resolvedAt := env.timestamp
        exportHash
        consentHistoryHash }) }

/-- The hash that an approved request leaves on the application. -/
def PrivacyRequest.outcome (request : PrivacyRequest) : Bytes32 :=
  match request.requestType with
  | .correction => request.targetDataHash
  | .erasure => 0

def processPrivacyRequest (env : Env contract) (s : State) (admin : Address) (requestId : Nat)
    (approve : Bool) (denialReasonHash : Bytes32) (downstreamAddressed : Bool) : Outcome State := do
  requirePrivacyAdmin env s admin
  let request ← orRefuse (s.request requestId) (.err (.privacy .requestNotFound))
  refuseIf (request.status ≠ .pending) (.err (.privacy .requestAlreadyProcessed))
  let decided : PrivacyRequest :=
    if approve = true then { request with status := .approved, denialReasonHash := 0 }
    else { request with status := .denied, denialReasonHash }
  let key := (request.applicant, request.programId)
  let application :=
    match approve, s.application key with
    | true, some app =>
      Function.update s.application key (some { app with dataHash := request.outcome })
    | _, _ => s.application
  pure { s with
    application
    request := Function.update s.request requestId
      (some { decided with processedAt := env.timestamp, downstreamAddressed }) }

end Privacy

/-- The state-changing entry points. -/
inductive Call where
  | initializeContract (admin : Address)
  | registerProgram (admin : Address) (programId : Bytes32) (deadline : Nat)
  | setProgramActive (admin : Address) (programId : Bytes32) (expectedVersion : Nat) (active : Bool)
  | publishFormSchema (admin : Address) (programId schemaHash : Bytes32)
  | publishConsentTerms (admin : Address) (programId termsHash : Bytes32)
  | recordConsent (applicant : Address) (programId : Bytes32)
  | revokeConsent (applicant : Address) (programId : Bytes32)
  | submitApplication (applicant : Address) (programId dataHash : Bytes32) (formVersion : Nat)
  | registerReviewer (admin reviewer : Address) (maxAssignments : Nat)
  | setReviewerActive (admin reviewer : Address) (active : Bool)
  | setReviewerPool (admin : Address) (programId : Bytes32) (reviewers : List Address)
  | setReviewMode (admin : Address) (programId : Bytes32) (mode : ReviewMode)
  | declareConflict (reviewer : Address) (programId applicantCommitment : Bytes32)
  | assignReviewer (admin : Address) (programId applicationCommitment : Bytes32)
      (mode : AssignmentMode)
  | requestCorrection (applicant : Address) (programId newDataHash : Bytes32)
  | requestErasure (applicant : Address) (programId : Bytes32)
  | requestDataExport (applicant : Address) (programId : Bytes32)
  | cancelDataExport (applicant : Address) (requestId : Nat)
  | completeDataExport (admin : Address) (requestId : Nat) (exportHash consentHistoryHash : Bytes32)
  | processPrivacyRequest (admin : Address) (requestId : Nat) (approve : Bool)
      (denialReasonHash : Bytes32) (downstreamAddressed : Bool)
  deriving DecidableEq

structure Input (contract : Address) where
  env : Env contract
  call : Call

/-- What an entry point returns. -/
inductive Answer where
  | done
  | version (version : Nat)
  | reviewer (reviewer : Address)
  | requestId (id : Nat)
  deriving DecidableEq, Repr

/-- One entry point applied to the state. -/
def execute (env : Env contract) (s : State) : Call → Outcome (Answer × State)
  | .initializeContract admin => (.done, ·) <$> initializeContract env s admin
  | .registerProgram admin programId deadline =>
    (.done, ·) <$> registerProgram env s admin programId deadline
  | .setProgramActive admin programId expectedVersion active =>
    Prod.map .version id <$> setProgramActive env s admin programId expectedVersion active
  | .publishFormSchema admin programId schemaHash =>
    Prod.map .version id <$> publishFormSchema env s admin programId schemaHash
  | .publishConsentTerms admin programId termsHash =>
    Prod.map .version id <$> publishConsentTerms env s admin programId termsHash
  | .recordConsent applicant programId =>
    Prod.map .version id <$> recordConsent env s applicant programId
  | .revokeConsent applicant programId => (.done, ·) <$> revokeConsent env s applicant programId
  | .submitApplication applicant programId dataHash formVersion =>
    (.done, ·) <$> submitApplication env s applicant programId dataHash formVersion
  | .registerReviewer admin reviewer maxAssignments =>
    (.done, ·) <$> registerReviewer env s admin reviewer maxAssignments
  | .setReviewerActive admin reviewer active =>
    (.done, ·) <$> setReviewerActive env s admin reviewer active
  | .setReviewerPool admin programId reviewers =>
    (.done, ·) <$> setReviewerPool env s admin programId reviewers
  | .setReviewMode admin programId mode => (.done, ·) <$> setReviewMode env s admin programId mode
  | .declareConflict reviewer programId applicantCommitment =>
    (.done, ·) <$> declareConflict env s reviewer programId applicantCommitment
  | .assignReviewer admin programId applicationCommitment mode =>
    Prod.map .reviewer id <$> assignReviewer env s admin programId applicationCommitment mode
  | .requestCorrection applicant programId newDataHash =>
    Prod.map .requestId id <$> requestCorrection env s applicant programId newDataHash
  | .requestErasure applicant programId =>
    Prod.map .requestId id <$> requestErasure env s applicant programId
  | .requestDataExport applicant programId =>
    Prod.map .requestId id <$> requestDataExport env s applicant programId
  | .cancelDataExport applicant requestId =>
    (.done, ·) <$> cancelDataExport env s applicant requestId
  | .completeDataExport admin requestId exportHash consentHistoryHash =>
    (.done, ·) <$> completeDataExport env s admin requestId exportHash consentHistoryHash
  | .processPrivacyRequest admin requestId approve denialReasonHash downstreamAddressed =>
    (.done, ·) <$> processPrivacyRequest env s admin requestId approve denialReasonHash
      downstreamAddressed

/-- The contract, whose failed calls the host rolls back. -/
def machine (contract : Address) : Machine State (Input contract) Answer (Abort Error) where
  step s i := execute i.env s i.call

end ChainVerse.ScholarshipApplications
