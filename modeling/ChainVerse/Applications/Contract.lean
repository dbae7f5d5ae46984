import ChainVerse.Applications.Types
import ChainVerse.Framework.Machine
import Mathlib.Logic.Function.Basic

namespace ChainVerse.MentorshipApplicationsContract

variable {contract : Address}

section Helpers

def isAdmin (s : State) (caller : Address) : Bool := s.admin = some caller

def requireAdmin (env : Env contract) (s : State) (caller : Address) : Outcome Unit := do
  let admin ← orRefuse s.admin (.err .notInitialized)
  refuseIf (admin ≠ caller) (.err .notAdmin)
  requireAuth env caller

def requireActiveProgram (env : Env contract) (s : State) (programId : Bytes32) :
    Outcome Program := do
  let program ← orRefuse (s.program programId) (.err .programNotFound)
  refuseIf (program.active = false) (.err .programInactive)
  refuseIf (program.deadline < env.timestamp) (.err .deadlinePassed)
  pure program

def loadForm (s : State) (programId : Bytes32) (version : Nat) : Outcome MentorshipForm :=
  orRefuse (s.form (programId, version)) (.err .formVersionNotFound)

def loadApplication (s : State) (applicationId : Nat) : Outcome Application :=
  orRefuse (s.application applicationId) (.err .applicationNotFound)

def loadReview (s : State) (applicationId : Nat) : Outcome ReviewState :=
  orRefuse (s.review applicationId) (.err .applicationNotFound)

def isActiveReviewer (s : State) (programId : Bytes32) (reviewer : Address) : Bool :=
  match s.reviewer (reviewer, programId) with
  | some profile => profile.active
  | none => false

def requireReviewer (env : Env contract) (s : State) (programId : Bytes32) (reviewer : Address) :
    Outcome Unit := do
  refuseIf (isActiveReviewer s programId reviewer = false) (.err .notReviewer)
  requireAuth env reviewer

def requireReviewerOrAdmin (env : Env contract) (s : State) (programId : Bytes32)
    (caller : Address) : Outcome Unit :=
  if isActiveReviewer s programId caller || isAdmin s caller then requireAuth env caller
  else .error (.err .notAuthorized)

def getReviewer (s : State) (programId : Bytes32) (reviewer : Address) : Outcome ReviewerProfile :=
  orRefuse (s.reviewer (reviewer, programId)) (.err .notReviewer)

def saveReview (s : State) (applicationId : Nat) (review : ReviewState) : State :=
  { s with review := Function.update s.review applicationId (some review) }

def appendAudit (env : Env contract) (s : State) (applicationId : Nat) (actor : Address)
    (action : QueueAction) : Outcome State := do
  refuseIf (maxAuditEntries ≤ (s.audit applicationId).length) (.err .auditTrailFull)
  pure { s with
    audit := Function.update s.audit applicationId
      (s.audit applicationId ++ [⟨actor, action, env.timestamp⟩]) }

/-- The body of the loop of `reviewer_workload`. -/
def countReview (now : Nat) (reviewer : Address) (workload : ReviewerWorkload)
    (review : ReviewState) : ReviewerWorkload :=
  if review.assignee ≠ some reviewer then workload
  else if review.status = .decided then { workload with decided := workload.decided + 1 }
  else { workload with
    assignedActive := workload.assignedActive + 1
    overdue := workload.overdue + if review.dueAt ≠ 0 ∧ review.dueAt < now then 1 else 0 }

def reviewerWorkload (env : Env contract) (s : State) (programId : Bytes32) (reviewer : Address) :
    ReviewerWorkload :=
  let capacity := (s.reviewer (reviewer, programId)).elim 0 ReviewerProfile.capacity
  ((s.queue programId).filterMap s.review).foldl (countReview env.timestamp reviewer)
    ⟨capacity, 0, 0, 0⟩

end Helpers

section Administration

def initializeContract (env : Env contract) (s : State) (admin : Address) : Outcome State := do
  refuseIf (s.admin.isSome = true) (.err .alreadyInitialized)
  requireAuth env admin
  pure { s with admin := some admin }

def registerProgram (env : Env contract) (s : State) (admin : Address) (programId : Bytes32)
    (deadline : Nat) : Outcome State := do
  requireAdmin env s admin
  refuseIf ((s.program programId).isSome = true) (.err .programAlreadyExists)
  pure { s with program := Function.update s.program programId (some ⟨true, deadline⟩) }

def setProgramActive (env : Env contract) (s : State) (admin : Address) (programId : Bytes32)
    (active : Bool) : Outcome State := do
  requireAdmin env s admin
  let program ← orRefuse (s.program programId) (.err .programNotFound)
  pure { s with
    program := Function.update s.program programId (some { program with active := active }) }

def publishForm (env : Env contract) (s : State) (admin : Address) (programId schemaHash : Bytes32)
    (questions : List Question) : Outcome (Nat × State) := do
  requireAdmin env s admin
  refuseIf (s.program programId = none) (.err .programNotFound)
  ensureCommitment schemaHash
  validateForm questions
  let next ← orRefuse (fitsU 32 ((s.formVersion programId).getD 0 + 1)) (.err .versionOverflow)
  let form : MentorshipForm := ⟨programId, next, schemaHash, questions, env.timestamp⟩
  pure (next, { s with
    form := Function.update s.form (programId, next) (some form)
    formVersion := Function.update s.formVersion programId (some next) })

def publishConsentTerms (env : Env contract) (s : State) (admin : Address)
    (programId termsHash : Bytes32) : Outcome (Nat × State) := do
  requireAdmin env s admin
  refuseIf (s.program programId = none) (.err .programNotFound)
  refuseIf (termsHash = 0) (.err .invalidConsentTerms)
  let next ← orRefuse (fitsU 32 ((s.consentVersion programId).getD 0 + 1)) (.err .versionOverflow)
  pure (next, { s with
    consentTerms := Function.update s.consentTerms (programId, next) (some termsHash)
    consentVersion := Function.update s.consentVersion programId (some next) })

def recordConsent (env : Env contract) (s : State) (applicant : Address) (programId : Bytes32) :
    Outcome (Nat × State) := do
  requireAuth env applicant
  let latest ← orRefuse (s.consentVersion programId) (.err .noConsentTermsPublished)
  pure (latest, { s with
    consent := Function.update s.consent (applicant, programId)
      (some ⟨latest, env.timestamp, false, 0⟩) })

def revokeConsent (env : Env contract) (s : State) (applicant : Address) (programId : Bytes32) :
    Outcome State := do
  requireAuth env applicant
  let record ← orRefuse (s.consent (applicant, programId)) (.err .consentNotFound)
  pure { s with
    consent := Function.update s.consent (applicant, programId)
      (some { record with revoked := true, revokedAt := env.timestamp }) }

end Administration

section Drafting

/-- A retry is answered before any other check. -/
def autosaveDraft (env : Env contract) (s : State) (applicant : Address) (programId : Bytes32)
    (baseRevision : Nat) (requestToken : Bytes32) (updates : List AnswerPatch) :
    Outcome (DraftReceipt × State) := do
  requireAuth env applicant
  let stored := s.draft (applicant, programId)
  if let some draft := stored then
    if draft.requestToken = requestToken then
      return (⟨draft.revision, draft.lastSavedAt, requestToken, true⟩, s)
  refuseIf ((s.applicationByApplicant (applicant, programId)).isSome = true)
    (.err .duplicateApplication)
  let _ ← requireActiveProgram env s programId
  let now := env.timestamp
  match stored with
  | some draft =>
    refuseIf (draft.revision ≠ baseRevision) (.err .draftConflict)
    let form ← loadForm s programId draft.formVersion
    let answers ← applyPatches form draft.answers updates now
    let revision ← orRefuse (fitsU 32 (draft.revision + 1)) (.err .versionOverflow)
    let updated : Draft := ⟨applicant, programId, draft.formVersion, revision, requestToken,
      draft.createdAt, now, answers⟩
    pure (⟨revision, now, requestToken, false⟩,
      { s with draft := Function.update s.draft (applicant, programId) (some updated) })
  | none =>
    refuseIf (baseRevision ≠ 0) (.err .draftConflict)
    let formVersion ← orRefuse (s.formVersion programId) (.err .noFormPublished)
    let form ← loadForm s programId formVersion
    let answers ← applyPatches form [] updates now
    let draft : Draft := ⟨applicant, programId, formVersion, 1, requestToken, now, now, answers⟩
    pure (⟨1, now, requestToken, false⟩,
      { s with draft := Function.update s.draft (applicant, programId) (some draft) })

def discardDraft (env : Env contract) (s : State) (applicant : Address) (programId : Bytes32)
    (expectedRevision : Nat) : Outcome State := do
  requireAuth env applicant
  let draft ← orRefuse (s.draft (applicant, programId)) (.err .draftNotFound)
  refuseIf (draft.revision ≠ expectedRevision) (.err .draftConflict)
  pure { s with draft := Function.update s.draft (applicant, programId) none }

def submitApplication (env : Env contract) (s : State) (applicant : Address) (programId : Bytes32)
    (formVersion : Nat) (answers : List Answer) (dataHash : Bytes32) (consent : Bool) :
    Outcome (Nat × State) := do
  requireAuth env applicant
  let _ ← requireActiveProgram env s programId
  let form ← loadForm s programId formVersion
  checkAnswers form answers
  refuseIf (consent = false) (.err .consentRequired)
  refuseIf (dataHash = 0) (.err .invalidDataHash)
  let consentVersion ← orRefuse (s.consentVersion programId) (.err .noConsentTermsPublished)
  let record ← orRefuse (s.consent (applicant, programId)) (.err .consentNotFound)
  refuseIf (record.revoked = true) (.err .consentRevoked)
  refuseIf (record.version ≠ consentVersion) (.err .consentOutOfDate)
  refuseIf ((s.applicationByApplicant (applicant, programId)).isSome = true)
    (.err .duplicateApplication)
  refuseIf (maxQueue ≤ (s.queue programId).length) (.err .queueFull)
  let applicationId := s.nextApplicationId
  let following ← orRefuse (fitsU 64 (applicationId + 1)) (.err .versionOverflow)
  let application : Application := ⟨applicationId, applicant, programId, formVersion,
    record.version, answers.length, dataHash, env.timestamp⟩
  let review : ReviewState := ⟨applicationId, .normal, .pending, none, 0, 0, none, 0, .undecided⟩
  pure (applicationId, { s with
    nextApplicationId := following
    application := Function.update s.application applicationId (some application)
    applicationByApplicant :=
      Function.update s.applicationByApplicant (applicant, programId) (some applicationId)
    review := Function.update s.review applicationId (some review)
    queue := Function.update s.queue programId (s.queue programId ++ [applicationId])
    draft := Function.update s.draft (applicant, programId) none })

end Drafting

section Reviewing

def grantReviewer (env : Env contract) (s : State) (admin : Address) (programId : Bytes32)
    (reviewer : Address) (capacity : Nat) : Outcome State := do
  requireAdmin env s admin
  refuseIf (s.program programId = none) (.err .programNotFound)
  refuseIf (capacity = 0) (.err .invalidCapacity)
  refuseIf (isActiveReviewer s programId reviewer = true) (.err .alreadyReviewer)
  let list := s.reviewerList programId
  refuseIf (reviewer ∉ list ∧ maxReviewers ≤ list.length) (.err .reviewerPoolFull)
  pure { s with
    reviewerList := Function.update s.reviewerList programId
      (if reviewer ∈ list then list else list ++ [reviewer])
    reviewer := Function.update s.reviewer (reviewer, programId) (some ⟨capacity, true⟩) }

def revokeReviewer (env : Env contract) (s : State) (admin : Address) (programId : Bytes32)
    (reviewer : Address) : Outcome State := do
  requireAdmin env s admin
  let profile ← getReviewer s programId reviewer
  refuseIf (profile.active = false) (.err .notReviewer)
  pure { s with
    reviewer := Function.update s.reviewer (reviewer, programId)
      (some { profile with active := false }) }

def setPriority (env : Env contract) (s : State) (caller : Address) (applicationId : Nat)
    (priority : Priority) : Outcome State := do
  let application ← loadApplication s applicationId
  requireReviewerOrAdmin env s application.programId caller
  let review ← loadReview s applicationId
  refuseIf (review.status = .decided) (.err .applicationAlreadyDecided)
  if review.priority = priority then
    return s
  let s ← appendAudit env s applicationId caller .priorityChanged
  pure (saveReview s applicationId { review with priority := priority })

/-- The check that a new assignee can take one more application. -/
def requireCapacity (env : Env contract) (s : State) (programId : Bytes32) (reviewer : Address) :
    Outcome Unit := do
  let profile ← getReviewer s programId reviewer
  let workload := reviewerWorkload env s programId reviewer
  refuseIf (profile.capacity ≤ workload.assignedActive) (.err .reviewerAtCapacity)

def assignReviewer (env : Env contract) (s : State) (caller : Address) (applicationId : Nat)
    (reviewer : Address) (expectedAssignee : Option Address) (dueAt : Nat) : Outcome State := do
  let application ← loadApplication s applicationId
  requireReviewerOrAdmin env s application.programId caller
  refuseIf (isActiveReviewer s application.programId reviewer = false) (.err .notReviewer)
  let review ← loadReview s applicationId
  refuseIf (review.status = .decided) (.err .applicationAlreadyDecided)
  refuseIf (review.assignee ≠ expectedAssignee) (.err .assignmentConflict)
  if review.assignee = some reviewer ∧ review.dueAt = dueAt then
    return s
  if review.assignee ≠ some reviewer then
    requireCapacity env s application.programId reviewer
  let s ← appendAudit env s applicationId caller .assigned
  pure (saveReview s applicationId { review with
    assignee := some reviewer, assignedAt := env.timestamp, dueAt := dueAt, status := .assigned })

def declareConflict (env : Env contract) (s : State) (reviewer : Address) (applicationId : Nat)
    (declared : Bool) : Outcome State := do
  let application ← loadApplication s applicationId
  requireReviewer env s application.programId reviewer
  let review ← loadReview s applicationId
  refuseIf (review.status = .decided) (.err .applicationAlreadyDecided)
  if s.conflict (reviewer, applicationId) = declared then
    return s
  let s ← appendAudit env s applicationId reviewer
    (if declared then .conflictDeclared else .conflictCleared)
  pure { s with conflict := Function.update s.conflict (reviewer, applicationId) declared }

def recordDecision (env : Env contract) (s : State) (reviewer : Address) (applicationId : Nat)
    (outcome : DecisionOutcome) : Outcome State := do
  let application ← loadApplication s applicationId
  requireReviewer env s application.programId reviewer
  let review ← loadReview s applicationId
  refuseIf (review.status = .decided) (.err .applicationAlreadyDecided)
  refuseIf (outcome = .undecided) (.err .invalidDecision)
  refuseIf (review.assignee ≠ some reviewer) (.err .notAssignedReviewer)
  refuseIf (s.conflict (reviewer, applicationId) = true) (.err .conflictOfInterest)
  let s ← appendAudit env s applicationId reviewer .decisionRecorded
  pure (saveReview s applicationId { review with
    status := .decided, decidedBy := some reviewer, decidedAt := env.timestamp,
    outcome := outcome })

end Reviewing

/-- The state-changing entry points. -/
inductive Call where
  | initializeContract (admin : Address)
  | registerProgram (admin : Address) (programId : Bytes32) (deadline : Nat)
  | setProgramActive (admin : Address) (programId : Bytes32) (active : Bool)
  | publishForm (admin : Address) (programId schemaHash : Bytes32) (questions : List Question)
  | publishConsentTerms (admin : Address) (programId termsHash : Bytes32)
  | recordConsent (applicant : Address) (programId : Bytes32)
  | revokeConsent (applicant : Address) (programId : Bytes32)
  | autosaveDraft (applicant : Address) (programId : Bytes32) (baseRevision : Nat)
      (requestToken : Bytes32) (updates : List AnswerPatch)
  | discardDraft (applicant : Address) (programId : Bytes32) (expectedRevision : Nat)
  | submitApplication (applicant : Address) (programId : Bytes32) (formVersion : Nat)
      (answers : List Answer) (dataHash : Bytes32) (consent : Bool)
  | grantReviewer (admin : Address) (programId : Bytes32) (reviewer : Address) (capacity : Nat)
  | revokeReviewer (admin : Address) (programId : Bytes32) (reviewer : Address)
  | setPriority (caller : Address) (applicationId : Nat) (priority : Priority)
  | assignReviewer (caller : Address) (applicationId : Nat) (reviewer : Address)
      (expectedAssignee : Option Address) (dueAt : Nat)
  | declareConflict (reviewer : Address) (applicationId : Nat) (declared : Bool)
  | recordDecision (reviewer : Address) (applicationId : Nat) (outcome : DecisionOutcome)
  deriving DecidableEq, Repr

/-- What an entry point returns. -/
inductive Reply where
  | done
  | version (version : Nat)
  | receipt (receipt : DraftReceipt)
  | applicationId (applicationId : Nat)
  deriving DecidableEq, Repr

structure Input (contract : Address) where
  env : Env contract
  call : Call

/-- One entry point applied to the state. -/
def execute (env : Env contract) (s : State) : Call → Outcome (Reply × State)
  | .initializeContract admin => (.done, ·) <$> initializeContract env s admin
  | .registerProgram admin programId deadline =>
    (.done, ·) <$> registerProgram env s admin programId deadline
  | .setProgramActive admin programId active =>
    (.done, ·) <$> setProgramActive env s admin programId active
  | .publishForm admin programId schemaHash questions =>
    Prod.map .version id <$> publishForm env s admin programId schemaHash questions
  | .publishConsentTerms admin programId termsHash =>
    Prod.map .version id <$> publishConsentTerms env s admin programId termsHash
  | .recordConsent applicant programId =>
    Prod.map .version id <$> recordConsent env s applicant programId
  | .revokeConsent applicant programId => (.done, ·) <$> revokeConsent env s applicant programId
  | .autosaveDraft applicant programId baseRevision requestToken updates =>
    Prod.map .receipt id <$>
      autosaveDraft env s applicant programId baseRevision requestToken updates
  | .discardDraft applicant programId expectedRevision =>
    (.done, ·) <$> discardDraft env s applicant programId expectedRevision
  | .submitApplication applicant programId formVersion answers dataHash consent =>
    Prod.map .applicationId id <$>
      submitApplication env s applicant programId formVersion answers dataHash consent
  | .grantReviewer admin programId reviewer capacity =>
    (.done, ·) <$> grantReviewer env s admin programId reviewer capacity
  | .revokeReviewer admin programId reviewer =>
    (.done, ·) <$> revokeReviewer env s admin programId reviewer
  | .setPriority caller applicationId priority =>
    (.done, ·) <$> setPriority env s caller applicationId priority
  | .assignReviewer caller applicationId reviewer expectedAssignee dueAt =>
    (.done, ·) <$> assignReviewer env s caller applicationId reviewer expectedAssignee dueAt
  | .declareConflict reviewer applicationId declared =>
    (.done, ·) <$> declareConflict env s reviewer applicationId declared
  | .recordDecision reviewer applicationId outcome =>
    (.done, ·) <$> recordDecision env s reviewer applicationId outcome

def machine (contract : Address) : Machine State (Input contract) Reply (Abort ContractError) where
  step s i := execute i.env s i.call

/-- Calls that set up a program with a form of one question. -/
def sampleProgram : List (Input ⟨0⟩) :=
  [⟨.sample, .initializeContract ⟨1⟩⟩, ⟨.sample, .registerProgram ⟨1⟩ 5 100⟩,
    ⟨.sample, .publishForm ⟨1⟩ 5 8 [⟨1, .shortText, false, 1, 8, 8, none, ⟨0, none⟩⟩]⟩]

end ChainVerse.MentorshipApplicationsContract
