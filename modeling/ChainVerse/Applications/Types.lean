import ChainVerse.Host.Environment

namespace ChainVerse.MentorshipApplicationsContract

section Types

def maxQuestions : Nat := 32
def maxAnswers : Nat := 32
def maxQueue : Nat := 256
def maxReviewers : Nat := 32
def maxAuditEntries : Nat := 64

inductive ContractError where
  | notInitialized
  | alreadyInitialized
  | notAdmin
  | notAuthorized
  | programNotFound
  | programAlreadyExists
  | programInactive
  | deadlinePassed
  | versionOverflow
  | noFormPublished
  | formVersionNotFound
  | invalidForm
  | draftNotFound
  | draftConflict
  | tooManyAnswers
  | duplicateAnswer
  | answerNotInForm
  | answerNotVisible
  | missingRequiredAnswer
  | duplicateApplication
  | applicationNotFound
  | noConsentTermsPublished
  | consentNotFound
  | consentRevoked
  | consentOutOfDate
  | consentRequired
  | alreadyReviewer
  | notReviewer
  | reviewerPoolFull
  | reviewerAtCapacity
  | assignmentConflict
  | applicationAlreadyDecided
  | conflictOfInterest
  | notAssignedReviewer
  | queueFull
  | auditTrailFull
  | invalidFilter
  | invalidCapacity
  | invalidDataHash
  | invalidAnswerHash
  | invalidConsentTerms
  | invalidDecision
  deriving DecidableEq, Repr

abbrev Outcome (α : Type) := Except (Abort ContractError) α

structure Program where
  active : Bool
  deadline : Nat
  deriving DecidableEq, Repr

inductive QuestionType where
  | shortText
  | longText
  | email
  | number
  | choice
  | multiChoice
  | date
  deriving DecidableEq, Repr

structure VisibilityCondition where
  /-- Zero for a question that is always visible. -/
  dependsOn : Nat
  requiredAnswerHash : Option Bytes32
  deriving DecidableEq, Repr

structure Question where
  id : Nat
  kind : QuestionType
  required : Bool
  order : Nat
  labelHash : Bytes32
  helpHash : Bytes32
  optionsHash : Option Bytes32
  visibleIf : VisibilityCondition
  deriving DecidableEq, Repr

structure MentorshipForm where
  programId : Bytes32
  version : Nat
  schemaHash : Bytes32
  questions : List Question
  publishedAt : Nat
  deriving DecidableEq, Repr

/-- Without a hash, the patch clears the field. -/
structure AnswerPatch where
  questionId : Nat
  answerHash : Option Bytes32
  deriving DecidableEq, Repr

structure Answer where
  questionId : Nat
  answerHash : Bytes32
  deriving DecidableEq, Repr

structure DraftAnswer where
  questionId : Nat
  answerHash : Bytes32
  updatedAt : Nat
  deriving DecidableEq, Repr

structure Draft where
  applicant : Address
  programId : Bytes32
  formVersion : Nat
  /-- The optimistic concurrency token. -/
  revision : Nat
  /-- The idempotency key of the last save. -/
  requestToken : Bytes32
  createdAt : Nat
  lastSavedAt : Nat
  answers : List DraftAnswer
  deriving DecidableEq, Repr

structure DraftReceipt where
  revision : Nat
  savedAt : Nat
  requestToken : Bytes32
  /-- Set when the call was a retry that changed nothing. -/
  replayed : Bool
  deriving DecidableEq, Repr

structure Application where
  applicationId : Nat
  applicant : Address
  programId : Bytes32
  formVersion : Nat
  consentVersion : Nat
  answersCount : Nat
  dataHash : Bytes32
  submittedAt : Nat
  deriving DecidableEq, Repr

structure ConsentRecord where
  version : Nat
  acceptedAt : Nat
  revoked : Bool
  revokedAt : Nat
  deriving DecidableEq, Repr

inductive Priority where
  | low
  | normal
  | high
  | urgent
  deriving DecidableEq, Repr

inductive ReviewStatus where
  | pending
  | assigned
  | decided
  deriving DecidableEq, Repr

inductive DecisionOutcome where
  | undecided
  | accepted
  | rejected
  deriving DecidableEq, Repr

structure ReviewerProfile where
  capacity : Nat
  active : Bool
  deriving DecidableEq, Repr

structure ReviewState where
  applicationId : Nat
  priority : Priority
  status : ReviewStatus
  assignee : Option Address
  assignedAt : Nat
  /-- Zero for no due date. -/
  dueAt : Nat
  decidedBy : Option Address
  decidedAt : Nat
  outcome : DecisionOutcome
  deriving DecidableEq, Repr

structure ReviewerWorkload where
  capacity : Nat
  assignedActive : Nat
  decided : Nat
  overdue : Nat
  deriving DecidableEq, Repr

inductive QueueAction where
  | priorityChanged
  | assigned
  | conflictDeclared
  | conflictCleared
  | decisionRecorded
  deriving DecidableEq, Repr

structure AuditEntry where
  actor : Address
  action : QueueAction
  recordedAt : Nat
  deriving DecidableEq, Repr

/-- The application ids start at 1; the queues, lists and trails are empty where nothing is stored. -/
structure State where
  admin : Option Address
  nextApplicationId : Nat
  program : Bytes32 → Option Program
  formVersion : Bytes32 → Option Nat
  form : Bytes32 × Nat → Option MentorshipForm
  consentVersion : Bytes32 → Option Nat
  consentTerms : Bytes32 × Nat → Option Bytes32
  consent : Address × Bytes32 → Option ConsentRecord
  draft : Address × Bytes32 → Option Draft
  applicationByApplicant : Address × Bytes32 → Option Nat
  application : Nat → Option Application
  queue : Bytes32 → List Nat
  reviewer : Address × Bytes32 → Option ReviewerProfile
  reviewerList : Bytes32 → List Address
  review : Nat → Option ReviewState
  conflict : Address × Nat → Bool
  audit : Nat → List AuditEntry

def State.empty : State where
  admin := none
  nextApplicationId := 1
  program := fun _ => none
  formVersion := fun _ => none
  form := fun _ => none
  consentVersion := fun _ => none
  consentTerms := fun _ => none
  consent := fun _ => none
  draft := fun _ => none
  applicationByApplicant := fun _ => none
  application := fun _ => none
  queue := fun _ => []
  reviewer := fun _ => none
  reviewerList := fun _ => []
  review := fun _ => none
  conflict := fun _ => false
  audit := fun _ => []

end Types

section Publishing

def ensureCommitment (hash : Bytes32) : Outcome Unit := refuseIf (hash = 0) (.err .invalidForm)

def QuestionType.isChoice : QuestionType → Bool
  | .choice | .multiChoice => true
  | _ => false

/-- The checks of one question, after the questions before it. -/
def validateQuestion (earlier : List Question) (question : Question) : Outcome Unit := do
  refuseIf (question.id = 0) (.err .invalidForm)
  ensureCommitment question.labelHash
  ensureCommitment question.helpHash
  match question.optionsHash with
  | some options =>
    refuseIf (question.kind.isChoice = false) (.err .invalidForm)
    ensureCommitment options
  | none => refuseIf (question.kind.isChoice = true) (.err .invalidForm)
  match earlier.getLast? with
  | some previous =>
    refuseIf (question.order ≤ previous.order ∨ question.id = previous.id) (.err .invalidForm)
  | none => pure ()
  if question.visibleIf.dependsOn ≠ 0 then
    refuseIf (¬ ∃ q ∈ earlier, q.id = question.visibleIf.dependsOn) (.err .invalidForm)
    match question.visibleIf.requiredAnswerHash with
    | some hash => ensureCommitment hash
    | none => pure ()
  else
    refuseIf (question.visibleIf.requiredAnswerHash.isSome = true) (.err .invalidForm)

def validateQuestions (earlier : List Question) : List Question → Outcome Unit
  | [] => pure ()
  | question :: rest => do
    validateQuestion earlier question
    validateQuestions (earlier ++ [question]) rest

def validateForm (questions : List Question) : Outcome Unit := do
  refuseIf (questions = [] ∨ maxQuestions < questions.length) (.err .invalidForm)
  validateQuestions [] questions
  refuseIf (¬ (questions.map Question.id).Nodup) (.err .invalidForm)

end Publishing

section Answering

def questionIndex (questions : List Question) (id : Nat) : Option Nat :=
  questions.findIdx? fun question => question.id = id

def findAnswer (answers : List Answer) (questionId : Nat) : Option Answer :=
  answers.find? fun answer => answer.questionId = questionId

/-- The first loop of `check_answers`. -/
def checkAnswerIds (form : MentorshipForm) : List Answer → Outcome Unit
  | [] => pure ()
  | answer :: rest => do
    refuseIf (questionIndex form.questions answer.questionId = none) (.err .answerNotInForm)
    refuseIf (answer.answerHash = 0) (.err .invalidAnswerHash)
    refuseIf (∃ other ∈ rest, other.questionId = answer.questionId) (.err .duplicateAnswer)
    checkAnswerIds form rest

def isVisible (answers : List Answer) (question : Question) : Bool :=
  if question.visibleIf.dependsOn ≠ 0 then
    match findAnswer answers question.visibleIf.dependsOn with
    | none => false
    | some parent =>
      match question.visibleIf.requiredAnswerHash with
      | some expected => parent.answerHash = expected
      | none => true
  else true

/-- The second loop of `check_answers`. -/
def checkQuestions (answers : List Answer) : List Question → Outcome Unit
  | [] => pure ()
  | question :: rest => do
    let answered := (findAnswer answers question.id).isSome
    refuseIf (isVisible answers question = false ∧ answered = true) (.err .answerNotVisible)
    refuseIf (isVisible answers question = true ∧ question.required = true ∧ answered = false)
      (.err .missingRequiredAnswer)
    checkQuestions answers rest

def checkAnswers (form : MentorshipForm) (answers : List Answer) : Outcome Unit := do
  refuseIf (maxAnswers < answers.length) (.err .tooManyAnswers)
  checkAnswerIds form answers
  checkQuestions answers form.questions

end Answering

section Patching

def findDraftAnswer (answers : List DraftAnswer) (questionId : Nat) : Option Nat :=
  answers.findIdx? fun answer => answer.questionId = questionId

/-- The first loop of `apply_patches`. -/
def checkPatches (form : MentorshipForm) : List AnswerPatch → Outcome Unit
  | [] => pure ()
  | patch :: rest => do
    refuseIf (questionIndex form.questions patch.questionId = none) (.err .answerNotInForm)
    refuseIf (∃ other ∈ rest, other.questionId = patch.questionId) (.err .duplicateAnswer)
    checkPatches form rest

def applyPatch (now : Nat) (answers : List DraftAnswer) (patch : AnswerPatch) :
    Outcome (List DraftAnswer) :=
  match patch.answerHash with
  | some hash => do
    refuseIf (hash = 0) (.err .invalidAnswerHash)
    match findDraftAnswer answers patch.questionId with
    | some index => pure (answers.modify index ({ · with answerHash := hash, updatedAt := now }))
    | none =>
      refuseIf (maxAnswers ≤ answers.length) (.err .tooManyAnswers)
      pure (answers ++ [⟨patch.questionId, hash, now⟩])
  | none =>
    match findDraftAnswer answers patch.questionId with
    | some index => pure (answers.eraseIdx index)
    | none => pure answers

def applyPatches (form : MentorshipForm) (answers : List DraftAnswer) (updates : List AnswerPatch)
    (now : Nat) : Outcome (List DraftAnswer) := do
  refuseIf (maxAnswers < updates.length) (.err .tooManyAnswers)
  checkPatches form updates
  updates.foldlM (applyPatch now) answers

end Patching

end ChainVerse.MentorshipApplicationsContract
