import ChainVerse.Framework.Machine
import ChainVerse.Host.Environment
import Mathlib.Logic.Function.Basic

namespace ChainVerse.ScholarshipReviews

def bpsDenominator : Nat := 10000

def maxCriteria : Nat := 12

def maxCriterionScore : Nat := 1000

def maxReviewers : Nat := 32

inductive ContractError where
  | notInitialized
  | alreadyInitialized
  | notAdmin
  | programNotFound
  | programAlreadyExists
  | programInactive
  | invalidReviewConfig
  | invalidRubric
  | noRubricPublished
  | rubricNotFound
  | reviewAlreadyExists
  | reviewerCapacityExceeded
  | invalidScores
  | insufficientReviews
  | reviewNotFound
  | versionOverflow
  | arithmeticOverflow
  | mixedRubricVersions
  | versionConflict
  deriving DecidableEq, Repr

abbrev Outcome (α : Type) := Except (Abort ContractError) α

structure Criterion where
  weightBps : Nat
  maxScore : Nat
  deriving DecidableEq, Repr

structure Rubric where
  version : Nat
  criteria : List Criterion
  publishedAt : Nat
  deriving DecidableEq

structure ProgramConfig where
  version : Nat
  active : Bool
  minReviews : Nat
  maxReviews : Nat
  deriving DecidableEq

structure Review where
  programId : Bytes32
  applicant : Address
  reviewer : Address
  rubricVersion : Nat
  scores : List Nat
  submittedAt : Nat
  deriving DecidableEq

/-- A program and an applicant. -/
abbrev Application := Bytes32 × Address

/-- The contract's storage. -/
structure State where
  admin : Option Address
  programConfig : Bytes32 → Option ProgramConfig
  rubricVersion : Bytes32 → Option Nat
  rubric : Bytes32 × Nat → Option Rubric
  review : Application × Address → Option Review
  /-- Empty where nothing is stored. -/
  reviewers : Application → List Address

def State.empty : State where
  admin := none
  programConfig := fun _ => none
  rubricVersion := fun _ => none
  rubric := fun _ => none
  review := fun _ => none
  reviewers := fun _ => []

variable {contract : Address}

section Helpers

def requireAdmin (env : Env contract) (s : State) (caller : Address) : Outcome Unit := do
  let admin ← orRefuse s.admin (.err .notInitialized)
  refuseIf (caller ≠ admin) (.err .notAdmin)
  requireAuth env caller

def saveProgramConfig (s : State) (programId : Bytes32) (config : ProgramConfig) : State :=
  { s with programConfig := Function.update s.programConfig programId (some config) }

def saveRubric (s : State) (programId : Bytes32) (rubric : Rubric) : State :=
  { s with
    rubric := Function.update s.rubric (programId, rubric.version) (some rubric)
    rubricVersion := Function.update s.rubricVersion programId (some rubric.version) }

def saveReview (s : State) (key : Application) (review : Review) : State :=
  { s with
    review := Function.update s.review (key, review.reviewer) (some review)
    reviewers := Function.update s.reviewers key (s.reviewers key ++ [review.reviewer]) }

def validateRubric (criteria : List Criterion) : Outcome Unit := do
  refuseIf (criteria.length = 0 ∨ maxCriteria < criteria.length) (.err .invalidRubric)
  let totalWeight ← criteria.foldlM (fun totalWeight criterion => do
    refuseIf (criterion.maxScore = 0 ∨ maxCriterionScore < criterion.maxScore) (.err .invalidRubric)
    orRefuse (fitsU 64 (totalWeight + criterion.weightBps)) (.err .arithmeticOverflow)) 0
  refuseIf (totalWeight ≠ bpsDenominator) (.err .invalidRubric)

def latestRubric (s : State) (programId : Bytes32) : Outcome Rubric := do
  let version ← orRefuse (s.rubricVersion programId) (.err .noRubricPublished)
  orRefuse (s.rubric (programId, version)) (.err .rubricNotFound)

/-- The weighted total of one review; the division by a maximal score of zero would trap. -/
def weightedTotal (rubric : Rubric) (scores : List Nat) : Outcome Nat := do
  refuseIf (scores.length ≠ rubric.criteria.length) (.err .invalidScores)
  let acc ← (rubric.criteria.zip scores).foldlM (fun acc (criterion, score) => do
    refuseIf (criterion.maxScore < score) (.err .invalidScores)
    refuseIf (criterion.maxScore = 0) .overflow
    let normalized := score * bpsDenominator / criterion.maxScore
    let weighted ← orRefuse (fitsU 64 (normalized * criterion.weightBps)) (.err .arithmeticOverflow)
    orRefuse (fitsU 64 (acc + weighted)) (.err .arithmeticOverflow)) 0
  pure (acc / bpsDenominator % 2^32)

end Helpers

section Programs

def initializeContract (env : Env contract) (s : State) (admin : Address) : Outcome State := do
  refuseIf (s.admin ≠ none) (.err .alreadyInitialized)
  requireAuth env admin
  pure { s with admin := some admin }

def registerProgram (env : Env contract) (s : State) (admin : Address) (programId : Bytes32)
    (minReviews maxReviews : Nat) : Outcome State := do
  requireAdmin env s admin
  refuseIf (minReviews = 0 ∨ maxReviews < minReviews ∨ maxReviewers < maxReviews)
    (.err .invalidReviewConfig)
  refuseIf (s.programConfig programId ≠ none) (.err .programAlreadyExists)
  pure (saveProgramConfig s programId { version := 1, active := true, minReviews, maxReviews })

def setProgramActive (env : Env contract) (s : State) (admin : Address) (programId : Bytes32)
    (expectedVersion : Nat) (active : Bool) : Outcome (Nat × State) := do
  requireAdmin env s admin
  let config ← orRefuse (s.programConfig programId) (.err .programNotFound)
  refuseIf (config.version ≠ expectedVersion) (.err .versionConflict)
  let version ← orRefuse (fitsU 32 (config.version + 1)) (.err .versionOverflow)
  pure (version, saveProgramConfig s programId { config with version := version, active := active })

def publishRubric (env : Env contract) (s : State) (admin : Address) (programId : Bytes32)
    (expectedVersion : Nat) (criteria : List Criterion) : Outcome (Nat × State) := do
  requireAdmin env s admin
  refuseIf (s.programConfig programId = none) (.err .programNotFound)
  validateRubric criteria
  let currentVersion := (s.rubricVersion programId).getD 0
  refuseIf (currentVersion ≠ expectedVersion) (.err .versionConflict)
  let nextVersion ← orRefuse (fitsU 32 (currentVersion + 1)) (.err .versionOverflow)
  pure (nextVersion, saveRubric s programId
    { version := nextVersion, criteria, publishedAt := env.timestamp })

end Programs

section Reviews

def submitReview (env : Env contract) (s : State) (reviewer : Address) (programId : Bytes32)
    (applicant : Address) (scores : List Nat) : Outcome (Nat × State) := do
  requireAuth env reviewer
  let config ← orRefuse (s.programConfig programId) (.err .programNotFound)
  refuseIf (config.active = false) (.err .programInactive)
  let rubric ← latestRubric s programId
  refuseIf (s.review ((programId, applicant), reviewer) ≠ none) (.err .reviewAlreadyExists)
  refuseIf (config.maxReviews ≤ (s.reviewers (programId, applicant)).length)
    (.err .reviewerCapacityExceeded)
  let total ← weightedTotal rubric scores
  pure (total, saveReview s (programId, applicant)
    { programId, applicant, reviewer, rubricVersion := rubric.version, scores,
      submittedAt := env.timestamp })

/-- What the reviews of an application add up to, all of them scored against the one rubric. -/
def sumOfTotals (s : State) (key : Application) (rubricVersion : Nat) (rubric : Rubric)
    (reviewers : List Address) : Outcome Nat :=
  reviewers.foldlM (fun sum reviewer => do
    let review ← orRefuse (s.review (key, reviewer)) (.err .reviewNotFound)
    refuseIf (review.rubricVersion ≠ rubricVersion) (.err .mixedRubricVersions)
    let total ← weightedTotal rubric review.scores
    orRefuse (fitsU 64 (sum + total)) (.err .arithmeticOverflow)) 0

def aggregateScore (s : State) (programId : Bytes32) (applicant : Address) : Outcome Nat := do
  let config ← orRefuse (s.programConfig programId) (.err .programNotFound)
  let reviewers := s.reviewers (programId, applicant)
  refuseIf (reviewers.length < config.minReviews) (.err .insufficientReviews)
  let firstReviewer ← orRefuse reviewers.head? (.err .reviewNotFound)
  let firstReview ← orRefuse (s.review ((programId, applicant), firstReviewer)) (.err .reviewNotFound)
  let rubricVersion := firstReview.rubricVersion
  let rubric ← orRefuse (s.rubric (programId, rubricVersion)) (.err .rubricNotFound)
  let sum ← sumOfTotals s (programId, applicant) rubricVersion rubric reviewers
  pure (sum / reviewers.length % 2^32)

end Reviews

/-- The state-changing entry points. -/
inductive Call where
  | initializeContract (admin : Address)
  | registerProgram (admin : Address) (programId : Bytes32) (minReviews maxReviews : Nat)
  | setProgramActive (admin : Address) (programId : Bytes32) (expectedVersion : Nat) (active : Bool)
  | publishRubric (admin : Address) (programId : Bytes32) (expectedVersion : Nat)
      (criteria : List Criterion)
  | submitReview (reviewer : Address) (programId : Bytes32) (applicant : Address) (scores : List Nat)
  deriving DecidableEq, Repr

structure Input (contract : Address) where
  env : Env contract
  call : Call

/-- What an entry point returns. -/
inductive Answer where
  | done
  | version (version : Nat)
  | total (total : Nat)
  deriving DecidableEq, Repr

/-- One entry point applied to the state. -/
def execute (env : Env contract) (s : State) : Call → Outcome (Answer × State)
  | .initializeContract admin => (.done, ·) <$> initializeContract env s admin
  | .registerProgram admin programId minReviews maxReviews =>
    (.done, ·) <$> registerProgram env s admin programId minReviews maxReviews
  | .setProgramActive admin programId expectedVersion active =>
    Prod.map .version id <$> setProgramActive env s admin programId expectedVersion active
  | .publishRubric admin programId expectedVersion criteria =>
    Prod.map .version id <$> publishRubric env s admin programId expectedVersion criteria
  | .submitReview reviewer programId applicant scores =>
    Prod.map .total id <$> submitReview env s reviewer programId applicant scores

def machine (contract : Address) : Machine State (Input contract) Answer (Abort ContractError) where
  step s i := execute i.env s i.call

end ChainVerse.ScholarshipReviews
