import ChainVerse.Framework.Machine
import ChainVerse.Host.Environment
import Mathlib.Logic.Function.Basic

namespace ChainVerse.MentorshipConduct

def maxPolicyVersion : Nat := 1000

inductive ContractError where
  | notInitialized
  | alreadyInitialized
  | notAdmin
  | notAuthorized
  | policyNotFound
  | policyRetired
  | policyNotApplicable
  | invalidPolicyHash
  | policyAlreadyRetired
  | policyVersionCapReached
  | acceptanceRequired
  | acceptanceNotFound
  | engagementNotFound
  | engagementAlreadyExists
  | engagementNotPending
  | engagementNotActive
  | engagementNotSuspended
  | invalidParties
  | invalidEngagementId
  | breachAlreadyRecorded
  | breachNotFound
  | breachAlreadyResolved
  | versionOverflow
  | invalidEffectiveTime
  | invalidEvidenceHash
  deriving DecidableEq, Repr

abbrev Outcome (α : Type) := Except (Abort ContractError) α

inductive Role where
  | mentor
  | mentee
  deriving DecidableEq, Repr

inductive Audience where
  | mentor
  | mentee
  | both
  deriving DecidableEq, Repr

def Audience.appliesTo : Audience → Role → Bool
  | .both, _ => true
  | .mentor, .mentor => true
  | .mentee, .mentee => true
  | _, _ => false

structure Policy where
  version : Nat
  audience : Audience
  policyHash : Bytes32
  effectiveAt : Nat
  mandatory : Bool
  publishedAt : Nat
  retired : Bool
  deriving DecidableEq

structure Acceptance where
  actor : Address
  role : Role
  policyVersion : Nat
  policyHash : Bytes32
  acceptedAt : Nat
  deriving DecidableEq

inductive EngagementState where
  | pending
  | active
  | suspended
  | ended
  deriving DecidableEq, Repr

structure Engagement where
  id : Bytes32
  mentor : Address
  mentee : Address
  state : EngagementState
  mentorPolicyVersion : Nat
  menteePolicyVersion : Nat
  createdAt : Nat
  activatedAt : Nat
  updatedAt : Nat
  deriving DecidableEq

inductive BreachSeverity where
  | low
  | medium
  | high
  | critical
  deriving DecidableEq, Repr

structure BreachRecord where
  caseRef : Bytes32
  subject : Address
  policyVersion : Nat
  severity : BreachSeverity
  evidenceHash : Bytes32
  recordedAt : Nat
  resolved : Bool
  resolvedAt : Nat
  deriving DecidableEq

/-- The contract's storage. -/
structure State where
  admin : Option Address
  /-- Zero before the first policy. -/
  policyVersion : Nat
  latestPolicy : Role → Option Nat
  policy : Nat → Option Policy
  acceptance : Address × Nat × Role → Option Acceptance
  engagement : Bytes32 → Option Engagement
  breach : Bytes32 → Option BreachRecord

def State.empty : State where
  admin := none
  policyVersion := 0
  latestPolicy := fun _ => none
  policy := fun _ => none
  acceptance := fun _ => none
  engagement := fun _ => none
  breach := fun _ => none

variable {contract : Address}

section Helpers

def requireAdmin (env : Env contract) (s : State) (caller : Address) : Outcome Unit := do
  let admin ← orRefuse s.admin (.err .notInitialized)
  refuseIf (caller ≠ admin) (.err .notAdmin)
  requireAuth env caller

def loadPolicy (s : State) (version : Nat) : Outcome Policy :=
  orRefuse (s.policy version) (.err .policyNotFound)

def latestPolicyForRole (s : State) (role : Role) : Outcome Policy := do
  let version ← orRefuse (s.latestPolicy role) (.err .policyNotFound)
  loadPolicy s version

/-- The version is the latest for every role it applies to. -/
def recordLatest (latest : Role → Option Nat) (policy : Policy) : Role → Option Nat :=
  fun role => if policy.audience.appliesTo role then some policy.version else latest role

def savePolicy (s : State) (policy : Policy) : State :=
  { s with policy := Function.update s.policy policy.version (some policy) }

def loadEngagement (s : State) (id : Bytes32) : Outcome Engagement :=
  orRefuse (s.engagement id) (.err .engagementNotFound)

def saveEngagement (s : State) (id : Bytes32) (engagement : Engagement) : State :=
  { s with engagement := Function.update s.engagement id (some engagement) }

def saveBreach (s : State) (caseRef : Bytes32) (record : BreachRecord) : State :=
  { s with breach := Function.update s.breach caseRef (some record) }

def hasAccepted (s : State) (actor : Address) (version : Nat) (role : Role) : Bool :=
  (s.acceptance (actor, version, role)).isSome

/-- A policy that is not mandatory needs no acceptance. -/
def requireCurrentAcceptance (s : State) (actor : Address) (role : Role) : Outcome Nat := do
  let policy ← latestPolicyForRole s role
  refuseIf (policy.retired = true) (.err .policyRetired)
  if policy.mandatory = false then pure policy.version
  else do
    refuseIf (hasAccepted s actor policy.version role = false) (.err .acceptanceRequired)
    pure policy.version

end Helpers

section Policies

def initializeContract (env : Env contract) (s : State) (admin : Address) : Outcome State := do
  refuseIf (s.admin ≠ none) (.err .alreadyInitialized)
  requireAuth env admin
  pure { s with admin := some admin }

def publishPolicy (env : Env contract) (s : State) (admin : Address) (audience : Audience)
    (policyHash : Bytes32) (effectiveAt : Nat) (mandatory : Bool) : Outcome (Nat × State) := do
  requireAdmin env s admin
  refuseIf (policyHash = 0) (.err .invalidPolicyHash)
  refuseIf (effectiveAt = 0) (.err .invalidEffectiveTime)
  let version ← orRefuse (fitsU 32 (s.policyVersion + 1)) (.err .versionOverflow)
  refuseIf (maxPolicyVersion < version) (.err .policyVersionCapReached)
  let policy : Policy :=
    { version, audience, policyHash, effectiveAt, mandatory, publishedAt := env.timestamp,
      retired := false }
  pure (version, { savePolicy s policy with
    policyVersion := version
    latestPolicy := recordLatest s.latestPolicy policy })

def retirePolicy (env : Env contract) (s : State) (admin : Address) (version : Nat) :
    Outcome State := do
  requireAdmin env s admin
  let policy ← loadPolicy s version
  refuseIf (policy.retired = true) (.err .policyAlreadyRetired)
  pure { s with policy := Function.update s.policy version (some { policy with retired := true }) }

end Policies

section Acceptances

/-- A repeated acceptance succeeds and writes nothing, also once the policy is retired. -/
def acceptPolicy (env : Env contract) (s : State) (actor : Address) (version : Nat) (role : Role) :
    Outcome State := do
  requireAuth env actor
  if hasAccepted s actor version role then pure s
  else do
    let policy ← loadPolicy s version
    refuseIf (policy.retired = true) (.err .policyRetired)
    refuseIf (policy.audience.appliesTo role = false) (.err .policyNotApplicable)
    let acceptance : Acceptance :=
      { actor, role, policyVersion := version, policyHash := policy.policyHash,
        acceptedAt := env.timestamp }
    pure { s with
      acceptance := Function.update s.acceptance (actor, version, role) (some acceptance) }

def getAcceptance (s : State) (actor : Address) (version : Nat) (role : Role) : Outcome Acceptance :=
  orRefuse (s.acceptance (actor, version, role)) (.err .acceptanceNotFound)

def verifyAcceptance (s : State) (actor : Address) (version : Nat) (role : Role)
    (policyHash : Bytes32) : Bool :=
  match s.acceptance (actor, version, role) with
  | some acceptance => acceptance.policyHash = policyHash
  | none => false

def requiresAcknowledgement (s : State) (actor : Address) (role : Role) : Bool :=
  match latestPolicyForRole s role with
  | .ok policy => policy.mandatory && !policy.retired && !hasAccepted s actor policy.version role
  | .error _ => false

def acceptedVersions (s : State) (actor : Address) (role : Role) (versions : List Nat) : List Nat :=
  versions.filter fun version => hasAccepted s actor version role

end Acceptances

section Engagements

/-- Both parties sign; the caller is one of them and signs as such. -/
def createEngagement (env : Env contract) (s : State) (caller : Address) (engagementId : Bytes32)
    (mentor mentee : Address) : Outcome State := do
  refuseIf (caller ≠ mentor ∧ caller ≠ mentee) (.err .notAuthorized)
  refuseIf (mentor = mentee) (.err .invalidParties)
  refuseIf (engagementId = 0) (.err .invalidEngagementId)
  refuseIf (s.engagement engagementId ≠ none) (.err .engagementAlreadyExists)
  requireAuth env mentor
  requireAuth env mentee
  pure (saveEngagement s engagementId
    { id := engagementId, mentor, mentee, state := .pending, mentorPolicyVersion := 0,
      menteePolicyVersion := 0, createdAt := env.timestamp, activatedAt := 0,
      updatedAt := env.timestamp })

def activateEngagement (env : Env contract) (s : State) (caller : Address) (engagementId : Bytes32) :
    Outcome State := do
  requireAuth env caller
  let engagement ← loadEngagement s engagementId
  refuseIf (caller ≠ engagement.mentor ∧ caller ≠ engagement.mentee) (.err .notAuthorized)
  refuseIf (engagement.state ≠ .pending) (.err .engagementNotPending)
  let mentorVersion ← requireCurrentAcceptance s engagement.mentor .mentor
  let menteeVersion ← requireCurrentAcceptance s engagement.mentee .mentee
  pure (saveEngagement s engagementId { engagement with
    state := .active
    mentorPolicyVersion := mentorVersion
    menteePolicyVersion := menteeVersion
    activatedAt := env.timestamp
    updatedAt := env.timestamp })

/-- One party's turn of the loop of `engagement_compliant`. -/
def partyCompliant (s : State) (actor : Address) (role : Role) : Bool :=
  match latestPolicyForRole s role with
  | .error _ => false
  | .ok policy =>
    !policy.retired && !(policy.mandatory && !hasAccepted s actor policy.version role)

def engagementCompliant (s : State) (engagementId : Bytes32) : Bool :=
  match loadEngagement s engagementId with
  | .error _ => false
  | .ok engagement =>
    if engagement.state ≠ .active then false
    else partyCompliant s engagement.mentor .mentor && partyCompliant s engagement.mentee .mentee

def suspendEngagement (env : Env contract) (s : State) (admin : Address) (engagementId : Bytes32) :
    Outcome State := do
  requireAdmin env s admin
  let engagement ← loadEngagement s engagementId
  refuseIf (engagement.state ≠ .active) (.err .engagementNotActive)
  pure (saveEngagement s engagementId { engagement with
    state := .suspended
    updatedAt := env.timestamp })

def resumeEngagement (env : Env contract) (s : State) (caller : Address) (engagementId : Bytes32) :
    Outcome State := do
  requireAuth env caller
  let engagement ← loadEngagement s engagementId
  refuseIf (caller ≠ engagement.mentor ∧ caller ≠ engagement.mentee) (.err .notAuthorized)
  refuseIf (engagement.state ≠ .suspended) (.err .engagementNotSuspended)
  let mentorVersion ← requireCurrentAcceptance s engagement.mentor .mentor
  let menteeVersion ← requireCurrentAcceptance s engagement.mentee .mentee
  pure (saveEngagement s engagementId { engagement with
    mentorPolicyVersion := mentorVersion
    menteePolicyVersion := menteeVersion
    state := .active
    updatedAt := env.timestamp })

def endEngagement (env : Env contract) (s : State) (caller : Address) (engagementId : Bytes32) :
    Outcome State := do
  requireAuth env caller
  let engagement ← loadEngagement s engagementId
  refuseIf (caller ≠ engagement.mentor ∧ caller ≠ engagement.mentee) (.err .notAuthorized)
  refuseIf (engagement.state = .ended) (.err .engagementNotActive)
  pure (saveEngagement s engagementId { engagement with
    state := .ended
    updatedAt := env.timestamp })

end Engagements

section Breaches

def recordBreach (env : Env contract) (s : State) (admin : Address) (caseRef : Bytes32)
    (subject : Address) (policyVersion : Nat) (severity : BreachSeverity) (evidenceHash : Bytes32) :
    Outcome State := do
  requireAdmin env s admin
  refuseIf (evidenceHash = 0) (.err .invalidEvidenceHash)
  let _ ← loadPolicy s policyVersion
  refuseIf (s.breach caseRef ≠ none) (.err .breachAlreadyRecorded)
  pure (saveBreach s caseRef
    { caseRef, subject, policyVersion, severity, evidenceHash, recordedAt := env.timestamp,
      resolved := false, resolvedAt := 0 })

def resolveBreach (env : Env contract) (s : State) (admin : Address) (caseRef : Bytes32) :
    Outcome State := do
  requireAdmin env s admin
  let record ← orRefuse (s.breach caseRef) (.err .breachNotFound)
  refuseIf (record.resolved = true) (.err .breachAlreadyResolved)
  pure (saveBreach s caseRef { record with resolved := true, resolvedAt := env.timestamp })

end Breaches

/-- The state-changing entry points. -/
inductive Call where
  | initializeContract (admin : Address)
  | publishPolicy (admin : Address) (audience : Audience) (policyHash : Bytes32) (effectiveAt : Nat)
      (mandatory : Bool)
  | retirePolicy (admin : Address) (version : Nat)
  | acceptPolicy (actor : Address) (version : Nat) (role : Role)
  | createEngagement (caller : Address) (engagementId : Bytes32) (mentor mentee : Address)
  | activateEngagement (caller : Address) (engagementId : Bytes32)
  | suspendEngagement (admin : Address) (engagementId : Bytes32)
  | resumeEngagement (caller : Address) (engagementId : Bytes32)
  | endEngagement (caller : Address) (engagementId : Bytes32)
  | recordBreach (admin : Address) (caseRef : Bytes32) (subject : Address) (policyVersion : Nat)
      (severity : BreachSeverity) (evidenceHash : Bytes32)
  | resolveBreach (admin : Address) (caseRef : Bytes32)
  deriving DecidableEq

structure Input (contract : Address) where
  env : Env contract
  call : Call

/-- What an entry point returns. -/
inductive Answer where
  | done
  | version (version : Nat)
  deriving DecidableEq, Repr

/-- One entry point applied to the state. -/
def execute (env : Env contract) (s : State) : Call → Outcome (Answer × State)
  | .initializeContract admin => (.done, ·) <$> initializeContract env s admin
  | .publishPolicy admin audience policyHash effectiveAt mandatory =>
    Prod.map .version id <$> publishPolicy env s admin audience policyHash effectiveAt mandatory
  | .retirePolicy admin version => (.done, ·) <$> retirePolicy env s admin version
  | .acceptPolicy actor version role => (.done, ·) <$> acceptPolicy env s actor version role
  | .createEngagement caller engagementId mentor mentee =>
    (.done, ·) <$> createEngagement env s caller engagementId mentor mentee
  | .activateEngagement caller engagementId =>
    (.done, ·) <$> activateEngagement env s caller engagementId
  | .suspendEngagement admin engagementId =>
    (.done, ·) <$> suspendEngagement env s admin engagementId
  | .resumeEngagement caller engagementId =>
    (.done, ·) <$> resumeEngagement env s caller engagementId
  | .endEngagement caller engagementId => (.done, ·) <$> endEngagement env s caller engagementId
  | .recordBreach admin caseRef subject policyVersion severity evidenceHash =>
    (.done, ·) <$> recordBreach env s admin caseRef subject policyVersion severity evidenceHash
  | .resolveBreach admin caseRef => (.done, ·) <$> resolveBreach env s admin caseRef

def machine (contract : Address) : Machine State (Input contract) Answer (Abort ContractError) where
  step s i := execute i.env s i.call

end ChainVerse.MentorshipConduct
