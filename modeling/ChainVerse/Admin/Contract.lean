import ChainVerse.Framework.Machine
import ChainVerse.Framework.Retention
import ChainVerse.Host.Environment

namespace ChainVerse.ScholarshipAdmin

def maxVersionsPerKey : Nat := 32

def maxCohorts : Nat := 32

def maxConfigKeys : Nat := 2000

def maxPins : Nat := 5000

inductive ContractError where
  | notInitialized
  | alreadyInitialized
  | notAdmin
  | tooManyCohorts
  | invalidCohorts
  | configNotFound
  | tooManyConfigKeys
  | invalidLimit
  | invalidDeadline
  | invalidThreshold
  | emptyReference
  | versionNotFound
  | pinNotFound
  | tooManyPins
  deriving DecidableEq, Repr

abbrev Outcome (α : Type) := Except (Abort ContractError) α

inductive Flag where
  | discovery
  | applications
  | reviews
  | awards
  | payouts
  deriving DecidableEq, Repr

def Flag.all : List Flag := [.discovery, .applications, .reviews, .awards, .payouts]

inductive Environment where
  | testnet
  | staging
  | production
  deriving DecidableEq, Repr

inductive FlagState where
  | off
  | on
  | cohortsOnly
  deriving DecidableEq, Repr

structure FlagConfig where
  flag : Flag
  environment : Environment
  state : FlagState
  cohorts : List Symbol
  version : Nat
  effectiveAt : Nat
  updatedBy : Address
  deriving DecidableEq

inductive ConfigKind where
  | limits
  | deadline
  | provider
  | asset
  | template
  | riskThreshold
  deriving DecidableEq, Repr

structure AdminConfig where
  kind : ConfigKind
  subject : Bytes32
  a : Int
  b : Int
  refHash : Bytes32
  label : Symbol
  version : Nat
  updatedAt : Nat
  updatedBy : Address
  deriving DecidableEq

/-- Where a flag and a configuration value are stored. -/
def FlagConfig.key (config : FlagConfig) : Flag × Environment := (config.flag, config.environment)

def AdminConfig.key (config : AdminConfig) : ConfigKind × Bytes32 := (config.kind, config.subject)

/-- The contract's storage: `Flag`, `FlagVersion` and `FlagFloor` under `flag`, and `Config`,
`ConfigVersion` and `ConfigFloor` under `config`. -/
structure State where
  admin : Option Address
  flag : Versions (Flag × Environment) FlagConfig
  config : Versions (ConfigKind × Bytes32) AdminConfig
  /-- Empty where nothing is stored. -/
  configIndex : ConfigKind → List Bytes32
  pin : Bytes32 × Flag × Environment → Option FlagState
  configKeyCount : Nat
  pinCount : Nat

def State.empty : State where
  admin := none
  flag := .empty
  config := .empty
  configIndex := fun _ => []
  pin := fun _ => none
  configKeyCount := 0
  pinCount := 0

variable {contract : Address}

section Helpers

/-- Without an administrator nobody is the administrator. -/
def requireAdmin (s : State) (account : Address) : Outcome Unit :=
  refuseIf (s.admin ≠ some account) (.err .notAdmin)

/-- The cohorts from one on, with those before it. -/
def checkNames (seen : List Symbol) : List Symbol → Outcome Unit
  | [] => pure ()
  | cohort :: cohorts => do
    refuseIf (cohort = "") (.err .invalidCohorts)
    refuseIf (cohort ∈ seen) (.err .invalidCohorts)
    checkNames (seen ++ [cohort]) cohorts

def checkCohorts (cohorts : List Symbol) (state : FlagState) : Outcome Unit := do
  refuseIf (maxCohorts < cohorts.length) (.err .tooManyCohorts)
  checkNames [] cohorts
  refuseIf (state = .cohortsOnly ∧ cohorts = []) (.err .invalidCohorts)

def validate (kind : ConfigKind) (a b : Int) (refHash : Bytes32) : Outcome Unit :=
  match kind with
  | .limits => refuseIf (a ≤ 0 ∨ b < a) (.err .invalidLimit)
  | .deadline => refuseIf (a ≤ 0 ∨ b ≤ 0 ∨ b < a) (.err .invalidDeadline)
  | .provider => refuseIf (refHash = 0) (.err .emptyReference)
  | .asset => refuseIf (a ≤ 0) (.err .invalidLimit)
  | .template => pure ()
  | .riskThreshold => refuseIf (a < 0 ∨ b < a) (.err .invalidThreshold)

/-- A counter with a ceiling. -/
def reserve (count ceiling : Nat) (full : ContractError) : Outcome Nat := do
  refuseIf (ceiling ≤ count) (.err full)
  orRefuse (fitsU 64 (count + 1)) (.err .invalidLimit)

def reserveConfigKey (s : State) : Outcome State := do
  let count ← reserve s.configKeyCount maxConfigKeys .tooManyConfigKeys
  pure { s with configKeyCount := count }

def reservePin (s : State) : Outcome State := do
  let count ← reserve s.pinCount maxPins .tooManyPins
  pure { s with pinCount := count }

/-- A place is taken only for a key, or a pin, that is new. -/
def reserveNewKey (s : State) (isNew : Bool) : Outcome State :=
  if isNew then reserveConfigKey s else pure s

def reserveNewPin (s : State) (isNew : Bool) : Outcome State :=
  if isNew then reservePin s else pure s

def indexConfig (s : State) (kind : ConfigKind) (subject : Bytes32) : State :=
  let index := s.configIndex kind
  let indexed := if subject ∈ index then index else index ++ [subject]
  { s with configIndex := Function.update s.configIndex kind indexed }

def saveFlag (s : State) (config : FlagConfig) : State :=
  { s with flag := s.flag.save maxVersionsPerKey config.key config.version config }

def saveConfig (s : State) (config : AdminConfig) : State :=
  { s with config := s.config.save maxVersionsPerKey config.key config.version config }

/-- The version after the one that stands. -/
def nextVersion (previous : Option Nat) : Outcome Nat :=
  match previous with
  | some version => orRefuse (fitsU 32 (version + 1)) (.err .invalidLimit)
  | none => pure 1

end Helpers

section Flags

def initializeContract (env : Env contract) (s : State) (admin : Address) : Outcome State := do
  refuseIf (s.admin ≠ none) (.err .alreadyInitialized)
  requireAuth env admin
  pure { s with admin := some admin }

def setFlag (env : Env contract) (s : State) (admin : Address) (flag : Flag) (environment : Environment)
    (state : FlagState) (cohorts : List Symbol) : Outcome (Nat × State) := do
  requireAuth env admin
  requireAdmin s admin
  checkCohorts cohorts state
  let previous := s.flag.current (flag, environment)
  let s ← reserveNewKey s previous.isNone
  let version ← nextVersion (previous.map FlagConfig.version)
  pure (version, saveFlag s
    { flag, environment, state, cohorts, version, effectiveAt := env.timestamp, updatedBy := admin })

/-- A flag that nobody has configured is off. -/
def isEnabled (s : State) (flag : Flag) (environment : Environment) (cohort : Symbol) : Bool :=
  match s.flag.current (flag, environment) with
  | none => false
  | some config =>
    match config.state with
    | .off => false
    | .on => true
    | .cohortsOnly => cohort ∈ config.cohorts

def getFlag (s : State) (flag : Flag) (environment : Environment) : Outcome FlagConfig := do
  let admin ← orRefuse s.admin (.err .notInitialized)
  pure ((s.flag.current (flag, environment)).getD
    { flag, environment, state := .off, cohorts := [], version := 0, effectiveAt := 0, updatedBy := admin })

def listFlags (s : State) (environment : Environment) : Outcome (List FlagConfig) :=
  Flag.all.mapM fun flag => getFlag s flag environment

def flagVersion (s : State) (flag : Flag) (environment : Environment) (version : Nat) :
    Outcome FlagConfig :=
  orRefuse (s.flag.line ((flag, environment), version)) (.err .versionNotFound)

def flagVersionFloor (s : State) (flag : Flag) (environment : Environment) : Nat :=
  (s.flag.floor (flag, environment)).getD 1

/-- Anybody may pin a workflow, also one that is pinned already. -/
def pin (s : State) (flag : Flag) (environment : Environment) (workflow : Bytes32) :
    Outcome (FlagState × State) := do
  let config ← getFlag s flag environment
  let s ← reserveNewPin s (s.pin (workflow, flag, environment)).isNone
  pure (config.state,
    { s with pin := Function.update s.pin (workflow, flag, environment) (some config.state) })

def pinnedState (s : State) (flag : Flag) (environment : Environment) (workflow : Bytes32) :
    Outcome FlagState :=
  orRefuse (s.pin (workflow, flag, environment)) (.err .pinNotFound)

end Flags

section Configuration

def setConfig (env : Env contract) (s : State) (admin : Address) (kind : ConfigKind) (subject : Bytes32)
    (a b : Int) (refHash : Bytes32) (label : Symbol) : Outcome (Nat × State) := do
  requireAuth env admin
  requireAdmin s admin
  validate kind a b refHash
  let previous := s.config.current (kind, subject)
  let s ← reserveNewKey s previous.isNone
  let s := if previous.isNone then indexConfig s kind subject else s
  let version ← nextVersion (previous.map AdminConfig.version)
  pure (version, saveConfig s
    { kind, subject, a, b, refHash, label, version, updatedAt := env.timestamp, updatedBy := admin })

def previewConfig (kind : ConfigKind) (a b : Int) (refHash : Bytes32) : Outcome Unit :=
  validate kind a b refHash

/-- An earlier version is published again, under the version after the last. -/
def rollbackConfig (env : Env contract) (s : State) (admin : Address) (kind : ConfigKind)
    (subject : Bytes32) (version : Nat) : Outcome (Nat × State) := do
  requireAuth env admin
  requireAdmin s admin
  let target ← orRefuse (s.config.line ((kind, subject), version)) (.err .versionNotFound)
  let current ← orRefuse (s.config.current (kind, subject)) (.err .configNotFound)
  let newVersion ← orRefuse (fitsU 32 (current.version + 1)) (.err .invalidLimit)
  pure (newVersion, saveConfig s { target with
    version := newVersion
    updatedAt := env.timestamp
    updatedBy := admin })

def getConfig (s : State) (kind : ConfigKind) (subject : Bytes32) : Outcome AdminConfig :=
  orRefuse (s.config.current (kind, subject)) (.err .configNotFound)

def configVersion (s : State) (kind : ConfigKind) (subject : Bytes32) (version : Nat) :
    Outcome AdminConfig :=
  orRefuse (s.config.line ((kind, subject), version)) (.err .versionNotFound)

def configVersionFloor (s : State) (kind : ConfigKind) (subject : Bytes32) : Nat :=
  (s.config.floor (kind, subject)).getD 1

/-- Subjects without a value are passed over. -/
def listConfig (s : State) (kind : ConfigKind) : List AdminConfig :=
  (s.configIndex kind).filterMap fun subject => (getConfig s kind subject).toOption

end Configuration

/-- The state-changing entry points. -/
inductive Call where
  | initializeContract (admin : Address)
  | setFlag (admin : Address) (flag : Flag) (environment : Environment) (state : FlagState)
      (cohorts : List Symbol)
  | pin (flag : Flag) (environment : Environment) (workflow : Bytes32)
  | setConfig (admin : Address) (kind : ConfigKind) (subject : Bytes32) (a b : Int) (refHash : Bytes32)
      (label : Symbol)
  | rollbackConfig (admin : Address) (kind : ConfigKind) (subject : Bytes32) (version : Nat)
  deriving DecidableEq

structure Input (contract : Address) where
  env : Env contract
  call : Call

/-- What an entry point returns. -/
inductive Answer where
  | done
  | version (version : Nat)
  | pinned (state : FlagState)
  deriving DecidableEq, Repr

/-- One entry point applied to the state. -/
def execute (env : Env contract) (s : State) : Call → Outcome (Answer × State)
  | .initializeContract admin => (.done, ·) <$> initializeContract env s admin
  | .setFlag admin flag environment state cohorts =>
    Prod.map .version id <$> setFlag env s admin flag environment state cohorts
  | .pin flag environment workflow => Prod.map .pinned id <$> pin s flag environment workflow
  | .setConfig admin kind subject a b refHash label =>
    Prod.map .version id <$> setConfig env s admin kind subject a b refHash label
  | .rollbackConfig admin kind subject version =>
    Prod.map .version id <$> rollbackConfig env s admin kind subject version

def machine (contract : Address) : Machine State (Input contract) Answer (Abort ContractError) where
  step s i := execute i.env s i.call

end ChainVerse.ScholarshipAdmin
