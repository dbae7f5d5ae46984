import ChainVerse.Framework.Machine
import ChainVerse.Host.Issuance

namespace ChainVerse.LibraryRights

/-! The source defines some names more than once, each with entry points of its own: `LoanRecord`,
`HoldRecord`, `return_work` and `register_rendition`. Here the later definitions have names of their own;
what is stored under one key stays under one key. -/

inductive ContractError where
  | alreadyInitialized
  | notInitialized
  | notAdmin
  | duplicateRole
  | unauthorized
  | unknown
  | workNotFound
  | invalidPolicy
  | policyNotFound
  | policyVersionNotFound
  | licenseNotFound
  | licenseInactive
  | renditionNotFound
  | renditionInactive
  | seatNotFound
  | seatUnavailable
  | borrowingLimitReached
  | notEnrolled
  | invalidTimestamp
  | loanIdOverflow
  | holdNotFound
  | holdExpired
  | reserveExists
  | reserveNotFound
  | noSeatsAvailable
  | courseRegistryNotSet
  | invalidHash
  | overflow
  | invalidIdentifier
  | alreadyRegistered
  | entryNotFound
  | invalidParent
  | invalidKind
  | invalidMetadataUri
  | versionNotFound
  | invalidLimit
  | invalidStateTransition
  | membershipNotFound
  | alreadyQuarantined
  | alreadyRevoked
  | patronLoanLimitExceeded
  | policyLoanLimitExceeded
  | workAlreadyLoaned
  | loanNotFoundOrInactive
  | maxRenewalsReached
  | exceedsLicenseExpiry
  | holdNotFoundOrInactive
  | holdCancellationUnauthorized
  | migrationInProgress
  | migrationNotStarted
  | migrationAlreadyComplete
  | migrationVersionSkip
  | migrationNotReady
  | paused
  | alreadyPaused
  | notPaused
  | timelockConfigInvalid
  | timelockEtaInvalid
  | timelockQueueFull
  | timelockAlreadyQueued
  | timelockNotFound
  | timelockAlreadyExecuted
  | timelockCancelled
  | timelockNotReady
  deriving DecidableEq, Repr

abbrev Outcome (α : Type) := Except (Abort ContractError) α

inductive Role where
  | admin
  | treasury
  | policyManager
  | emergency
  | librarian
  deriving DecidableEq, Repr

section Control

/-- The snapshot that the four instance keys of the pause hold; nothing is stored while not paused. -/
structure PauseRecord where
  pausedAt : Nat
  pausedBy : Address
  pauseReason : Bytes32
  deriving DecidableEq, Repr

structure TimelockConfig where
  minDelay : Nat
  maxDelay : Nat
  deriving DecidableEq, Repr

inductive GovernedAction where
  | transferRole (role : Role) (recipient : Address)
  | updateCourseRegistry (registry : Address)
  | updateTimelockConfig (minDelay maxDelay : Nat)
  deriving DecidableEq, Repr

structure QueuedChange where
  changeId : Bytes32
  action : GovernedAction
  proposer : Address
  queuedAt : Nat
  eta : Nat
  executed : Bool
  cancelled : Bool
  deriving DecidableEq, Repr

inductive MigrationPhase where
  | idle
  | migrating
  deriving DecidableEq, Repr

structure MigrationState where
  fromVersion : Nat
  targetVersion : Nat
  stepsDone : Nat
  totalSteps : Nat
  phase : MigrationPhase
  deriving DecidableEq, Repr

structure MigrationLogEntry where
  fromVersion : Nat
  targetVersion : Nat
  completedAt : Nat
  ranBy : Address
  deriving DecidableEq, Repr

structure Governance where
  role : Role → Option Address
  courseRegistry : Option Address

structure Timelock where
  /-- The defaults where nothing is stored. -/
  config : Option TimelockConfig
  counter : Nat
  pendingIds : List Bytes32
  queuedChange : Bytes32 → Option QueuedChange
  executed : Bytes32 → Bool

structure Migration where
  /-- Zero before bootstrap. -/
  schemaVersion : Nat
  state : Option MigrationState
  logCount : Nat
  log : Nat → Option MigrationLogEntry

end Control

section Lending

structure WorkRecord where
  workHash : Bytes32
  custodian : Address
  policyId : Symbol
  deriving DecidableEq, Repr

structure Policy where
  maxConcurrentLoansPerPatron : Nat
  totalActiveLoans : Nat
  maxTotalConcurrentLoans : Nat
  deriving DecidableEq, Repr

/-- The `LoanRecord` of `borrow_work`. -/
structure LoanRecord where
  workId : Bytes32
  borrower : Address
  expiry : Nat
  deriving DecidableEq, Repr

/-- The `LoanRecord` of `checkout_work`. -/
structure PatronLoan where
  workId : Bytes32
  holder : Address
  createdAt : Nat
  expiresAt : Nat
  isActive : Bool
  policyId : Symbol
  renewalCount : Nat
  autoRenew : Bool
  maxLicenseExpiry : Nat
  maxRenewals : Nat
  deriving DecidableEq, Repr

/-- What stands under `Loan(id, address)`: a loan of a work by its id, or a checked out one by its loan
id. -/
inductive LoanRow where
  | borrowed (loan : LoanRecord)
  | checkedOut (loan : PatronLoan)
  deriving DecidableEq, Repr

/-- The `HoldRecord` of `place_hold`. -/
structure HoldRecord where
  workId : Bytes32
  holder : Address
  expiry : Nat
  deriving DecidableEq, Repr

structure ReserveRecord where
  workId : Bytes32
  courseId : Bytes32
  seats : Nat
  expiry : Nat
  deriving DecidableEq, Repr

structure Lending where
  policy : Symbol → Option Policy
  work : Bytes32 → Option WorkRecord
  /-- `Loan(work_id, borrower)` and `Loan(loan_id, patron)`. -/
  loan : Bytes32 × Address → Option LoanRow
  hold : Bytes32 × Address → Option HoldRecord
  /-- `Reserve(work_id, course_id)`. -/
  reserve : Bytes32 × Bytes32 → Option ReserveRecord
  /-- `PatronPolicyActiveLoans(patron, policy_id)`, zero where nothing is stored. -/
  patronPolicyActiveLoans : Address × Symbol → Nat

end Lending

section Catalog

inductive EntryKind where
  | work
  | edition
  | rendition
  deriving DecidableEq, Repr

inductive HashAlgorithm where
  | sha256
  | sha512
  deriving DecidableEq, Repr

structure MetadataCommitment where
  uri : String
  manifestHash : Bytes32
  deriving DecidableEq, Repr

structure ContentCommitment where
  algorithm : HashAlgorithm
  digest : Bytes32
  deriving DecidableEq, Repr

inductive ContentState where
  | none
  | committed (content : ContentCommitment)
  deriving DecidableEq, Repr

structure CatalogEntry where
  kind : EntryKind
  parent : Option Bytes32
  version : Nat
  metadata : MetadataCommitment
  content : ContentState
  custodian : Address
  deriving DecidableEq, Repr

structure VersionSnapshot where
  version : Nat
  metadata : MetadataCommitment
  content : ContentState
  custodian : Address
  registeredBy : Address
  registeredAt : Nat
  deriving DecidableEq, Repr

structure ChildrenPage where
  ids : List Bytes32
  nextCursor : Nat
  done : Bool
  deriving DecidableEq, Repr

structure Catalog where
  entry : Bytes32 → Option CatalogEntry
  entryVersion : Bytes32 × Nat → Option VersionSnapshot
  entryVersionCount : Bytes32 → Nat
  childCount : Bytes32 → Nat
  childIndex : Bytes32 × Nat → Option Bytes32

end Catalog

section Services

inductive ContentStatus where
  | active
  | deactivated
  | legalTakedown
  | quarantined
  deriving DecidableEq, Repr

structure QuarantineRecord where
  reasonHash : Bytes32
  quarantinedAt : Nat
  quarantinedBy : Address
  restoredAt : Option Nat
  restorationReviewHash : Option Bytes32
  deriving DecidableEq, Repr

inductive MembershipStatus where
  | active
  | revoked
  deriving DecidableEq, Repr

structure MembershipAttestation where
  wallet : Address
  claimCommitment : Bytes32
  institutionDomainHash : Bytes32
  networkId : Bytes32
  nonce : Nat
  issuedAt : Nat
  expiresAt : Nat
  status : MembershipStatus
  deriving DecidableEq, Repr

inductive ClassificationKind where
  | taxonomy
  | audience
  deriving DecidableEq, Repr

structure ClassificationCommit where
  manifestHash : Bytes32
  schemaVersion : Nat
  issuer : Address
  previousHash : Option Bytes32
  committedAt : Nat
  deriving DecidableEq, Repr

inductive ProvenanceType where
  | purchase
  | donation
  | institutionalAcquisition
  deriving DecidableEq, Repr

structure ProvenanceRecord where
  workId : Bytes32
  provenanceType : ProvenanceType
  provenanceHash : Bytes32
  attestedBy : Address
  attestedAt : Nat
  previousHash : Option Bytes32
  deriving DecidableEq, Repr

structure PolicyScope where
  institution : Address
  role : Symbol
  format : Symbol
  collection : Option Bytes32
  deriving DecidableEq, Repr

structure BorrowingPolicy where
  scope : PolicyScope
  loanDurationSecs : Nat
  maxConcurrentLoans : Nat
  renewalLimit : Nat
  holdDurationSecs : Nat
  finePerDay : Int
  version : Nat
  active : Bool
  deriving DecidableEq, Repr

structure PolicyVersion where
  policyId : Bytes32
  version : Nat
  policy : BorrowingPolicy
  createdAt : Nat
  deriving DecidableEq, Repr

structure LicenseRecord where
  workId : Bytes32
  institution : Address
  expiresAt : Nat
  active : Bool
  deriving DecidableEq, Repr

structure RenditionRecord where
  workId : Bytes32
  format : Symbol
  active : Bool
  deriving DecidableEq, Repr

structure SeatRecord where
  institution : Address
  available : Bool
  deriving DecidableEq, Repr

/-- The `LoanRecord` of `checkout`, under `Loan(loan_id)`. -/
structure SeatLoan where
  loanId : Bytes32
  borrower : Address
  institution : Address
  workId : Bytes32
  licenseId : Bytes32
  renditionId : Bytes32
  seatId : Bytes32
  policyId : Bytes32
  policyVersion : Nat
  checkedOutAt : Nat
  dueAt : Nat
  active : Bool
  deriving DecidableEq, Repr

/-- Works out of access, attestations, keepers and the licensed seats. -/
structure Services where
  contentStatus : Bytes32 → Option ContentStatus
  quarantine : Bytes32 → Option QuarantineRecord
  membershipCount : Nat
  membershipCurrent : Address → Option Bytes32
  membershipAttestation : Bytes32 → Option MembershipAttestation
  classification : ClassificationKind → Option ClassificationCommit
  classificationCount : ClassificationKind → Nat
  classificationHistory : ClassificationKind × Nat → Option ClassificationCommit
  provenanceCount : Bytes32 → Nat
  provenance : Bytes32 × Nat → Option ProvenanceRecord
  keeper : Address → Bool
  approvedWasmHash : Bytes32
  /-- `Policy(policy_id)` with a 32 byte id: the number of its latest version. -/
  latestVersion : Bytes32 → Option Nat
  policyVersion : Bytes32 × Nat → Option PolicyVersion
  license : Bytes32 → Option LicenseRecord
  rendition : Bytes32 → Option RenditionRecord
  seat : Bytes32 → Option SeatRecord
  seatLoan : Bytes32 → Option SeatLoan
  loanCounter : Nat
  /-- `BorrowerLoanCount(institution, borrower)`. -/
  borrowerLoanCount : Address × Address → Nat

end Services

/-- The contract's storage. -/
structure State where
  governance : Governance
  timelock : Timelock
  pause : Option PauseRecord
  migration : Migration
  lending : Lending
  catalog : Catalog
  services : Services

def Governance.empty : Governance where
  role := fun _ => none
  courseRegistry := none

def Timelock.empty : Timelock where
  config := none
  counter := 0
  pendingIds := []
  queuedChange := fun _ => none
  executed := fun _ => false

def Migration.empty : Migration where
  schemaVersion := 0
  state := none
  logCount := 0
  log := fun _ => none

def Lending.empty : Lending where
  policy := fun _ => none
  work := fun _ => none
  loan := fun _ => none
  hold := fun _ => none
  reserve := fun _ => none
  patronPolicyActiveLoans := fun _ => 0

def Catalog.empty : Catalog where
  entry := fun _ => none
  entryVersion := fun _ => none
  entryVersionCount := fun _ => 0
  childCount := fun _ => 0
  childIndex := fun _ => none

def Services.empty : Services where
  contentStatus := fun _ => none
  quarantine := fun _ => none
  membershipCount := 0
  membershipCurrent := fun _ => none
  membershipAttestation := fun _ => none
  classification := fun _ => none
  classificationCount := fun _ => 0
  classificationHistory := fun _ => none
  provenanceCount := fun _ => 0
  provenance := fun _ => none
  keeper := fun _ => false
  approvedWasmHash := 0
  latestVersion := fun _ => none
  policyVersion := fun _ => none
  license := fun _ => none
  rendition := fun _ => none
  seat := fun _ => none
  seatLoan := fun _ => none
  loanCounter := 0
  borrowerLoanCount := fun _ => 0

/-- What the course registries answer during one invocation. -/
structure Registries where
  /-- `is_enrolled(course_id, borrower)` of a registry, for the reserves. -/
  inCourse : Address → Bytes32 → Address → Bool
  /-- `is_enrolled(student, course_id)` of a registry, for the licensed seats. -/
  isEnrolled : Address → Address → Symbol → Bool

/-- A freshly deployed contract. -/
def State.empty : State where
  governance := .empty
  timelock := .empty
  pause := none
  migration := .empty
  lending := .empty
  catalog := .empty
  services := .empty

end ChainVerse.LibraryRights
