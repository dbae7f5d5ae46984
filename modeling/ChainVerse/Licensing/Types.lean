import ChainVerse.Host.Issuance

namespace ChainVerse.LibraryLicensing

/-- The last seven are returned by the code and missing in its list. -/
inductive LicenseError where
  | notInitialized
  | alreadyInitialized
  | unauthorized
  | notFound
  | invalidWindow
  | windowOverflow
  | notYetActive
  | expired
  | licenseRevoked
  | invalidDuration
  | invalidRights
  | invalidSeats
  | noSeatsAvailable
  | noSeatsAllocated
  | entitlementNotFound
  | overflow
  | invalidRenditionMigration
  | renditionMigrationExists
  | migrationNotFound
  | migrationNotAccepted
  | invalidMigrationTarget
  | allocationExceeded
  | invalidRole
  | attestationExpired
  | attestationRevoked
  | offerExpired
  | offerAlreadyAccepted
  | offerBindingMismatch
  | invalidPrice
  | nonTransferable
  | loanReturned
  | invalidRendition
  | revocationNotFound
  | revocationNotEffective
  | invalidCommitment
  | sessionNotFound
  | offlineGrantNotFound
  | offlineGrantExpired
  | offlineGrantExhausted
  | capabilityNotGranted
  | capabilityExpired
  | proofLearnerMismatch
  | proofCourseMismatch
  | enrollmentRequired
  | proofReplayed
  | enrollmentExpired
  deriving DecidableEq, Repr

abbrev Outcome (α : Type) := Except (Abort LicenseError) α

inductive LicenseStatus where
  | active
  | revoked
  deriving DecidableEq, Repr

inductive AccessMode where
  | borrow
  | accessibleAlternative
  deriving DecidableEq, Repr

structure License where
  workId : Bytes32
  licensor : Address
  licensee : Address
  rights : String
  /-- The first second of the window. -/
  notBefore : Nat
  /-- The first second after the window. -/
  expiresAt : Nat
  status : LicenseStatus
  totalSeats : Nat
  allocatedSeats : Nat
  deriving DecidableEq

inductive LibraryRole where
  | student
  | tutor
  | librarian
  | auditor
  deriving DecidableEq, Repr

structure EligibilityAttestation where
  subject : Address
  institution : Address
  role : LibraryRole
  issuer : Address
  issuedAt : Nat
  expiresAt : Nat
  active : Bool
  deriving DecidableEq

/-- What a publisher offers a buyer. -/
structure OfferTerms where
  workId : Bytes32
  buyer : Address
  contractId : Bytes32
  network : String
  seatCount : Nat
  notBefore : Nat
  expiresAt : Nat
  asset : String
  price : Int
  nonce : Bytes32
  deriving DecidableEq

structure RentalOffer where
  publisher : Address
  terms : OfferTerms
  accepted : Bool
  deriving DecidableEq

structure InstitutionalAllocation where
  parentLicenseId : Bytes32
  organization : Address
  subAccount : Address
  seats : Nat
  expiresAt : Nat
  active : Bool
  deriving DecidableEq

structure AccessGrant where
  licenseId : Bytes32
  grantee : Address
  renditionId : Bytes32
  loanId : Bytes32
  notBefore : Nat
  expiresAt : Nat
  commitment : Bytes32
  deriving DecidableEq

/-- What the caller of `derive_access_grant` hands in. -/
structure EnrollmentProof where
  courseId : Bytes32
  learner : Address
  expiresAt : Nat
  nonce : Bytes32
  deriving DecidableEq

/-- What the admin has stored under a nonce. -/
structure EnrollmentRecord where
  courseId : Bytes32
  learner : Address
  proofExpiresAt : Nat
  deriving DecidableEq

inductive Capability where
  | cataloger
  | circulation
  | finance
  | compliance
  | policy
  | auditor
  deriving DecidableEq, Repr

structure CapabilityGrant where
  holder : Address
  capability : Capability
  /-- 0 means never. -/
  expiresAt : Nat
  deriving DecidableEq

structure InstitutionalMint where
  licenseId : Bytes32
  institution : Address
  treasury : Address
  issuer : Address
  seats : Nat
  issuedAt : Nat
  expiresAt : Nat
  authorizationCommitment : Bytes32
  deriving DecidableEq

structure LicenseRevocation where
  licenseId : Bytes32
  effectiveAt : Nat
  reasonCommitment : Bytes32
  activeLoansPreservedUntil : Nat
  applied : Bool
  deriving DecidableEq

structure ReaderSession where
  sessionId : Bytes32
  grantId : Bytes32
  grantee : Address
  readerPublicKey : Bytes32
  expiresAt : Nat
  active : Bool
  deriving DecidableEq

structure OfflineGrant where
  offlineId : Bytes32
  grantId : Bytes32
  loanId : Bytes32
  grantee : Address
  commitment : Bytes32
  issuedAt : Nat
  expiresAt : Nat
  maxUses : Nat
  uses : Nat
  active : Bool
  deriving DecidableEq

inductive RenditionMigrationPolicy where
  | optIn
  | forced
  deriving DecidableEq, Repr

structure RenditionMigration where
  fromWorkId : Bytes32
  toWorkId : Bytes32
  policy : RenditionMigrationPolicy
  createdAt : Nat
  deriving DecidableEq

structure Entitlement where
  licenseId : Bytes32
  renditionId : Symbol
  accessMode : AccessMode
  grantedAt : Nat
  deriving DecidableEq

/-- The tables that a grant is derived from and checked against. -/
structure Rights where
  licenseCount : Nat
  license : Bytes32 → Option License
  revocation : Bytes32 → Option LicenseRevocation
  grant : Bytes32 → Option AccessGrant
  enrollment : Bytes32 → Option EnrollmentRecord
  nonceUsed : Bytes32 → Bool

/-- The storage of the contract. -/
structure State where
  admin : Option Address
  capability : Address × Capability → Option CapabilityGrant
  rights : Rights
  /-- Counts the ids of grants, allocations, sessions and offline grants. -/
  grantCount : Nat
  entitlement : Bytes32 × Symbol × AccessMode → Option Entitlement
  entitlementKeys : Bytes32 → List (Symbol × AccessMode)
  renditionMigration : Bytes32 → Option RenditionMigration
  /-- By the grant and the successor. -/
  grantMigrationOptIn : Bytes32 × Bytes32 → Bool
  allocation : Bytes32 → Option InstitutionalAllocation
  allocationTotal : Bytes32 → Nat
  allocationLimit : Bytes32 → Option Nat
  attestationCount : Nat
  attestation : Bytes32 → Option EligibilityAttestation
  offerCount : Nat
  offer : Bytes32 → Option RentalOffer
  institutionalMint : Bytes32 → Option InstitutionalMint
  readerSession : Bytes32 → Option ReaderSession
  offlineGrant : Bytes32 → Option OfflineGrant

def State.empty : State where
  admin := none
  capability := fun _ => none
  rights := {
    licenseCount := 0
    license := fun _ => none
    revocation := fun _ => none
    grant := fun _ => none
    enrollment := fun _ => none
    nonceUsed := fun _ => false }
  grantCount := 0
  entitlement := fun _ => none
  entitlementKeys := fun _ => []
  renditionMigration := fun _ => none
  grantMigrationOptIn := fun _ => false
  allocation := fun _ => none
  allocationTotal := fun _ => 0
  allocationLimit := fun _ => none
  attestationCount := 0
  attestation := fun _ => none
  offerCount := 0
  offer := fun _ => none
  institutionalMint := fun _ => none
  readerSession := fun _ => none
  offlineGrant := fun _ => none

end ChainVerse.LibraryLicensing
