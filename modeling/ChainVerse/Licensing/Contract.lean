import ChainVerse.Licensing.Types
import ChainVerse.Framework.Machine

namespace ChainVerse.LibraryLicensing

variable {contract : Address}

section Guards

def requireAdmin (env : Env contract) (s : State) (caller : Address) : Outcome Unit := do
  let admin ← orRefuse s.admin (.err .notInitialized)
  refuseIf (caller ≠ admin) (.err .unauthorized)
  requireAuth env caller

/-- The admin has every capability. -/
def requireCapability (env : Env contract) (s : State) (caller : Address) (cap : Capability) :
    Outcome Unit := do
  let admin ← orRefuse s.admin (.err .notInitialized)
  if caller = admin then requireAuth env caller
  else do
    let grant ← orRefuse (s.capability (caller, cap)) (.err .capabilityNotGranted)
    refuseIf (grant.expiresAt ≠ 0 ∧ grant.expiresAt ≤ env.timestamp) (.err .capabilityExpired)
    requireAuth env caller

/-- Grants are derived by the licensee and by librarians. -/
def requireBorrower (env : Env contract) (s : State) (caller : Address) (license : License) :
    Outcome Unit :=
  if caller ≠ license.licensee then requireCapability env s caller .circulation
  else requireAuth env caller

end Guards

section Ids

/-- The bytes that an id is the hash of. -/
def idInput (next timestamp : Nat) (salt : List Byte) : List Byte :=
  beBytes 8 next ++ (beBytes 8 timestamp ++ salt)

/-- A new id, with the next value of its counter. -/
def deriveId (crypto : Crypto) (env : Env contract) (count : Nat) (salt : List Byte) :
    Outcome (Bytes32 × Nat) := do
  let next ← orRefuse (fitsU 64 (count + 1)) (.err .windowOverflow)
  pure (crypto.sha256 (idInput next env.timestamp salt), next)

def deriveCommitment (crypto : Crypto) (loanId : Bytes32) (patron : Address) (renditionId : Bytes32)
    (expiresAt : Nat) : Bytes32 :=
  crypto.sha256
    (bytes32 loanId ++ crypto.addressXdr patron ++ bytes32 renditionId ++ beBytes 8 expiresAt)

end Ids

section Storage

def loadLicense (s : State) (licenseId : Bytes32) : Outcome License :=
  orRefuse (s.rights.license licenseId) (.err .notFound)

def storeLicense (s : State) (licenseId : Bytes32) (license : License) : State :=
  { s with rights := { s.rights with
    license := Function.update s.rights.license licenseId (some license) } }

def loadGrant (s : State) (grantId : Bytes32) : Outcome AccessGrant :=
  orRefuse (s.rights.grant grantId) (.err .notFound)

/-- A license gets an id of its own. -/
def issueLicense (crypto : Crypto) (env : Env contract) (s : State) (license : License) :
    Outcome (Bytes32 × State) := do
  let (id, licenseCount) ← deriveId crypto env s.rights.licenseCount
    (bytes32 license.workId ++ crypto.addressXdr license.licensee)
  let s := { s with rights := { s.rights with licenseCount } }
  pure (id, storeLicense s id license)

end Storage

section Queries

/-- The status and the window of a license at a time. -/
def License.isActive (now : Nat) (license : License) : Bool :=
  license.status = .active ∧ license.notBefore ≤ now ∧ now < license.expiresAt

def isLicenseActive (now : Nat) (s : State) (licenseId : Bytes32) : Outcome Bool := do
  let license ← loadLicense s licenseId
  pure (license.isActive now)

/-- Both the window of the grant and its license are looked at. -/
def isGrantActive (now : Nat) (s : State) (grantId : Bytes32) : Outcome Bool := do
  let grant ← loadGrant s grantId
  let license ← loadLicense s grant.licenseId
  pure (license.isActive now && decide (grant.notBefore ≤ now ∧ now < grant.expiresAt))

/-- `unwrap_or(false)` on the answer. -/
def isGrantUsable (now : Nat) (s : State) (grantId : Bytes32) : Bool :=
  match isGrantActive now s grantId with
  | .ok active => active
  | .error _ => false

end Queries

section Licenses

def setAdmin (env : Env contract) (s : State) (admin : Address) : Outcome State := do
  refuseIf (s.admin.isSome = true) (.err .alreadyInitialized)
  requireAuth env admin
  pure { s with admin := some admin }

def grantLicense (crypto : Crypto) (env : Env contract) (s : State) (caller : Address)
    (workId : Bytes32) (licensee : Address) (rights : String) (notBefore expiresAt totalSeats : Nat) :
    Outcome (Bytes32 × State) := do
  requireCapability env s caller .cataloger
  refuseIf (rights = "") (.err .invalidRights)
  refuseIf (expiresAt ≤ notBefore) (.err .invalidWindow)
  refuseIf (totalSeats = 0) (.err .invalidSeats)
  let admin ← orRefuse s.admin (.err .notInitialized)
  issueLicense crypto env s
    { workId, licensor := admin, licensee, rights, notBefore, expiresAt, status := .active,
      totalSeats, allocatedSeats := 0 }

def revokeLicense (env : Env contract) (s : State) (caller : Address) (licenseId : Bytes32) :
    Outcome State := do
  requireCapability env s caller .circulation
  let license ← loadLicense s licenseId
  refuseIf (license.status ≠ .active) (.err .licenseRevoked)
  pure (storeLicense s licenseId { license with status := .revoked })

def returnLoan (env : Env contract) (s : State) (caller : Address) (loanId : Bytes32) :
    Outcome State :=
  revokeLicense env s caller loanId

def mintInstitutionalLicense (crypto : Crypto) (env : Env contract) (s : State)
    (caller institution treasury : Address) (workId : Bytes32) (rights : String)
    (notBefore expiresAt seats : Nat) (authorizationCommitment : Bytes32) :
    Outcome (Bytes32 × State) := do
  refuseIf (authorizationCommitment = 0) (.err .invalidCommitment)
  let (licenseId, s) ← grantLicense crypto env s caller workId institution rights notBefore expiresAt
    seats
  let mint : InstitutionalMint :=
    { licenseId, institution, treasury, issuer := caller, seats, issuedAt := env.timestamp, expiresAt,
      authorizationCommitment }
  pure (licenseId, { s with
    institutionalMint := Function.update s.institutionalMint licenseId (some mint) })

def scheduleLicenseRevocation (env : Env contract) (s : State) (caller : Address)
    (licenseId : Bytes32) (effectiveAt activeLoansUntil : Nat) (reasonCommitment : Bytes32) :
    Outcome State := do
  requireCapability env s caller .circulation
  refuseIf (reasonCommitment = 0 ∨ activeLoansUntil < effectiveAt) (.err .invalidCommitment)
  let _ ← loadLicense s licenseId
  let record : LicenseRevocation :=
    ⟨licenseId, effectiveAt, reasonCommitment, activeLoansUntil, false⟩
  pure { s with rights := { s.rights with
    revocation := Function.update s.rights.revocation licenseId (some record) } }

/-- The license is revoked at once, whatever the record says of active loans. -/
def applyLicenseRevocation (env : Env contract) (s : State) (caller : Address)
    (licenseId : Bytes32) : Outcome State := do
  requireCapability env s caller .circulation
  let record ← orRefuse (s.rights.revocation licenseId) (.err .revocationNotFound)
  refuseIf (env.timestamp < record.effectiveAt) (.err .revocationNotEffective)
  refuseIf (record.applied = true) (.err .licenseRevoked)
  let license ← loadLicense s licenseId
  let s := storeLicense s licenseId { license with status := .revoked }
  pure { s with rights := { s.rights with
    revocation := Function.update s.rights.revocation licenseId
      (some { record with applied := true }) } }

end Licenses

section Grants

def recordEnrollment (env : Env contract) (s : State) (caller : Address) (courseId : Bytes32)
    (learner : Address) (proofExpiresAt : Nat) (nonce : Bytes32) : Outcome State := do
  requireAdmin env s caller
  pure { s with rights := { s.rights with
    enrollment := Function.update s.rights.enrollment nonce
      (some ⟨courseId, learner, proofExpiresAt⟩) } }

/-- The checks of the enrollment. The expiry is that of the proof, not of the record. -/
def validateEnrollment (env : Env contract) (s : State) (caller : Address) (license : License)
    (proof : EnrollmentProof) : Outcome Unit := do
  refuseIf (proof.learner ≠ caller) (.err .proofLearnerMismatch)
  refuseIf (proof.courseId ≠ license.workId) (.err .proofCourseMismatch)
  let enrollment ← orRefuse (s.rights.enrollment proof.nonce) (.err .enrollmentRequired)
  refuseIf (enrollment.courseId ≠ license.workId ∨ enrollment.learner ≠ caller)
    (.err .enrollmentRequired)
  refuseIf (s.rights.nonceUsed proof.nonce = true) (.err .proofReplayed)
  refuseIf (proof.expiresAt ≤ env.timestamp) (.err .enrollmentExpired)

/-- The borrower is authenticated a second time in the frame. -/
def deriveAccessGrant (crypto : Crypto) (env : Env contract) (s : State) (caller : Address)
    (licenseId : Bytes32) (grantee : Address) (duration : Nat) (proof : EnrollmentProof) :
    Outcome (Bytes32 × State) := do
  refuseIf (duration = 0) (.err .invalidDuration)
  let license ← loadLicense s licenseId
  requireBorrower env s caller license
  requireAuthAgain env caller
  validateEnrollment env s caller license proof
  let s := { s with rights := { s.rights with
    nonceUsed := Function.update s.rights.nonceUsed proof.nonce true } }
  let now := env.timestamp
  refuseIf (now < license.notBefore) (.err .notYetActive)
  refuseIf (license.expiresAt ≤ now) (.err .expired)
  refuseIf (license.status ≠ .active) (.err .licenseRevoked)
  let requestedExpiry ← orRefuse (fitsU 64 (now + duration)) (.err .windowOverflow)
  let grantExpiresAt :=
    if requestedExpiry < license.expiresAt then requestedExpiry else license.expiresAt
  let (grantId, grantCount) ← deriveId crypto env s.grantCount
    (bytes32 licenseId ++ crypto.addressXdr grantee)
  let grant : AccessGrant :=
    { licenseId, grantee, renditionId := license.workId, loanId := licenseId, notBefore := now,
      expiresAt := grantExpiresAt
      commitment := deriveCommitment crypto licenseId grantee license.workId grantExpiresAt }
  pure (grantId, { s with
    grantCount
    rights := { s.rights with grant := Function.update s.rights.grant grantId (some grant) } })

def createReaderSession (crypto : Crypto) (env : Env contract) (s : State) (caller : Address)
    (grantId readerPublicKey : Bytes32) (duration : Nat) : Outcome (Bytes32 × State) := do
  requireAuth env caller
  refuseIf (duration = 0) (.err .invalidDuration)
  let grant ← loadGrant s grantId
  refuseIf (caller ≠ grant.grantee ∨ isGrantUsable env.timestamp s grantId = false) (.err .expired)
  let expiresAt ← orRefuse (fitsU 64 (env.timestamp + duration)) (.err .windowOverflow)
  refuseIf (grant.expiresAt < expiresAt) (.err .invalidWindow)
  let (sessionId, grantCount) ← deriveId crypto env s.grantCount
    (bytes32 grantId ++ bytes32 readerPublicKey)
  let session : ReaderSession :=
    { sessionId, grantId, grantee := caller, readerPublicKey, expiresAt, active := true }
  pure (sessionId, { s with
    grantCount
    readerSession := Function.update s.readerSession sessionId (some session) })

def createOfflineGrant (crypto : Crypto) (env : Env contract) (s : State) (caller : Address)
    (grantId : Bytes32) (expiresAt maxUses : Nat) : Outcome (Bytes32 × State) := do
  requireAuth env caller
  refuseIf (maxUses = 0) (.err .invalidDuration)
  let grant ← loadGrant s grantId
  refuseIf (caller ≠ grant.grantee ∨ expiresAt ≤ env.timestamp ∨ grant.expiresAt < expiresAt)
    (.err .invalidWindow)
  refuseIf (isGrantUsable env.timestamp s grantId = false) (.err .expired)
  let commitmentInput := bytes32 grantId ++ bytes32 grant.loanId ++ crypto.addressXdr caller ++
    beBytes 8 expiresAt ++ beBytes 4 maxUses
  let (offlineId, grantCount) ← deriveId crypto env s.grantCount commitmentInput
  let record : OfflineGrant :=
    { offlineId, grantId, loanId := grant.loanId, grantee := caller
      commitment := crypto.sha256 commitmentInput
      issuedAt := env.timestamp, expiresAt, maxUses, uses := 0, active := true }
  pure (offlineId, { s with
    grantCount
    offlineGrant := Function.update s.offlineGrant offlineId (some record) })

def consumeOfflineGrant (env : Env contract) (s : State) (caller : Address)
    (offlineId commitment : Bytes32) : Outcome State := do
  requireAuth env caller
  let record ← orRefuse (s.offlineGrant offlineId) (.err .offlineGrantNotFound)
  refuseIf (record.grantee ≠ caller ∨ record.active = false ∨ commitment ≠ record.commitment)
    (.err .unauthorized)
  refuseIf (record.expiresAt ≤ env.timestamp) (.err .offlineGrantExpired)
  refuseIf (record.maxUses ≤ record.uses) (.err .offlineGrantExhausted)
  refuseIf (isGrantUsable env.timestamp s record.grantId = false) (.err .expired)
  let uses := record.uses + 1
  let active := if uses = record.maxUses then false else record.active
  pure { s with
    offlineGrant := Function.update s.offlineGrant offlineId (some { record with uses, active }) }

end Grants

section Renditions

def proposeRenditionMigration (env : Env contract) (s : State) (caller : Address)
    (fromWorkId toWorkId : Bytes32) (policy : RenditionMigrationPolicy) : Outcome State := do
  requireAdmin env s caller
  refuseIf (fromWorkId = toWorkId) (.err .invalidRenditionMigration)
  refuseIf ((s.renditionMigration fromWorkId).isSome = true) (.err .renditionMigrationExists)
  let migration : RenditionMigration := ⟨fromWorkId, toWorkId, policy, env.timestamp⟩
  pure { s with
    renditionMigration := Function.update s.renditionMigration fromWorkId (some migration) }

def acceptRenditionMigration (env : Env contract) (s : State) (caller : Address)
    (grantId toWorkId : Bytes32) : Outcome State := do
  let grant ← loadGrant s grantId
  refuseIf (caller ≠ grant.grantee) (.err .unauthorized)
  requireAuth env caller
  let license ← loadLicense s grant.licenseId
  let migration ← orRefuse (s.renditionMigration license.workId) (.err .migrationNotFound)
  refuseIf (migration.toWorkId ≠ toWorkId) (.err .invalidMigrationTarget)
  refuseIf (migration.policy ≠ .optIn) (.err .invalidMigrationTarget)
  pure { s with
    grantMigrationOptIn := Function.update s.grantMigrationOptIn (grantId, toWorkId) true }

/-- An entitlement that exists already stays as it is. -/
def grantEntitlement (env : Env contract) (s : State) (caller : Address) (licenseId : Bytes32)
    (renditionId : Symbol) (accessMode : AccessMode) : Outcome State := do
  requireAdmin env s caller
  let license ← loadLicense s licenseId
  refuseIf (license.status ≠ .active) (.err .licenseRevoked)
  match s.entitlement (licenseId, renditionId, accessMode) with
  | some _ => pure s
  | none => do
    let keys := s.entitlementKeys licenseId
    let _ ← orRefuse (fitsU 32 (keys.length + 1)) (.err .overflow)
    let entitlement : Entitlement := ⟨licenseId, renditionId, accessMode, env.timestamp⟩
    pure { s with
      entitlementKeys :=
        Function.update s.entitlementKeys licenseId (keys ++ [(renditionId, accessMode)])
      entitlement :=
        Function.update s.entitlement (licenseId, renditionId, accessMode) (some entitlement) }

def revokeEntitlement (env : Env contract) (s : State) (caller : Address) (licenseId : Bytes32)
    (renditionId : Symbol) (accessMode : AccessMode) : Outcome State := do
  requireAdmin env s caller
  let _ ← orRefuse (s.entitlement (licenseId, renditionId, accessMode)) (.err .entitlementNotFound)
  pure { s with
    entitlementKeys := Function.update s.entitlementKeys licenseId
      ((s.entitlementKeys licenseId).erase (renditionId, accessMode))
    entitlement := Function.update s.entitlement (licenseId, renditionId, accessMode) none }

end Renditions

section Seats

def allocateSeat (env : Env contract) (s : State) (caller : Address) (licenseId : Bytes32) :
    Outcome State := do
  let license ← loadLicense s licenseId
  refuseIf (caller ≠ license.licensee) (.err .unauthorized)
  requireAuth env caller
  refuseIf (env.timestamp < license.notBefore) (.err .notYetActive)
  refuseIf (license.expiresAt ≤ env.timestamp) (.err .expired)
  refuseIf (license.status ≠ .active) (.err .licenseRevoked)
  refuseIf (license.totalSeats ≤ license.allocatedSeats) (.err .noSeatsAvailable)
  let allocatedSeats ← orRefuse (fitsU 32 (license.allocatedSeats + 1)) (.err .noSeatsAvailable)
  pure (storeLicense s licenseId { license with allocatedSeats })

def releaseSeat (env : Env contract) (s : State) (caller : Address) (licenseId : Bytes32) :
    Outcome State := do
  let license ← loadLicense s licenseId
  refuseIf (caller ≠ license.licensee) (.err .unauthorized)
  requireAuth env caller
  refuseIf (license.allocatedSeats = 0) (.err .noSeatsAllocated)
  let allocatedSeats ← orRefuse (checkedSub license.allocatedSeats 1) (.err .noSeatsAllocated)
  pure (storeLicense s licenseId { license with allocatedSeats })

def setAllocationLimit (env : Env contract) (s : State) (caller : Address) (licenseId : Bytes32)
    (seatLimit : Nat) : Outcome State := do
  refuseIf (seatLimit = 0) (.err .invalidSeats)
  let license ← loadLicense s licenseId
  refuseIf (caller ≠ license.licensee) (.err .unauthorized)
  requireAuth env caller
  refuseIf (seatLimit < s.allocationTotal licenseId) (.err .allocationExceeded)
  pure { s with allocationLimit := Function.update s.allocationLimit licenseId (some seatLimit) }

def allocateSeats (crypto : Crypto) (env : Env contract) (s : State) (caller : Address)
    (licenseId : Bytes32) (organization subAccount : Address) (seats : Nat) :
    Outcome (Bytes32 × State) := do
  refuseIf (seats = 0) (.err .invalidSeats)
  let license ← loadLicense s licenseId
  refuseIf (caller ≠ license.licensee ∨ organization ≠ license.licensee) (.err .unauthorized)
  requireAuth env caller
  refuseIf (license.status ≠ .active) (.err .licenseRevoked)
  refuseIf (env.timestamp < license.notBefore) (.err .notYetActive)
  refuseIf (license.expiresAt ≤ env.timestamp) (.err .expired)
  let limit ← orRefuse (s.allocationLimit licenseId) (.err .invalidSeats)
  let next ← orRefuse (fitsU 32 (s.allocationTotal licenseId + seats)) (.err .allocationExceeded)
  refuseIf (limit < next) (.err .allocationExceeded)
  let (allocationId, grantCount) ← deriveId crypto env s.grantCount
    (bytes32 licenseId ++ crypto.addressXdr subAccount)
  let allocation : InstitutionalAllocation :=
    ⟨licenseId, organization, subAccount, seats, license.expiresAt, true⟩
  pure (allocationId, { s with
    grantCount
    allocation := Function.update s.allocation allocationId (some allocation)
    allocationTotal := Function.update s.allocationTotal licenseId next })

def revokeAllocation (env : Env contract) (s : State) (caller : Address) (allocationId : Bytes32) :
    Outcome State := do
  let allocation ← orRefuse (s.allocation allocationId) (.err .notFound)
  let license ← loadLicense s allocation.parentLicenseId
  refuseIf (caller ≠ license.licensee) (.err .unauthorized)
  requireAuth env caller
  refuseIf (allocation.active = false) (.err .notFound)
  let total := s.allocationTotal allocation.parentLicenseId
  pure { s with
    allocation := Function.update s.allocation allocationId
      (some { allocation with active := false })
    allocationTotal := Function.update s.allocationTotal allocation.parentLicenseId
      (total - allocation.seats) }

end Seats

section Offers

def issueAttestation (crypto : Crypto) (env : Env contract) (s : State)
    (caller subject institution : Address) (role : LibraryRole) (expiresAt : Nat) :
    Outcome (Bytes32 × State) := do
  requireAdmin env s caller
  refuseIf (expiresAt ≤ env.timestamp) (.err .invalidWindow)
  let (id, attestationCount) ← deriveId crypto env s.attestationCount
    (crypto.addressXdr subject ++ crypto.addressXdr institution)
  let attestation : EligibilityAttestation :=
    { subject, institution, role, issuer := caller, issuedAt := env.timestamp, expiresAt,
      active := true }
  pure (id, { s with
    attestationCount
    attestation := Function.update s.attestation id (some attestation) })

def revokeAttestation (env : Env contract) (s : State) (caller : Address)
    (attestationId : Bytes32) : Outcome State := do
  let attestation ← orRefuse (s.attestation attestationId) (.err .notFound)
  refuseIf (caller ≠ attestation.issuer) (.err .unauthorized)
  requireAuth env caller
  refuseIf (attestation.active = false) (.err .attestationRevoked)
  pure { s with
    attestation := Function.update s.attestation attestationId
      (some { attestation with active := false }) }

def createRentalOffer (crypto : Crypto) (env : Env contract) (s : State) (publisher : Address)
    (terms : OfferTerms) : Outcome (Bytes32 × State) := do
  requireAuth env publisher
  refuseIf (terms.seatCount = 0 ∨ terms.asset = "" ∨ terms.price < 0 ∨
    terms.expiresAt ≤ terms.notBefore) (.err .invalidWindow)
  refuseIf (terms.expiresAt ≤ env.timestamp) (.err .offerExpired)
  let (id, offerCount) ← deriveId crypto env s.offerCount
    (bytes32 terms.nonce ++ crypto.addressXdr terms.buyer)
  pure (id, { s with
    offerCount
    offer := Function.update s.offer id (some ⟨publisher, terms, false⟩) })

/-- The license of an accepted offer has the seats of the offer. -/
def acceptRentalOffer (crypto : Crypto) (env : Env contract) (s : State) (buyer : Address)
    (offerId contractId : Bytes32) (network : String) : Outcome (Bytes32 × State) := do
  let offer ← orRefuse (s.offer offerId) (.err .notFound)
  refuseIf (offer.accepted = true) (.err .offerAlreadyAccepted)
  refuseIf (buyer ≠ offer.terms.buyer ∨ contractId ≠ offer.terms.contractId ∨
    network ≠ offer.terms.network) (.err .offerBindingMismatch)
  requireAuth env buyer
  refuseIf (env.timestamp < offer.terms.notBefore) (.err .notYetActive)
  refuseIf (offer.terms.expiresAt ≤ env.timestamp) (.err .offerExpired)
  let s := { s with
    offer := Function.update s.offer offerId (some { offer with accepted := true }) }
  issueLicense crypto env s
    { workId := offer.terms.workId, licensor := offer.publisher, licensee := buyer
      rights := "rental", notBefore := env.timestamp, expiresAt := offer.terms.expiresAt
      status := .active, totalSeats := offer.terms.seatCount, allocatedSeats := 0 }

end Offers

/-- The state-changing entry points. -/
inductive Call where
  | setAdmin (admin : Address)
  | grantLicense (caller : Address) (workId : Bytes32) (licensee : Address) (rights : String)
      (notBefore expiresAt totalSeats : Nat)
  | revokeLicense (caller : Address) (licenseId : Bytes32)
  | returnLoan (caller : Address) (loanId : Bytes32)
  | mintInstitutionalLicense (caller institution treasury : Address) (workId : Bytes32)
      (rights : String) (notBefore expiresAt seats : Nat) (authorizationCommitment : Bytes32)
  | scheduleLicenseRevocation (caller : Address) (licenseId : Bytes32)
      (effectiveAt activeLoansUntil : Nat) (reasonCommitment : Bytes32)
  | applyLicenseRevocation (caller : Address) (licenseId : Bytes32)
  | recordEnrollment (caller : Address) (courseId : Bytes32) (learner : Address)
      (proofExpiresAt : Nat) (nonce : Bytes32)
  | deriveAccessGrant (caller : Address) (licenseId : Bytes32) (grantee : Address) (duration : Nat)
      (proof : EnrollmentProof)
  | createReaderSession (caller : Address) (grantId readerPublicKey : Bytes32) (duration : Nat)
  | createOfflineGrant (caller : Address) (grantId : Bytes32) (expiresAt maxUses : Nat)
  | consumeOfflineGrant (caller : Address) (offlineId commitment : Bytes32)
  | proposeRenditionMigration (caller : Address) (fromWorkId toWorkId : Bytes32)
      (policy : RenditionMigrationPolicy)
  | acceptRenditionMigration (caller : Address) (grantId toWorkId : Bytes32)
  | grantEntitlement (caller : Address) (licenseId : Bytes32) (renditionId : Symbol)
      (accessMode : AccessMode)
  | revokeEntitlement (caller : Address) (licenseId : Bytes32) (renditionId : Symbol)
      (accessMode : AccessMode)
  | allocateSeat (caller : Address) (licenseId : Bytes32)
  | releaseSeat (caller : Address) (licenseId : Bytes32)
  | setAllocationLimit (caller : Address) (licenseId : Bytes32) (seatLimit : Nat)
  | allocateSeats (caller : Address) (licenseId : Bytes32) (organization subAccount : Address)
      (seats : Nat)
  | revokeAllocation (caller : Address) (allocationId : Bytes32)
  | issueAttestation (caller subject institution : Address) (role : LibraryRole) (expiresAt : Nat)
  | revokeAttestation (caller : Address) (attestationId : Bytes32)
  | createRentalOffer (publisher : Address) (terms : OfferTerms)
  | acceptRentalOffer (buyer : Address) (offerId contractId : Bytes32) (network : String)
  deriving DecidableEq

structure Input (contract : Address) where
  env : Env contract
  call : Call

/-- The new id that a call returns. -/
abbrev Answer := Option Bytes32

/-- A call that returns an id. -/
def named (x : Outcome (Bytes32 × State)) : Outcome (Answer × State) :=
  (fun (id, s) => (some id, s)) <$> x

/-- A call that returns nothing. -/
def silent (x : Outcome State) : Outcome (Answer × State) := (none, ·) <$> x

/-- One entry point applied to the state. -/
def execute (crypto : Crypto) (env : Env contract) (s : State) : Call → Outcome (Answer × State)
  | .setAdmin admin => silent (setAdmin env s admin)
  | .grantLicense caller workId licensee rights notBefore expiresAt totalSeats =>
    named (grantLicense crypto env s caller workId licensee rights notBefore expiresAt totalSeats)
  | .revokeLicense caller licenseId => silent (revokeLicense env s caller licenseId)
  | .returnLoan caller loanId => silent (returnLoan env s caller loanId)
  | .mintInstitutionalLicense caller institution treasury workId rights notBefore expiresAt seats
      authorizationCommitment =>
    named (mintInstitutionalLicense crypto env s caller institution treasury workId rights notBefore
      expiresAt seats authorizationCommitment)
  | .scheduleLicenseRevocation caller licenseId effectiveAt activeLoansUntil reasonCommitment =>
    silent (scheduleLicenseRevocation env s caller licenseId effectiveAt activeLoansUntil
      reasonCommitment)
  | .applyLicenseRevocation caller licenseId => silent (applyLicenseRevocation env s caller licenseId)
  | .recordEnrollment caller courseId learner proofExpiresAt nonce =>
    silent (recordEnrollment env s caller courseId learner proofExpiresAt nonce)
  | .deriveAccessGrant caller licenseId grantee duration proof =>
    named (deriveAccessGrant crypto env s caller licenseId grantee duration proof)
  | .createReaderSession caller grantId readerPublicKey duration =>
    named (createReaderSession crypto env s caller grantId readerPublicKey duration)
  | .createOfflineGrant caller grantId expiresAt maxUses =>
    named (createOfflineGrant crypto env s caller grantId expiresAt maxUses)
  | .consumeOfflineGrant caller offlineId commitment =>
    silent (consumeOfflineGrant env s caller offlineId commitment)
  | .proposeRenditionMigration caller fromWorkId toWorkId policy =>
    silent (proposeRenditionMigration env s caller fromWorkId toWorkId policy)
  | .acceptRenditionMigration caller grantId toWorkId =>
    silent (acceptRenditionMigration env s caller grantId toWorkId)
  | .grantEntitlement caller licenseId renditionId accessMode =>
    silent (grantEntitlement env s caller licenseId renditionId accessMode)
  | .revokeEntitlement caller licenseId renditionId accessMode =>
    silent (revokeEntitlement env s caller licenseId renditionId accessMode)
  | .allocateSeat caller licenseId => silent (allocateSeat env s caller licenseId)
  | .releaseSeat caller licenseId => silent (releaseSeat env s caller licenseId)
  | .setAllocationLimit caller licenseId seatLimit =>
    silent (setAllocationLimit env s caller licenseId seatLimit)
  | .allocateSeats caller licenseId organization subAccount seats =>
    named (allocateSeats crypto env s caller licenseId organization subAccount seats)
  | .revokeAllocation caller allocationId => silent (revokeAllocation env s caller allocationId)
  | .issueAttestation caller subject institution role expiresAt =>
    named (issueAttestation crypto env s caller subject institution role expiresAt)
  | .revokeAttestation caller attestationId => silent (revokeAttestation env s caller attestationId)
  | .createRentalOffer publisher terms => named (createRentalOffer crypto env s publisher terms)
  | .acceptRentalOffer buyer offerId contractId network =>
    named (acceptRentalOffer crypto env s buyer offerId contractId network)

def machine (contract : Address) (crypto : Crypto) :
    Machine State (Input contract) Answer (Abort LicenseError) where
  step s i := execute crypto i.env s i.call

end ChainVerse.LibraryLicensing
