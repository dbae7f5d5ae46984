import ChainVerse.Framework.Histories
import ChainVerse.Framework.Registers
import ChainVerse.Framework.Tables
import ChainVerse.Licensing.Steps

namespace ChainVerse.LibraryLicensing

variable {contract : Address} {crypto : Crypto} {env : Env contract} {s s' : State} {call : Call}
  {o : Answer} {i : Input contract} {es : List (Entry State (Input contract) Answer)}

section Changes

/-- Calls that touch what is held under a license: entitlements, renditions, seats of organizations and
offline grants. -/
def Call.holding : Call → Bool
  | .createOfflineGrant .. | .consumeOfflineGrant .. | .proposeRenditionMigration ..
  | .acceptRenditionMigration .. | .grantEntitlement .. | .revokeEntitlement .. | .setAllocationLimit ..
  | .allocateSeats .. | .revokeAllocation .. => true
  | _ => false

structure SameHoldings (s s' : State) : Prop where
  entitlement : s'.entitlement = s.entitlement
  entitlementKeys : s'.entitlementKeys = s.entitlementKeys
  renditionMigration : s'.renditionMigration = s.renditionMigration
  grantMigrationOptIn : s'.grantMigrationOptIn = s.grantMigrationOptIn
  allocation : s'.allocation = s.allocation
  allocationTotal : s'.allocationTotal = s.allocationTotal
  allocationLimit : s'.allocationLimit = s.allocationLimit
  offlineGrant : s'.offlineGrant = s.offlineGrant

/-- A use of an offline grant. -/
def OfflineGrant.used (record : OfflineGrant) : OfflineGrant :=
  { record with
    uses := record.uses + 1
    active := if record.uses + 1 = record.maxUses then false else record.active }

/-- Everything that an accepted call can have done to what is held under a license. -/
inductive Change (env : Env contract) (s : State) : Call → Answer → State → Prop where
  | aside {call : Call} {o : Answer} {s' : State} (kind : call.holding = false) (same : SameHoldings s s') :
      Change env s call o s'
  | entitled {caller : Address} {ent : Entitlement} {license : License} (admin : s.admin = some caller)
      (signed : env.signers caller = true) (stored : s.rights.license ent.licenseId = some license)
      (active : license.status = .active) (now : ent.grantedAt = env.timestamp)
      (absent : s.entitlement (ent.licenseId, ent.renditionId, ent.accessMode) = none)
      (room : (s.entitlementKeys ent.licenseId).length + 1 < 2^32) :
      Change env s (.grantEntitlement caller ent.licenseId ent.renditionId ent.accessMode) none { s with
        entitlementKeys := Function.update s.entitlementKeys ent.licenseId
          (s.entitlementKeys ent.licenseId ++ [(ent.renditionId, ent.accessMode)])
        entitlement :=
          Function.update s.entitlement (ent.licenseId, ent.renditionId, ent.accessMode) (some ent) }
  | kept {caller : Address} {ent : Entitlement} {key : Bytes32 × Symbol × AccessMode}
      (admin : s.admin = some caller) (signed : env.signers caller = true)
      (present : s.entitlement key = some ent) :
      Change env s (.grantEntitlement caller key.1 key.2.1 key.2.2) none s
  | stripped {caller : Address} {ent : Entitlement} {key : Bytes32 × Symbol × AccessMode}
      (admin : s.admin = some caller) (signed : env.signers caller = true)
      (present : s.entitlement key = some ent) :
      Change env s (.revokeEntitlement caller key.1 key.2.1 key.2.2) none { s with
        entitlementKeys := Function.update s.entitlementKeys key.1 ((s.entitlementKeys key.1).erase key.2)
        entitlement := Function.update s.entitlement key none }
  | proposed {caller : Address} {m : RenditionMigration} (admin : s.admin = some caller)
      (signed : env.signers caller = true) (moved : m.fromWorkId ≠ m.toWorkId)
      (now : m.createdAt = env.timestamp) (first : s.renditionMigration m.fromWorkId = none) :
      Change env s (.proposeRenditionMigration caller m.fromWorkId m.toWorkId m.policy) none { s with
        renditionMigration := Function.update s.renditionMigration m.fromWorkId (some m) }
  | optedIn {grantId : Bytes32} {grant : AccessGrant} {license : License} {m : RenditionMigration}
      (found : s.rights.grant grantId = some grant) (signed : env.signers grant.grantee = true)
      (stored : s.rights.license grant.licenseId = some license)
      (standing : s.renditionMigration license.workId = some m) (optional : m.policy = .optIn) :
      Change env s (.acceptRenditionMigration grant.grantee grantId m.toWorkId) none { s with
        grantMigrationOptIn := Function.update s.grantMigrationOptIn (grantId, m.toWorkId) true }
  | limited {licenseId : Bytes32} {license : License} {seatLimit : Nat}
      (stored : s.rights.license licenseId = some license) (signed : env.signers license.licensee = true)
      (room : s.allocationTotal licenseId ≤ seatLimit) :
      Change env s (.setAllocationLimit license.licensee licenseId seatLimit) none { s with
        allocationLimit := Function.update s.allocationLimit licenseId (some seatLimit) }
  | allotted {id : Bytes32} {a : InstitutionalAllocation} {license : License} {limit count : Nat}
      (stored : s.rights.license a.parentLicenseId = some license) (owner : a.organization = license.licensee)
      (signed : env.signers license.licensee = true) (usable : license.isActive env.timestamp = true)
      (seats : 0 < a.seats) (standing : a.active = true)
      (limited : s.allocationLimit a.parentLicenseId = some limit)
      (room : s.allocationTotal a.parentLicenseId + a.seats ≤ limit) :
      Change env s (.allocateSeats license.licensee a.parentLicenseId a.organization a.subAccount a.seats)
        (some id) { s with
          grantCount := count
          allocation := Function.update s.allocation id (some a)
          allocationTotal := Function.update s.allocationTotal a.parentLicenseId
            (s.allocationTotal a.parentLicenseId + a.seats) }
  | reclaimed {id : Bytes32} {a : InstitutionalAllocation} {license : License}
      (found : s.allocation id = some a) (stored : s.rights.license a.parentLicenseId = some license)
      (signed : env.signers license.licensee = true) (standing : a.active = true) :
      Change env s (.revokeAllocation license.licensee id) none { s with
        allocation := Function.update s.allocation id (some { a with active := false })
        allocationTotal := Function.update s.allocationTotal a.parentLicenseId
          (s.allocationTotal a.parentLicenseId - a.seats) }
  | lent {id : Bytes32} {record : OfflineGrant} {grant : AccessGrant} {count : Nat}
      (named : record.offlineId = id) (found : s.rights.grant record.grantId = some grant)
      (holder : record.grantee = grant.grantee) (signed : env.signers record.grantee = true)
      (usable : isGrantUsable env.timestamp s record.grantId = true) (now : record.issuedAt = env.timestamp)
      (window : env.timestamp < record.expiresAt ∧ record.expiresAt ≤ grant.expiresAt)
      (bounded : 0 < record.maxUses) (unused : record.uses = 0) (standing : record.active = true) :
      Change env s (.createOfflineGrant record.grantee record.grantId record.expiresAt record.maxUses)
        (some id) { s with
          grantCount := count
          offlineGrant := Function.update s.offlineGrant id (some record) }
  | used {id : Bytes32} {record : OfflineGrant} (found : s.offlineGrant id = some record)
      (signed : env.signers record.grantee = true) (standing : record.active = true)
      (early : env.timestamp < record.expiresAt) (left : record.uses < record.maxUses)
      (usable : isGrantUsable env.timestamp s record.grantId = true) :
      Change env s (.consumeOfflineGrant record.grantee id record.commitment) none { s with
        offlineGrant := Function.update s.offlineGrant id (some record.used) }

section Aside

variable {caller : Address} {licenseId id : Bytes32}

theorem issueLicense_same {license : License} (h : issueLicense crypto env s license = .ok (id, s')) :
    SameHoldings s s' := by
  simp only [issueLicense, storeLicense, bind_eq_ok, Prod.exists, pure_eq_ok, Prod.mk.injEq] at h
  obtain ⟨_, _, _, _, rfl⟩ := h
  exact ⟨rfl, rfl, rfl, rfl, rfl, rfl, rfl, rfl⟩

theorem grantLicense_same {workId : Bytes32} {licensee : Address} {rights : String}
    {notBefore expiresAt totalSeats : Nat}
    (h : grantLicense crypto env s caller workId licensee rights notBefore expiresAt totalSeats = .ok (id, s')) :
    SameHoldings s s' := by
  obtain ⟨_, _, _, _, hissued⟩ := grantLicense_eq_ok h
  exact issueLicense_same hissued

theorem mintInstitutionalLicense_same {institution treasury : Address} {workId commitment : Bytes32}
    {rights : String} {notBefore expiresAt seats : Nat}
    (h : mintInstitutionalLicense crypto env s caller institution treasury workId rights notBefore expiresAt seats
      commitment = .ok (id, s')) : SameHoldings s s' := by
  simp only [mintInstitutionalLicense, bind_eq_ok, Prod.exists, pure_eq_ok, Prod.mk.injEq, exists_unit] at h
  obtain ⟨_, _, middle, hgranted, _, rfl⟩ := h
  exact { grantLicense_same hgranted with }

theorem acceptRentalOffer_same {buyer : Address} {offerId contractId : Bytes32} {network : String}
    (h : acceptRentalOffer crypto env s buyer offerId contractId network = .ok (id, s')) :
    SameHoldings s s' := by
  simp only [acceptRentalOffer, bind_eq_ok, exists_unit] at h
  obtain ⟨_, _, _, _, _, _, _, hissued⟩ := h
  exact { issueLicense_same hissued with }

theorem revokeLicense_same (h : revokeLicense env s caller licenseId = .ok s') : SameHoldings s s' := by
  simp only [revokeLicense, storeLicense, bind_eq_ok, exists_unit, pure_eq_ok] at h
  obtain ⟨_, _, _, _, rfl⟩ := h
  exact ⟨rfl, rfl, rfl, rfl, rfl, rfl, rfl, rfl⟩

theorem scheduleLicenseRevocation_same {effectiveAt activeLoansUntil : Nat} {reasonCommitment : Bytes32}
    (h : scheduleLicenseRevocation env s caller licenseId effectiveAt activeLoansUntil reasonCommitment = .ok s') :
    SameHoldings s s' := by
  simp only [scheduleLicenseRevocation, bind_eq_ok, exists_unit, pure_eq_ok] at h
  obtain ⟨_, _, _, _, rfl⟩ := h
  exact ⟨rfl, rfl, rfl, rfl, rfl, rfl, rfl, rfl⟩

theorem applyLicenseRevocation_same (h : applyLicenseRevocation env s caller licenseId = .ok s') :
    SameHoldings s s' := by
  simp only [applyLicenseRevocation, storeLicense, bind_eq_ok, exists_unit, pure_eq_ok] at h
  obtain ⟨_, _, _, _, _, _, _, rfl⟩ := h
  exact ⟨rfl, rfl, rfl, rfl, rfl, rfl, rfl, rfl⟩

theorem recordEnrollment_same {courseId nonce : Bytes32} {learner : Address} {proofExpiresAt : Nat}
    (h : recordEnrollment env s caller courseId learner proofExpiresAt nonce = .ok s') : SameHoldings s s' := by
  simp only [recordEnrollment, bind_eq_ok, exists_unit, pure_eq_ok] at h
  obtain ⟨_, rfl⟩ := h
  exact ⟨rfl, rfl, rfl, rfl, rfl, rfl, rfl, rfl⟩

theorem deriveAccessGrant_same {grantee : Address} {duration : Nat} {proof : EnrollmentProof}
    (h : deriveAccessGrant crypto env s caller licenseId grantee duration proof = .ok (id, s')) :
    SameHoldings s s' := by
  simp only [deriveAccessGrant, bind_eq_ok, exists_unit, Prod.exists, pure_eq_ok, Prod.mk.injEq] at h
  obtain ⟨_, _, _, _, _, _, _, _, _, _, _, _, _, _, _, rfl⟩ := h
  exact ⟨rfl, rfl, rfl, rfl, rfl, rfl, rfl, rfl⟩

theorem createReaderSession_same {grantId key : Bytes32} {duration : Nat}
    (h : createReaderSession crypto env s caller grantId key duration = .ok (id, s')) : SameHoldings s s' := by
  simp only [createReaderSession, bind_eq_ok, exists_unit, Prod.exists, pure_eq_ok, Prod.mk.injEq] at h
  obtain ⟨_, _, _, _, _, _, _, _, _, _, _, _, rfl⟩ := h
  exact ⟨rfl, rfl, rfl, rfl, rfl, rfl, rfl, rfl⟩

theorem setAdmin_same {admin : Address} (h : setAdmin env s admin = .ok s') : SameHoldings s s' := by
  simp only [setAdmin, bind_eq_ok, exists_unit, pure_eq_ok] at h
  obtain ⟨_, _, rfl⟩ := h
  exact ⟨rfl, rfl, rfl, rfl, rfl, rfl, rfl, rfl⟩

theorem allocateSeat_same (h : allocateSeat env s caller licenseId = .ok s') : SameHoldings s s' := by
  simp only [allocateSeat, storeLicense, bind_eq_ok, exists_unit, pure_eq_ok] at h
  obtain ⟨_, _, _, _, _, _, _, _, _, _, rfl⟩ := h
  exact ⟨rfl, rfl, rfl, rfl, rfl, rfl, rfl, rfl⟩

theorem releaseSeat_same (h : releaseSeat env s caller licenseId = .ok s') : SameHoldings s s' := by
  simp only [releaseSeat, storeLicense, bind_eq_ok, exists_unit, pure_eq_ok] at h
  obtain ⟨_, _, _, _, _, _, _, rfl⟩ := h
  exact ⟨rfl, rfl, rfl, rfl, rfl, rfl, rfl, rfl⟩

theorem issueAttestation_same {subject institution : Address} {role : LibraryRole} {expiresAt : Nat}
    (h : issueAttestation crypto env s caller subject institution role expiresAt = .ok (id, s')) :
    SameHoldings s s' := by
  simp only [issueAttestation, bind_eq_ok, exists_unit, Prod.exists, pure_eq_ok, Prod.mk.injEq] at h
  obtain ⟨_, _, _, _, _, _, rfl⟩ := h
  exact ⟨rfl, rfl, rfl, rfl, rfl, rfl, rfl, rfl⟩

theorem revokeAttestation_same (h : revokeAttestation env s caller id = .ok s') : SameHoldings s s' := by
  simp only [revokeAttestation, bind_eq_ok, exists_unit, pure_eq_ok] at h
  obtain ⟨_, _, _, _, _, rfl⟩ := h
  exact ⟨rfl, rfl, rfl, rfl, rfl, rfl, rfl, rfl⟩

theorem createRentalOffer_same {publisher : Address} {terms : OfferTerms}
    (h : createRentalOffer crypto env s publisher terms = .ok (id, s')) : SameHoldings s s' := by
  simp only [createRentalOffer, bind_eq_ok, exists_unit, Prod.exists, pure_eq_ok, Prod.mk.injEq] at h
  obtain ⟨_, _, _, _, _, _, _, rfl⟩ := h
  exact ⟨rfl, rfl, rfl, rfl, rfl, rfl, rfl, rfl⟩

end Aside

section Moves

variable {caller : Address} {licenseId id : Bytes32}

theorem grantEntitlement_change {renditionId : Symbol} {accessMode : AccessMode}
    (h : grantEntitlement env s caller licenseId renditionId accessMode = .ok s') :
    Change env s (.grantEntitlement caller licenseId renditionId accessMode) none s' := by
  simp only [grantEntitlement, loadLicense, bind_eq_ok, orRefuse_eq_ok, refuseIf_eq_ok, not_not,
    exists_unit] at h
  obtain ⟨hadmin, license, hstored, hactive, hrest⟩ := h
  obtain ⟨hadmin, hsigned⟩ := requireAdmin_eq_ok hadmin
  cases hfound : s.entitlement (licenseId, renditionId, accessMode) with
  | some ent =>
    rw [hfound, pure_eq_ok] at hrest
    rw [← hrest]
    exact @Change.kept _ _ _ _ ent (licenseId, renditionId, accessMode) hadmin hsigned hfound
  | none =>
    simp only [hfound, bind_eq_ok, orRefuse_eq_ok, fitsU_eq_some, pure_eq_ok] at hrest
    obtain ⟨_, ⟨hroom, _⟩, rfl⟩ := hrest
    exact @Change.entitled _ _ _ _ ⟨licenseId, renditionId, accessMode, env.timestamp⟩ license hadmin hsigned
      hstored hactive rfl hfound hroom

theorem revokeEntitlement_change {renditionId : Symbol} {accessMode : AccessMode}
    (h : revokeEntitlement env s caller licenseId renditionId accessMode = .ok s') :
    Change env s (.revokeEntitlement caller licenseId renditionId accessMode) none s' := by
  simp only [revokeEntitlement, bind_eq_ok, orRefuse_eq_ok, exists_unit, pure_eq_ok] at h
  obtain ⟨hadmin, ent, hfound, rfl⟩ := h
  obtain ⟨hadmin, hsigned⟩ := requireAdmin_eq_ok hadmin
  exact @Change.stripped _ _ _ _ ent (licenseId, renditionId, accessMode) hadmin hsigned hfound

theorem proposeRenditionMigration_change {fromWorkId toWorkId : Bytes32} {policy : RenditionMigrationPolicy}
    (h : proposeRenditionMigration env s caller fromWorkId toWorkId policy = .ok s') :
    Change env s (.proposeRenditionMigration caller fromWorkId toWorkId policy) none s' := by
  simp only [proposeRenditionMigration, bind_eq_ok, refuseIf_eq_ok, exists_unit, pure_eq_ok] at h
  obtain ⟨hadmin, hmoved, hfirst, rfl⟩ := h
  obtain ⟨hadmin, hsigned⟩ := requireAdmin_eq_ok hadmin
  rw [Option.isSome_iff_ne_none, not_not] at hfirst
  exact @Change.proposed _ _ _ _ ⟨fromWorkId, toWorkId, policy, env.timestamp⟩ hadmin hsigned hmoved rfl hfirst

theorem acceptRenditionMigration_change {grantId toWorkId : Bytes32}
    (h : acceptRenditionMigration env s caller grantId toWorkId = .ok s') :
    Change env s (.acceptRenditionMigration caller grantId toWorkId) none s' := by
  simp only [acceptRenditionMigration, loadGrant, loadLicense, bind_eq_ok, orRefuse_eq_ok, refuseIf_eq_ok,
    requireAuth_eq_ok, not_not, exists_unit, pure_eq_ok] at h
  obtain ⟨grant, hfound, rfl, hsigned, license, hstored, m, hstanding, rfl, hoptional, rfl⟩ := h
  exact .optedIn hfound hsigned hstored hstanding hoptional

theorem setAllocationLimit_change {seatLimit : Nat}
    (h : setAllocationLimit env s caller licenseId seatLimit = .ok s') :
    Change env s (.setAllocationLimit caller licenseId seatLimit) none s' := by
  simp only [setAllocationLimit, loadLicense, bind_eq_ok, orRefuse_eq_ok, refuseIf_eq_ok, requireAuth_eq_ok,
    not_not, not_lt, exists_unit, pure_eq_ok] at h
  obtain ⟨_, license, hstored, rfl, hsigned, hroom, rfl⟩ := h
  exact .limited hstored hsigned hroom

theorem allocateSeats_change {organization subAccount : Address} {seats : Nat}
    (h : allocateSeats crypto env s caller licenseId organization subAccount seats = .ok (id, s')) :
    Change env s (.allocateSeats caller licenseId organization subAccount seats) (some id) s' := by
  simp only [allocateSeats, loadLicense, bind_eq_ok, orRefuse_eq_ok, refuseIf_eq_ok, requireAuth_eq_ok,
    fitsU_eq_some, not_not, not_lt, not_le, not_or, exists_unit, Prod.exists, pure_eq_ok, Prod.mk.injEq] at h
  obtain ⟨hseats, license, hstored, ⟨rfl, rfl⟩, hsigned, hactive, hbegun, hunended, limit, hlimited, _,
    ⟨_, rfl⟩, hroom, _, _, _, rfl, rfl⟩ := h
  have husable : license.isActive env.timestamp = true := by
    simp [License.isActive, hactive, hbegun, hunended]
  exact @Change.allotted _ _ _ _ ⟨licenseId, license.licensee, subAccount, seats, license.expiresAt, true⟩
    license limit _ hstored rfl hsigned husable (Nat.pos_of_ne_zero hseats) rfl hlimited hroom

theorem revokeAllocation_change (h : revokeAllocation env s caller id = .ok s') :
    Change env s (.revokeAllocation caller id) none s' := by
  simp only [revokeAllocation, loadLicense, bind_eq_ok, orRefuse_eq_ok, refuseIf_eq_ok, requireAuth_eq_ok,
    not_not, Bool.not_eq_false, exists_unit, pure_eq_ok] at h
  obtain ⟨a, hfound, license, hstored, rfl, hsigned, hstanding, rfl⟩ := h
  exact .reclaimed hfound hstored hsigned hstanding

theorem createOfflineGrant_change {grantId : Bytes32} {expiresAt maxUses : Nat}
    (h : createOfflineGrant crypto env s caller grantId expiresAt maxUses = .ok (id, s')) :
    Change env s (.createOfflineGrant caller grantId expiresAt maxUses) (some id) s' := by
  simp only [createOfflineGrant, loadGrant, bind_eq_ok, orRefuse_eq_ok, refuseIf_eq_ok, requireAuth_eq_ok,
    not_or, not_not, not_le, not_lt, Bool.not_eq_false, exists_unit, Prod.exists, pure_eq_ok,
    Prod.mk.injEq] at h
  obtain ⟨hsigned, hbounded, grant, hfound, ⟨hholder, hlate, hwithin⟩, husable, _, _, _, rfl, rfl⟩ := h
  exact @Change.lent _ _ _ _ ⟨_, grantId, _, caller, _, env.timestamp, expiresAt, maxUses, 0, true⟩ grant _ rfl
    hfound hholder hsigned husable rfl ⟨hlate, hwithin⟩ (Nat.pos_of_ne_zero hbounded) rfl rfl

theorem consumeOfflineGrant_change {commitment : Bytes32}
    (h : consumeOfflineGrant env s caller id commitment = .ok s') :
    Change env s (.consumeOfflineGrant caller id commitment) none s' := by
  simp only [consumeOfflineGrant, bind_eq_ok, orRefuse_eq_ok, refuseIf_eq_ok, requireAuth_eq_ok, not_or,
    not_not, not_le, Bool.not_eq_false, exists_unit, pure_eq_ok] at h
  obtain ⟨hsigned, record, hfound, ⟨rfl, hstanding, rfl⟩, hearly, hleft, husable, rfl⟩ := h
  exact .used hfound hsigned hstanding hearly hleft husable

end Moves

/-- What an accepted call has done to what is held under a license. -/
theorem execute_change (h : execute crypto env s call = .ok (o, s')) : Change env s call o s' := by
  cases call with
  | setAdmin => exact .aside rfl (setAdmin_same (silent_eq_ok.mp h).2)
  | grantLicense =>
    obtain ⟨_, _, hdone⟩ := named_eq_ok.mp h
    exact .aside rfl (grantLicense_same hdone)
  | revokeLicense => exact .aside rfl (revokeLicense_same (silent_eq_ok.mp h).2)
  | returnLoan => exact .aside rfl (revokeLicense_same (silent_eq_ok.mp h).2)
  | mintInstitutionalLicense =>
    obtain ⟨_, _, hdone⟩ := named_eq_ok.mp h
    exact .aside rfl (mintInstitutionalLicense_same hdone)
  | scheduleLicenseRevocation => exact .aside rfl (scheduleLicenseRevocation_same (silent_eq_ok.mp h).2)
  | applyLicenseRevocation => exact .aside rfl (applyLicenseRevocation_same (silent_eq_ok.mp h).2)
  | recordEnrollment => exact .aside rfl (recordEnrollment_same (silent_eq_ok.mp h).2)
  | deriveAccessGrant =>
    obtain ⟨_, _, hdone⟩ := named_eq_ok.mp h
    exact .aside rfl (deriveAccessGrant_same hdone)
  | createReaderSession =>
    obtain ⟨_, _, hdone⟩ := named_eq_ok.mp h
    exact .aside rfl (createReaderSession_same hdone)
  | allocateSeat => exact .aside rfl (allocateSeat_same (silent_eq_ok.mp h).2)
  | releaseSeat => exact .aside rfl (releaseSeat_same (silent_eq_ok.mp h).2)
  | issueAttestation =>
    obtain ⟨_, _, hdone⟩ := named_eq_ok.mp h
    exact .aside rfl (issueAttestation_same hdone)
  | revokeAttestation => exact .aside rfl (revokeAttestation_same (silent_eq_ok.mp h).2)
  | createRentalOffer =>
    obtain ⟨_, _, hdone⟩ := named_eq_ok.mp h
    exact .aside rfl (createRentalOffer_same hdone)
  | acceptRentalOffer =>
    obtain ⟨_, _, hdone⟩ := named_eq_ok.mp h
    exact .aside rfl (acceptRentalOffer_same hdone)
  | createOfflineGrant =>
    obtain ⟨_, rfl, hdone⟩ := named_eq_ok.mp h
    exact createOfflineGrant_change hdone
  | consumeOfflineGrant =>
    obtain ⟨rfl, hdone⟩ := silent_eq_ok.mp h
    exact consumeOfflineGrant_change hdone
  | proposeRenditionMigration =>
    obtain ⟨rfl, hdone⟩ := silent_eq_ok.mp h
    exact proposeRenditionMigration_change hdone
  | acceptRenditionMigration =>
    obtain ⟨rfl, hdone⟩ := silent_eq_ok.mp h
    exact acceptRenditionMigration_change hdone
  | grantEntitlement =>
    obtain ⟨rfl, hdone⟩ := silent_eq_ok.mp h
    exact grantEntitlement_change hdone
  | revokeEntitlement =>
    obtain ⟨rfl, hdone⟩ := silent_eq_ok.mp h
    exact revokeEntitlement_change hdone
  | setAllocationLimit =>
    obtain ⟨rfl, hdone⟩ := silent_eq_ok.mp h
    exact setAllocationLimit_change hdone
  | allocateSeats =>
    obtain ⟨_, rfl, hdone⟩ := named_eq_ok.mp h
    exact allocateSeats_change hdone
  | revokeAllocation =>
    obtain ⟨rfl, hdone⟩ := silent_eq_ok.mp h
    exact revokeAllocation_change hdone

end Changes

section Entitlements

def entitlement (s : State) (licenseId : Bytes32) (renditionId : Symbol) (accessMode : AccessMode) :
    Outcome Entitlement :=
  orRefuse (s.entitlement (licenseId, renditionId, accessMode)) (.err .entitlementNotFound)

/-- A license outside its window, or revoked, entitles to nothing. -/
def isEntitled (now : Nat) (s : State) (licenseId : Bytes32) (renditionId : Symbol) (accessMode : AccessMode) :
    Outcome Bool := do
  let license ← loadLicense s licenseId
  if license.status ≠ .active ∨ now < license.notBefore ∨ license.expiresAt ≤ now then pure false
  else pure (s.entitlement (licenseId, renditionId, accessMode)).isSome

def entitlementsLen (s : State) (licenseId : Bytes32) : Nat := (s.entitlementKeys licenseId).length

def u32Max : Nat := 2^32 - 1

/-- A window on the list of a license, whose end does not go past `u32::MAX` or the list. -/
def entitlements (s : State) (licenseId : Bytes32) (start limit : Nat) : List Entitlement :=
  let keys := s.entitlementKeys licenseId
  if keys.length ≤ start ∨ limit = 0 then []
  else
    let stop := min (min (start + limit) u32Max) keys.length
    (List.range' start (stop - start)).filterMap fun i =>
      keys[i]?.bind fun key => s.entitlement (licenseId, key)

/-- Whether a call grants the entitlement, and whether it revokes it. -/
def grants (key : Bytes32 × Symbol × AccessMode) (e : Entry State (Input contract) Answer) : Prop :=
  ∃ caller, e.input.call = .grantEntitlement caller key.1 key.2.1 key.2.2

def revokes (key : Bytes32 × Symbol × AccessMode) (e : Entry State (Input contract) Answer) : Prop :=
  ∃ caller, e.input.call = .revokeEntitlement caller key.1 key.2.1 key.2.2

def Entitlement.key (ent : Entitlement) : Bytes32 × Symbol × AccessMode :=
  (ent.licenseId, ent.renditionId, ent.accessMode)

/-- The list of a license names what is entitled under it, once. -/
structure Listed (s : State) : Prop where
  once : ∀ id, (s.entitlementKeys id).Nodup
  listed : ∀ id k, k ∈ s.entitlementKeys id ↔ s.entitlement (id, k) ≠ none
  fits : ∀ id, (s.entitlementKeys id).length < 2^32
  own : ∀ key ent, s.entitlement key = some ent → ent.key = key

theorem SameHoldings.listed (h : SameHoldings s s') (hs : Listed s) : Listed s' := by
  obtain ⟨honce, hlisted, hfits, hown⟩ := hs
  refine ⟨?_, ?_, ?_, ?_⟩
  · rwa [h.entitlementKeys]
  · rwa [h.entitlementKeys, h.entitlement]
  · rwa [h.entitlementKeys]
  · rwa [h.entitlement]

theorem Listed.entitled (hs : Listed s) {ent : Entitlement}
    (habsent : s.entitlement (ent.licenseId, ent.renditionId, ent.accessMode) = none)
    (hroom : (s.entitlementKeys ent.licenseId).length + 1 < 2^32) : Listed { s with
      entitlementKeys := Function.update s.entitlementKeys ent.licenseId
        (s.entitlementKeys ent.licenseId ++ [(ent.renditionId, ent.accessMode)])
      entitlement :=
        Function.update s.entitlement (ent.licenseId, ent.renditionId, ent.accessMode) (some ent) } where
  once := by
    have hnew : (ent.renditionId, ent.accessMode) ∉ s.entitlementKeys ent.licenseId := by
      rw [hs.listed]
      exact not_not_intro habsent
    apply (Function.forall_update_iff s.entitlementKeys fun _ keys => keys.Nodup).mpr
    refine ⟨?_, fun id _ => hs.once id⟩
    rw [← List.concat_eq_append]
    exact (hs.once _).concat hnew
  listed := by
    intro id k
    dsimp only
    by_cases hid : id = ent.licenseId
    · subst hid
      rw [Function.update_self, List.mem_append, List.mem_singleton, hs.listed]
      by_cases hk : k = (ent.renditionId, ent.accessMode)
      · subst hk
        rw [Function.update_self]
        exact ⟨fun _ => Option.some_ne_none ent, fun _ => .inr rfl⟩
      · rw [Function.update_of_ne fun heq => hk (congrArg Prod.snd heq)]
        exact ⟨fun h => h.resolve_right hk, .inl⟩
    · rw [Function.update_of_ne hid, Function.update_of_ne fun heq => hid (congrArg Prod.fst heq)]
      exact hs.listed id k
  fits := by
    apply (Function.forall_update_iff s.entitlementKeys fun _ keys => keys.length < 2^32).mpr
    refine ⟨?_, fun id _ => hs.fits id⟩
    rw [List.length_append]
    exact hroom
  own := forall_update_row hs.own rfl rfl

theorem Listed.stripped (hs : Listed s) (key : Bytes32 × Symbol × AccessMode) : Listed { s with
      entitlementKeys := Function.update s.entitlementKeys key.1 ((s.entitlementKeys key.1).erase key.2)
      entitlement := Function.update s.entitlement key none } where
  once := by
    apply (Function.forall_update_iff s.entitlementKeys fun _ keys => keys.Nodup).mpr
    exact ⟨(hs.once _).erase _, fun id _ => hs.once id⟩
  listed := by
    intro id k
    dsimp only
    by_cases hid : id = key.1
    · subst hid
      rw [Function.update_self, (hs.once _).mem_erase_iff, hs.listed]
      by_cases hk : k = key.2
      · subst hk
        rw [Function.update_self]
        simp
      · rw [Function.update_of_ne fun heq => hk (congrArg Prod.snd heq)]
        exact ⟨And.right, fun h => ⟨hk, h⟩⟩
    · rw [Function.update_of_ne hid, Function.update_of_ne fun heq => hid (congrArg Prod.fst heq)]
      exact hs.listed id k
  fits := by
    apply (Function.forall_update_iff s.entitlementKeys fun _ keys => keys.length < 2^32).mpr
    exact ⟨List.length_erase_le.trans_lt (hs.fits _), fun id _ => hs.fits id⟩
  own := by
    intro k ent hk
    by_cases hkey : k = key
    · subst hkey
      dsimp only at hk
      rw [Function.update_self] at hk
      cases hk
    · dsimp only at hk
      rw [Function.update_of_ne hkey] at hk
      exact hs.own k ent hk

theorem Change.listed (h : Change env s call o s') (hs : Listed s) : Listed s' := by
  cases h with
  | aside _ same => exact same.listed hs
  | entitled _ _ _ _ _ absent room => exact hs.entitled absent room
  | kept => exact hs
  | stripped => exact hs.stripped _
  | proposed => exact { hs with }
  | optedIn => exact { hs with }
  | limited => exact { hs with }
  | allotted => exact { hs with }
  | reclaimed => exact { hs with }
  | lent => exact { hs with }
  | used => exact { hs with }

theorem run_listed (is : List (Input contract)) : Listed ((machine contract crypto).run State.empty is) := by
  apply Machine.run_invariant
  · refine ⟨fun _ => List.nodup_nil, ?_, ?_, fun _ _ h => nomatch h⟩
    · intro id k
      simp [State.empty]
    · intro id
      simp [State.empty]
  · intro s i o s' hs hstep
    exact (execute_change hstep).listed hs

/-- The key of the entitlement that a call grants or revokes. -/
def Call.entitlementKey : Call → Option (Bytes32 × Symbol × AccessMode)
  | .grantEntitlement _ licenseId renditionId accessMode => some (licenseId, renditionId, accessMode)
  | .revokeEntitlement _ licenseId renditionId accessMode => some (licenseId, renditionId, accessMode)
  | _ => none

theorem entitlementKey_aside (h : call.holding = false) : call.entitlementKey = none := by
  cases call with
  | grantEntitlement => cases h
  | revokeEntitlement => cases h
  | _ => rfl

theorem grants_key {key : Bytes32 × Symbol × AccessMode} {e : Entry State (Input contract) Answer}
    (h : grants key e) : e.input.call.entitlementKey = some key := by
  obtain ⟨caller, hcall⟩ := h
  rw [hcall]
  rfl

theorem revokes_key {key : Bytes32 × Symbol × AccessMode} {e : Entry State (Input contract) Answer}
    (h : revokes key e) : e.input.call.entitlementKey = some key := by
  obtain ⟨caller, hcall⟩ := h
  rw [hcall]
  rfl

/-- What a call does to one entitlement. -/
theorem entitlement_step (h : Change i.env s i.call o s') (key : Bytes32 × Symbol × AccessMode) :
    s'.entitlement key ≠ none ↔ grants key (⟨s, i, o, s'⟩ : Entry State (Input contract) Answer) ∨
      s.entitlement key ≠ none ∧ ¬ revokes key (⟨s, i, o, s'⟩ : Entry State (Input contract) Answer) := by
  have hother : i.call.entitlementKey ≠ some key → s'.entitlement key = s.entitlement key →
      (s'.entitlement key ≠ none ↔ grants key (⟨s, i, o, s'⟩ : Entry State (Input contract) Answer) ∨
        s.entitlement key ≠ none ∧ ¬ revokes key (⟨s, i, o, s'⟩ : Entry State (Input contract) Answer)) := by
    intro hkey hsame
    rw [hsame]
    constructor
    · intro hold
      exact .inr ⟨hold, fun hrevokes => hkey (revokes_key hrevokes)⟩
    · rintro (hgrants | ⟨hold, _⟩)
      · exact absurd (grants_key hgrants) hkey
      · exact hold
  obtain ⟨env, call⟩ := i
  cases h with
  | aside kind same =>
    have hnone : call.entitlementKey = none := entitlementKey_aside kind
    apply hother _ (by rw [same.entitlement])
    rw [hnone]
    exact (Option.some_ne_none key).symm
  | @entitled caller ent =>
    by_cases hkey : key = ent.key
    · subst hkey
      have hnew : Function.update s.entitlement ent.key (some ent) ent.key ≠ none := by
        rw [Function.update_self]
        exact Option.some_ne_none ent
      exact ⟨fun _ => .inl ⟨caller, rfl⟩, fun _ => hnew⟩
    · exact hother (fun heq => hkey (Option.some.inj heq).symm) (Function.update_of_ne hkey _ _)
  | @kept caller ent key' admin signed present =>
    by_cases hkey : key = key'
    · subst hkey
      have hstands : s.entitlement key ≠ none := by
        rw [present]
        exact Option.some_ne_none ent
      exact ⟨fun _ => .inl ⟨caller, rfl⟩, fun _ => hstands⟩
    · exact hother (fun heq => hkey (Option.some.inj heq).symm) rfl
  | @stripped caller ent key' =>
    by_cases hkey : key = key'
    · subst hkey
      constructor
      · intro hstands
        exact absurd (Function.update_self _ _ _) hstands
      · rintro (⟨_, hcall⟩ | ⟨_, hkept⟩)
        · cases hcall
        · exact absurd ⟨caller, rfl⟩ hkept
    · exact hother (fun heq => hkey (Option.some.inj heq).symm) (Function.update_of_ne hkey _ _)
  | proposed => exact hother nofun rfl
  | optedIn => exact hother nofun rfl
  | limited => exact hother nofun rfl
  | allotted => exact hother nofun rfl
  | reclaimed => exact hother nofun rfl
  | lent => exact hother nofun rfl
  | used => exact hother nofun rfl

/-- An entitlement stands when it has been granted and not revoked since. -/
theorem run_entitled (is : List (Input contract)) (key : Bytes32 × Symbol × AccessMode) :
    ((machine contract crypto).run State.empty is).entitlement key ≠ none ↔
      Since (grants key) (revokes key) ((machine contract crypto).journal State.empty is) := by
  apply Machine.run_since (P := fun s : State => s.entitlement key ≠ none)
  · intro h
    exact absurd rfl h
  · intro s i o s' hstep
    exact entitlement_step (execute_change hstep) key

/-- A window on the list of a license is a slice of all that it entitles to. -/
theorem Listed.entitlements (hs : Listed s) (licenseId : Bytes32) (start limit : Nat) :
    entitlements s licenseId start limit =
      (((s.entitlementKeys licenseId).filterMap fun key => s.entitlement (licenseId, key)).drop start).take
        limit := by
  let keys := s.entitlementKeys licenseId
  let row := fun key => s.entitlement (licenseId, key)
  have hrows : ∀ key ∈ keys, ∃ ent, row key = some ent :=
    fun key hkey => Option.ne_none_iff_exists'.mp ((hs.listed licenseId key).mp hkey)
  have hrest : ∀ key ∈ keys.drop start, ∃ ent, row key = some ent :=
    fun key hkey => hrows key (List.mem_of_mem_drop hkey)
  have hslice : ((keys.filterMap row).drop start).take limit = ((keys.drop start).take limit).filterMap row := by
    rw [filterMap_take_of_forall hrest, filterMap_drop_of_forall hrows]
  have hfits := hs.fits licenseId
  change ChainVerse.LibraryLicensing.entitlements s licenseId start limit =
    ((keys.filterMap row).drop start).take limit
  rw [hslice, LibraryLicensing.entitlements]
  split_ifs with hempty
  · rcases hempty with hlate | hzero
    · rw [List.drop_eq_nil_of_le hlate]
      simp
    · rw [hzero]
      simp
  · have hstop : min (min (start + limit) u32Max) keys.length = min keys.length (start + limit) := by
      have hlength : keys.length ≤ u32Max := Nat.le_sub_one_of_lt hfits
      omega
    have hpage := take_page keys start limit
    have hplaces := places_page keys row (min keys.length (start + limit) - start) start
    rw [hpage] at hplaces
    rw [← hplaces, ← hstop]

/-- All that a license entitles to. -/
def State.entitled (s : State) (licenseId : Bytes32) : List Entitlement :=
  (s.entitlementKeys licenseId).filterMap fun key => s.entitlement (licenseId, key)

theorem Listed.rows (hs : Listed s) (licenseId : Bytes32) :
    ∀ key ∈ s.entitlementKeys licenseId, ∃ ent, s.entitlement (licenseId, key) = some ent :=
  fun key hkey => Option.ne_none_iff_exists'.mp ((hs.listed licenseId key).mp hkey)

theorem Listed.entitled_keys (hs : Listed s) (licenseId : Bytes32) :
    (s.entitled licenseId).map Entitlement.key = (s.entitlementKeys licenseId).map (licenseId, ·) := by
  have hrows := hs.rows licenseId
  unfold State.entitled
  generalize s.entitlementKeys licenseId = keys at hrows
  induction keys with
  | nil => rfl
  | cons key keys ih =>
    obtain ⟨⟨ent, hent⟩, hrest⟩ := List.forall_mem_cons.mp hrows
    rw [List.filterMap_cons, hent, List.map_cons, List.map_cons, hs.own _ ent hent, ih hrest]

theorem Listed.mem_entitled (hs : Listed s) (licenseId : Bytes32) (ent : Entitlement) :
    ent ∈ s.entitled licenseId ↔
      ent.licenseId = licenseId ∧ entitlement s licenseId ent.renditionId ent.accessMode = .ok ent := by
  simp only [State.entitled, List.mem_filterMap, entitlement, orRefuse_eq_ok]
  constructor
  · rintro ⟨key, _, hent⟩
    obtain ⟨hid, hkey⟩ := Prod.mk.inj (hs.own _ ent hent)
    refine ⟨hid, ?_⟩
    rw [← hkey] at hent
    exact hent
  · rintro ⟨rfl, hent⟩
    refine ⟨(ent.renditionId, ent.accessMode), ?_, hent⟩
    rw [hs.listed, hent]
    exact Option.some_ne_none ent

theorem isEntitled_eq_true {now : Nat} {licenseId : Bytes32} {renditionId : Symbol} {accessMode : AccessMode} :
    isEntitled now s licenseId renditionId accessMode = .ok true ↔
      isLicenseActive now s licenseId = .ok true ∧ s.entitlement (licenseId, renditionId, accessMode) ≠ none := by
  simp only [isEntitled, isLicenseActive, loadLicense, bind_eq_ok, orRefuse_eq_ok]
  constructor
  · rintro ⟨license, hstored, hanswer⟩
    split_ifs at hanswer with hout
    · cases hanswer
    · rw [pure_eq_ok, Option.isSome_iff_ne_none] at hanswer
      simp only [ne_eq, not_or, not_not, not_lt, not_le] at hout
      refine ⟨⟨license, hstored, ?_⟩, hanswer⟩
      simp [License.isActive, hout]
  · rintro ⟨⟨license, hstored, hactive⟩, hstands⟩
    refine ⟨license, hstored, ?_⟩
    simp only [pure_eq_ok, License.isActive, decide_eq_true_eq] at hactive
    have hin : ¬(license.status ≠ .active ∨ now < license.notBefore ∨ license.expiresAt ≤ now) := by
      simp [hactive]
    rw [if_neg hin, pure_eq_ok, Option.isSome_iff_ne_none]
    exact hstands

/-- Whoever grants or revokes an entitlement is the admin, and signs for it. -/
theorem entitlement_signed {key : Bytes32 × Symbol × AccessMode} (h : Change i.env s i.call o s')
    (hkey : i.call.entitlementKey = some key) :
    ∃ admin, s.admin = some admin ∧ i.env.signers admin = true := by
  obtain ⟨env, call⟩ := i
  cases h with
  | aside kind =>
    have hnone : call.entitlementKey = none := entitlementKey_aside kind
    rw [hnone] at hkey
    cases hkey
  | entitled admin signed => exact ⟨_, admin, signed⟩
  | kept admin signed => exact ⟨_, admin, signed⟩
  | stripped admin signed => exact ⟨_, admin, signed⟩
  | proposed => cases hkey
  | optedIn => cases hkey
  | limited => cases hkey
  | allotted => cases hkey
  | reclaimed => cases hkey
  | lent => cases hkey
  | used => cases hkey

/-- Over every run, a license entitles to a rendition in a mode exactly while it is active itself and the
entitlement has been granted and not revoked since, both by the admin. The list of a license is exactly what
it entitles to, each pair of a rendition and a mode once, and every window on the list is a slice of it, so
that windows one after the other show each entitlement once. -/
theorem entitlements_are_those_granted_and_not_revoked (is : List (Input contract)) :
    let s := (machine contract crypto).run State.empty is
    let es := (machine contract crypto).journal State.empty is
    (∀ now licenseId renditionId accessMode,
      isEntitled now s licenseId renditionId accessMode = .ok true ↔
        isLicenseActive now s licenseId = .ok true ∧
          Since (grants (licenseId, renditionId, accessMode)) (revokes (licenseId, renditionId, accessMode)) es) ∧
    (∀ e ∈ es, ∀ key, grants key e ∨ revokes key e →
      ∃ admin, e.pre.admin = some admin ∧ e.input.env.signers admin = true) ∧
    ∀ licenseId,
      ((entitlements s licenseId 0 u32Max).map Entitlement.key).Nodup ∧
      (∀ ent, ent ∈ entitlements s licenseId 0 u32Max ↔
        ent.licenseId = licenseId ∧ entitlement s licenseId ent.renditionId ent.accessMode = .ok ent) ∧
      entitlementsLen s licenseId = (entitlements s licenseId 0 u32Max).length ∧
      ∀ start limit, entitlements s licenseId start limit =
        ((entitlements s licenseId 0 u32Max).drop start).take limit := by
  intro s es
  have hs : Listed s := run_listed is
  refine ⟨?_, ?_, ?_⟩
  · intro now licenseId renditionId accessMode
    rw [isEntitled_eq_true, run_entitled is]
  · intro e he key hkey
    obtain ⟨hstep, _⟩ := Machine.journal_step he
    exact entitlement_signed (execute_change hstep) (hkey.elim grants_key revokes_key)
  · intro licenseId
    have hlength : (s.entitled licenseId).length = (s.entitlementKeys licenseId).length :=
      length_filterMap_of_forall (hs.rows licenseId)
    have hall : entitlements s licenseId 0 u32Max = s.entitled licenseId := by
      have hfits : (s.entitled licenseId).length ≤ u32Max := by
        rw [hlength]
        exact Nat.le_sub_one_of_lt (hs.fits licenseId)
      rw [hs.entitlements, List.drop_zero]
      exact List.take_of_length_le hfits
    rw [hall]
    refine ⟨?_, hs.mem_entitled licenseId, hlength.symm, hs.entitlements licenseId⟩
    rw [hs.entitled_keys]
    exact (hs.once licenseId).map fun _ _ => congrArg Prod.snd

end Entitlements

end ChainVerse.LibraryLicensing
