import ChainVerse.Licensing.Contract

namespace ChainVerse.LibraryLicensing

variable {contract : Address} {crypto : Crypto} {env : Env contract} {s s' : State} {call : Call}
  {o : Answer} {caller : Address} {licenseId : Bytes32}

/-- Calls that neither end licenses nor touch revocations, enrollments and grants. -/
def Call.plain : Call → Bool
  | .revokeLicense .. | .returnLoan .. | .scheduleLicenseRevocation .. | .applyLicenseRevocation ..
  | .recordEnrollment .. | .deriveAccessGrant .. => false
  | _ => true

/-- The work and the licensee of the license that a call issues. -/
def Call.licensed (s : State) : Call → Option (Bytes32 × Address)
  | .grantLicense _ workId licensee .. => some (workId, licensee)
  | .mintInstitutionalLicense _ institution _ workId .. => some (workId, institution)
  | .acceptRentalOffer buyer offerId .. =>
    (s.offer offerId).map fun offer => (offer.terms.workId, buyer)
  | _ => none

/-- The bytes that the id of a new license is the hash of. -/
def licenseInput (crypto : Crypto) (env : Env contract) (s : State) (workId : Bytes32)
    (licensee : Address) : List Byte :=
  idInput (s.rights.licenseCount + 1) env.timestamp (bytes32 workId ++ crypto.addressXdr licensee)

/-- What a derivation has checked. -/
structure Derivable (env : Env contract) (s : State) (caller : Address) (license : License)
    (record : EnrollmentRecord) (duration : Nat) (proof : EnrollmentProof) : Prop where
  duration : 0 < duration
  signed : env.signers caller = true
  learner : proof.learner = caller
  course : proof.courseId = license.workId
  enrolled : s.rights.enrollment proof.nonce = some record
  record_course : record.courseId = license.workId
  record_learner : record.learner = caller
  unused : s.rights.nonceUsed proof.nonce = false
  unexpired : env.timestamp < proof.expiresAt
  begun : license.notBefore ≤ env.timestamp
  unended : env.timestamp < license.expiresAt
  active : license.status = .active

/-- Everything that an accepted call can have done to the tables of rights. -/
inductive Effect (crypto : Crypto) (env : Env contract) (s : State) :
    Call → Answer → Rights → Prop where
  | aside {call : Call} {o : Answer} (plain : call.plain = true) (nothing : call.licensed s = none) :
      Effect crypto env s call o s.rights
  | issued {call : Call} {o : Answer} {license : License} (plain : call.plain = true)
      (licensed : call.licensed s = some (license.workId, license.licensee))
      (fits : s.rights.licenseCount + 1 < 2^64) (active : license.status = .active) :
      Effect crypto env s call o { s.rights with
        licenseCount := s.rights.licenseCount + 1
        license := Function.update s.rights.license
          (crypto.sha256 (licenseInput crypto env s license.workId license.licensee)) (some license) }
  | seated {call : Call} {o : Answer} {licenseId : Bytes32} {license : License} {seats : Nat}
      (plain : call.plain = true) (nothing : call.licensed s = none)
      (stored : s.rights.license licenseId = some license) :
      Effect crypto env s call o { s.rights with
        license := Function.update s.rights.license licenseId
          (some { license with allocatedSeats := seats }) }
  | revoked {call : Call} {caller : Address} {licenseId : Bytes32} {license : License}
      (kind : call = .revokeLicense caller licenseId ∨ call = .returnLoan caller licenseId)
      (stored : s.rights.license licenseId = some license) (active : license.status = .active) :
      Effect crypto env s call none { s.rights with
        license := Function.update s.rights.license licenseId
          (some { license with status := .revoked }) }
  | scheduled {caller : Address} {licenseId reasonCommitment : Bytes32}
      {effectiveAt activeLoansUntil : Nat} {revocation : Bytes32 → Option LicenseRevocation} :
      Effect crypto env s
        (.scheduleLicenseRevocation caller licenseId effectiveAt activeLoansUntil reasonCommitment)
        none { s.rights with revocation }
  | applied {caller : Address} {licenseId : Bytes32} {record : LicenseRevocation} {license : License}
      (scheduled : s.rights.revocation licenseId = some record)
      (stored : s.rights.license licenseId = some license) :
      Effect crypto env s (.applyLicenseRevocation caller licenseId) none { s.rights with
        license := Function.update s.rights.license licenseId
          (some { license with status := .revoked })
        revocation := Function.update s.rights.revocation licenseId
          (some { record with applied := true }) }
  | enrolled {caller : Address} {record : EnrollmentRecord} {nonce : Bytes32}
      (admin : s.admin = some caller) (signed : env.signers caller = true) :
      Effect crypto env s
        (.recordEnrollment caller record.courseId record.learner record.proofExpiresAt nonce) none
        { s.rights with enrollment := Function.update s.rights.enrollment nonce (some record) }
  | derived {caller : Address} {licenseId grantId : Bytes32} {grantee : Address} {duration : Nat}
      {proof : EnrollmentProof} {license : License} {record : EnrollmentRecord} {grant : AccessGrant}
      (stored : s.rights.license licenseId = some license)
      (checked : Derivable env s caller license record duration proof)
      (of_license : grant.licenseId = licenseId) (begins : grant.notBefore = env.timestamp)
      (ends : grant.expiresAt = min (env.timestamp + duration) license.expiresAt) :
      Effect crypto env s (.deriveAccessGrant caller licenseId grantee duration proof) (some grantId)
        { s.rights with
          nonceUsed := Function.update s.rights.nonceUsed proof.nonce true
          grant := Function.update s.rights.grant grantId (some grant) }

section Inversion

theorem silent_eq_ok {x : Outcome State} : silent x = .ok (o, s') ↔ o = none ∧ x = .ok s' := by
  simp only [silent, map_eq_ok, Prod.mk.injEq]
  constructor
  · rintro ⟨_, hx, rfl, rfl⟩
    exact ⟨rfl, hx⟩
  · rintro ⟨rfl, hx⟩
    exact ⟨s', hx, rfl, rfl⟩

theorem named_eq_ok {x : Outcome (Bytes32 × State)} :
    named x = .ok (o, s') ↔ ∃ id, o = some id ∧ x = .ok (id, s') := by
  simp only [named, map_eq_ok, Prod.exists, Prod.mk.injEq]
  constructor
  · rintro ⟨id, _, hx, rfl, rfl⟩
    exact ⟨id, rfl, hx⟩
  · rintro ⟨id, rfl, hx⟩
    exact ⟨id, s', hx, rfl, rfl⟩

theorem deriveId_eq_ok {count next : Nat} {salt : List Byte} {id : Bytes32} :
    deriveId crypto env count salt = .ok (id, next) ↔
      count + 1 < 2^64 ∧ id = crypto.sha256 (idInput (count + 1) env.timestamp salt) ∧
        next = count + 1 := by
  simp only [deriveId, bind_eq_ok, orRefuse_eq_ok, fitsU_eq_some, pure_eq_ok, Prod.mk.injEq]
  constructor
  · rintro ⟨_, ⟨hfits, rfl⟩, rfl, rfl⟩
    exact ⟨hfits, rfl, rfl⟩
  · rintro ⟨hfits, rfl, rfl⟩
    exact ⟨_, ⟨hfits, rfl⟩, rfl, rfl⟩

theorem requireAdmin_eq_ok {u : Unit} (h : requireAdmin env s caller = .ok u) :
    s.admin = some caller ∧ env.signers caller = true := by
  simp only [requireAdmin, bind_eq_ok, orRefuse_eq_ok, refuseIf_eq_ok, requireAuth_eq_ok, not_not,
    exists_unit] at h
  obtain ⟨_, hadmin, rfl, hsigned⟩ := h
  exact ⟨hadmin, hsigned⟩

theorem issueLicense_eq_ok {license : License} {id : Bytes32}
    (h : issueLicense crypto env s license = .ok (id, s')) :
    s.rights.licenseCount + 1 < 2^64 ∧ s'.rights = { s.rights with
      licenseCount := s.rights.licenseCount + 1
      license := Function.update s.rights.license
        (crypto.sha256 (licenseInput crypto env s license.workId license.licensee))
        (some license) } := by
  simp only [issueLicense, storeLicense, bind_eq_ok, Prod.exists, deriveId_eq_ok, pure_eq_ok,
    Prod.mk.injEq] at h
  obtain ⟨_, _, ⟨hfits, rfl, rfl⟩, _, rfl⟩ := h
  exact ⟨hfits, rfl⟩

end Inversion

section Licenses

/-- A call that issues a license. -/
theorem issued_effect {license : License} {id : Bytes32} {t : State} (hplain : call.plain = true)
    (hlicensed : call.licensed s = some (license.workId, license.licensee))
    (hactive : license.status = .active) (hsame : t.rights = s.rights)
    (h : issueLicense crypto env t license = .ok (id, s')) : Effect crypto env s call o s'.rights := by
  obtain ⟨hfits, hrights⟩ := issueLicense_eq_ok h
  rw [hrights, licenseInput, hsame]
  rw [hsame] at hfits
  exact .issued hplain hlicensed hfits hactive

theorem grantLicense_eq_ok {workId id : Bytes32} {licensee : Address} {rights : String}
    {notBefore expiresAt totalSeats : Nat}
    (h : grantLicense crypto env s caller workId licensee rights notBefore expiresAt totalSeats =
      .ok (id, s')) :
    ∃ license : License, license.workId = workId ∧ license.licensee = licensee ∧
      license.status = .active ∧ issueLicense crypto env s license = .ok (id, s') := by
  simp only [grantLicense, bind_eq_ok, exists_unit] at h
  obtain ⟨_, _, _, _, _, _, hissued⟩ := h
  exact ⟨_, rfl, rfl, rfl, hissued⟩

theorem mintInstitutionalLicense_effect {institution treasury : Address} {workId id : Bytes32}
    {rights : String} {notBefore expiresAt seats : Nat} {commitment : Bytes32}
    (h : mintInstitutionalLicense crypto env s caller institution treasury workId rights notBefore
      expiresAt seats commitment = .ok (id, s')) :
    Effect crypto env s (.mintInstitutionalLicense caller institution treasury workId rights
      notBefore expiresAt seats commitment) o s'.rights := by
  simp only [mintInstitutionalLicense, bind_eq_ok, Prod.exists, pure_eq_ok, Prod.mk.injEq,
    exists_unit] at h
  obtain ⟨_, _, middle, hgranted, _, rfl⟩ := h
  obtain ⟨license, rfl, rfl, hactive, hissued⟩ := grantLicense_eq_ok hgranted
  exact @issued_effect _ _ _ _ middle _ _ _ _ _ rfl rfl hactive rfl hissued

theorem acceptRentalOffer_effect {buyer : Address} {offerId contractId id : Bytes32}
    {network : String}
    (h : acceptRentalOffer crypto env s buyer offerId contractId network = .ok (id, s')) :
    Effect crypto env s (.acceptRentalOffer buyer offerId contractId network) o s'.rights := by
  simp only [acceptRentalOffer, bind_eq_ok, orRefuse_eq_ok, exists_unit] at h
  obtain ⟨offer, hoffer, _, _, _, _, _, hissued⟩ := h
  refine issued_effect ?_ ?_ ?_ ?_ hissued
  · rfl
  · rw [Call.licensed, hoffer]
    rfl
  · rfl
  · rfl

theorem revokeLicense_effect (h : revokeLicense env s caller licenseId = .ok s')
    (hkind : call = .revokeLicense caller licenseId ∨ call = .returnLoan caller licenseId) :
    Effect crypto env s call none s'.rights := by
  simp only [revokeLicense, loadLicense, storeLicense, bind_eq_ok, orRefuse_eq_ok, refuseIf_eq_ok,
    not_not, exists_unit, pure_eq_ok] at h
  obtain ⟨_, license, hstored, hactive, rfl⟩ := h
  exact .revoked hkind hstored hactive

theorem scheduleLicenseRevocation_effect {effectiveAt activeLoansUntil : Nat}
    {reasonCommitment : Bytes32}
    (h : scheduleLicenseRevocation env s caller licenseId effectiveAt activeLoansUntil
      reasonCommitment = .ok s') :
    Effect crypto env s (.scheduleLicenseRevocation caller licenseId effectiveAt activeLoansUntil
      reasonCommitment) none s'.rights := by
  simp only [scheduleLicenseRevocation, bind_eq_ok, exists_unit, pure_eq_ok] at h
  obtain ⟨_, _, _, _, rfl⟩ := h
  exact .scheduled

theorem applyLicenseRevocation_effect (h : applyLicenseRevocation env s caller licenseId = .ok s') :
    Effect crypto env s (.applyLicenseRevocation caller licenseId) none s'.rights := by
  simp only [applyLicenseRevocation, loadLicense, storeLicense, bind_eq_ok, orRefuse_eq_ok,
    exists_unit, pure_eq_ok] at h
  obtain ⟨_, record, hscheduled, _, _, license, hstored, rfl⟩ := h
  exact .applied hscheduled hstored

theorem allocateSeat_effect (h : allocateSeat env s caller licenseId = .ok s') :
    Effect crypto env s (.allocateSeat caller licenseId) o s'.rights := by
  simp only [allocateSeat, loadLicense, storeLicense, bind_eq_ok, orRefuse_eq_ok, exists_unit,
    pure_eq_ok] at h
  obtain ⟨license, hstored, _, _, _, _, _, _, _, _, rfl⟩ := h
  exact .seated rfl rfl hstored

theorem releaseSeat_effect (h : releaseSeat env s caller licenseId = .ok s') :
    Effect crypto env s (.releaseSeat caller licenseId) o s'.rights := by
  simp only [releaseSeat, loadLicense, storeLicense, bind_eq_ok, orRefuse_eq_ok, exists_unit,
    pure_eq_ok] at h
  obtain ⟨license, hstored, _, _, _, _, _, rfl⟩ := h
  exact .seated rfl rfl hstored

end Licenses

section Grants

theorem recordEnrollment_effect {courseId nonce : Bytes32} {learner : Address} {proofExpiresAt : Nat}
    (h : recordEnrollment env s caller courseId learner proofExpiresAt nonce = .ok s') :
    Effect crypto env s (.recordEnrollment caller courseId learner proofExpiresAt nonce) none
      s'.rights := by
  simp only [recordEnrollment, bind_eq_ok, exists_unit, pure_eq_ok] at h
  obtain ⟨hadmin, rfl⟩ := h
  obtain ⟨hadmin, hsigned⟩ := requireAdmin_eq_ok hadmin
  exact @Effect.enrolled _ _ _ _ _ ⟨courseId, learner, proofExpiresAt⟩ _ hadmin hsigned

/-- Whoever passes as a borrower has signed, in either branch. -/
theorem requireBorrower_signed {license : License} {u : Unit}
    (h : requireBorrower env s caller license = .ok u) : env.signers caller = true := by
  unfold requireBorrower at h
  split_ifs at h with hother
  · simp only [requireCapability, bind_eq_ok] at h
    obtain ⟨admin, _, h⟩ := h
    split_ifs at h with hadmin
    · exact requireAuth_eq_ok.mp h
    · simp only [bind_eq_ok, exists_unit, requireAuth_eq_ok] at h
      obtain ⟨_, _, _, hsigned⟩ := h
      exact hsigned
  · exact requireAuth_eq_ok.mp h

theorem deriveAccessGrant_effect {grantee : Address} {duration : Nat} {proof : EnrollmentProof}
    {grantId : Bytes32}
    (h : deriveAccessGrant crypto env s caller licenseId grantee duration proof = .ok (grantId, s')) :
    Effect crypto env s (.deriveAccessGrant caller licenseId grantee duration proof) (some grantId)
      s'.rights := by
  simp only [deriveAccessGrant, validateEnrollment, loadLicense, bind_eq_ok, orRefuse_eq_ok,
    refuseIf_eq_ok, exists_unit, Prod.exists, deriveId_eq_ok, fitsU_eq_some,
    pure_eq_ok, Prod.mk.injEq, not_not, not_lt, not_le, not_or, Bool.not_eq_true] at h
  obtain ⟨hduration, license, hstored, hborrower, _,
    ⟨hlearner, hcourse, record, hrecord, ⟨hrecordCourse, hrecordLearner⟩, hunused, hunexpired⟩,
    hbegun, hunended, hactive, _, ⟨_, rfl⟩, _, _, ⟨_, rfl, rfl⟩, rfl, rfl⟩ := h
  refine .derived hstored ⟨Nat.pos_of_ne_zero hduration, requireBorrower_signed hborrower, hlearner,
    hcourse, hrecord, hrecordCourse, hrecordLearner, hunused, hunexpired, hbegun, hunended,
    hactive⟩ rfl rfl ?_
  simp only
  split_ifs <;> omega

end Grants

section Aside

theorem aside_effect (hplain : call.plain = true) (hnothing : call.licensed s = none)
    (hsame : s'.rights = s.rights) : Effect crypto env s call o s'.rights := by
  rw [hsame]
  exact .aside hplain hnothing

theorem setAdmin_rights {admin : Address} (h : setAdmin env s admin = .ok s') :
    s'.rights = s.rights := by
  simp only [setAdmin, bind_eq_ok, exists_unit, pure_eq_ok] at h
  obtain ⟨_, _, rfl⟩ := h
  rfl

theorem createReaderSession_rights {grantId key id : Bytes32} {duration : Nat}
    (h : createReaderSession crypto env s caller grantId key duration = .ok (id, s')) :
    s'.rights = s.rights := by
  simp only [createReaderSession, bind_eq_ok, exists_unit, Prod.exists, pure_eq_ok, Prod.mk.injEq] at h
  obtain ⟨_, _, _, _, _, _, _, _, _, _, _, _, rfl⟩ := h
  rfl

theorem createOfflineGrant_rights {grantId id : Bytes32} {expiresAt maxUses : Nat}
    (h : createOfflineGrant crypto env s caller grantId expiresAt maxUses = .ok (id, s')) :
    s'.rights = s.rights := by
  simp only [createOfflineGrant, bind_eq_ok, exists_unit, Prod.exists, pure_eq_ok, Prod.mk.injEq] at h
  obtain ⟨_, _, _, _, _, _, _, _, _, _, rfl⟩ := h
  rfl

theorem consumeOfflineGrant_rights {offlineId commitment : Bytes32}
    (h : consumeOfflineGrant env s caller offlineId commitment = .ok s') : s'.rights = s.rights := by
  simp only [consumeOfflineGrant, bind_eq_ok, exists_unit, pure_eq_ok] at h
  obtain ⟨_, _, _, _, _, _, _, rfl⟩ := h
  rfl

theorem proposeRenditionMigration_rights {fromWorkId toWorkId : Bytes32}
    {policy : RenditionMigrationPolicy}
    (h : proposeRenditionMigration env s caller fromWorkId toWorkId policy = .ok s') :
    s'.rights = s.rights := by
  simp only [proposeRenditionMigration, bind_eq_ok, exists_unit, pure_eq_ok] at h
  obtain ⟨_, _, _, rfl⟩ := h
  rfl

theorem acceptRenditionMigration_rights {grantId toWorkId : Bytes32}
    (h : acceptRenditionMigration env s caller grantId toWorkId = .ok s') : s'.rights = s.rights := by
  simp only [acceptRenditionMigration, bind_eq_ok, exists_unit, pure_eq_ok] at h
  obtain ⟨_, _, _, _, _, _, _, _, _, _, rfl⟩ := h
  rfl

theorem grantEntitlement_rights {renditionId : Symbol} {accessMode : AccessMode}
    (h : grantEntitlement env s caller licenseId renditionId accessMode = .ok s') :
    s'.rights = s.rights := by
  simp only [grantEntitlement, bind_eq_ok, exists_unit] at h
  obtain ⟨_, _, _, _, hstored⟩ := h
  cases hfound : s.entitlement (licenseId, renditionId, accessMode) with
  | some entitlement =>
    rw [hfound, pure_eq_ok] at hstored
    rw [hstored]
  | none =>
    simp only [hfound, bind_eq_ok, pure_eq_ok] at hstored
    obtain ⟨_, _, rfl⟩ := hstored
    rfl

theorem revokeEntitlement_rights {renditionId : Symbol} {accessMode : AccessMode}
    (h : revokeEntitlement env s caller licenseId renditionId accessMode = .ok s') :
    s'.rights = s.rights := by
  simp only [revokeEntitlement, bind_eq_ok, exists_unit, pure_eq_ok] at h
  obtain ⟨_, _, _, rfl⟩ := h
  rfl

theorem setAllocationLimit_rights {seatLimit : Nat}
    (h : setAllocationLimit env s caller licenseId seatLimit = .ok s') : s'.rights = s.rights := by
  simp only [setAllocationLimit, bind_eq_ok, exists_unit, pure_eq_ok] at h
  obtain ⟨_, _, _, _, _, _, rfl⟩ := h
  rfl

theorem allocateSeats_rights {organization subAccount : Address} {seats : Nat} {id : Bytes32}
    (h : allocateSeats crypto env s caller licenseId organization subAccount seats = .ok (id, s')) :
    s'.rights = s.rights := by
  simp only [allocateSeats, bind_eq_ok, exists_unit, Prod.exists, pure_eq_ok, Prod.mk.injEq] at h
  obtain ⟨_, _, _, _, _, _, _, _, _, _, _, _, _, _, _, _, _, rfl⟩ := h
  rfl

theorem revokeAllocation_rights {allocationId : Bytes32}
    (h : revokeAllocation env s caller allocationId = .ok s') : s'.rights = s.rights := by
  simp only [revokeAllocation, bind_eq_ok, exists_unit, pure_eq_ok] at h
  obtain ⟨_, _, _, _, _, _, _, rfl⟩ := h
  rfl

theorem issueAttestation_rights {subject institution : Address} {role : LibraryRole}
    {expiresAt : Nat} {id : Bytes32}
    (h : issueAttestation crypto env s caller subject institution role expiresAt = .ok (id, s')) :
    s'.rights = s.rights := by
  simp only [issueAttestation, bind_eq_ok, exists_unit, Prod.exists, pure_eq_ok, Prod.mk.injEq] at h
  obtain ⟨_, _, _, _, _, _, rfl⟩ := h
  rfl

theorem revokeAttestation_rights {attestationId : Bytes32}
    (h : revokeAttestation env s caller attestationId = .ok s') : s'.rights = s.rights := by
  simp only [revokeAttestation, bind_eq_ok, exists_unit, pure_eq_ok] at h
  obtain ⟨_, _, _, _, _, rfl⟩ := h
  rfl

theorem createRentalOffer_rights {publisher : Address} {terms : OfferTerms} {id : Bytes32}
    (h : createRentalOffer crypto env s publisher terms = .ok (id, s')) : s'.rights = s.rights := by
  simp only [createRentalOffer, bind_eq_ok, exists_unit, Prod.exists, pure_eq_ok, Prod.mk.injEq] at h
  obtain ⟨_, _, _, _, _, _, _, rfl⟩ := h
  rfl

end Aside

/-- What an accepted call has done to the tables of rights. -/
theorem execute_effect (h : execute crypto env s call = .ok (o, s')) :
    Effect crypto env s call o s'.rights := by
  cases call with
  | grantLicense caller workId licensee rights notBefore expiresAt totalSeats =>
    obtain ⟨id, _, hgranted⟩ := named_eq_ok.mp h
    obtain ⟨license, rfl, rfl, hactive, hissued⟩ := grantLicense_eq_ok hgranted
    exact issued_effect rfl rfl hactive rfl hissued
  | mintInstitutionalLicense caller institution treasury workId rights notBefore expiresAt seats
      commitment =>
    obtain ⟨id, _, hminted⟩ := named_eq_ok.mp h
    exact mintInstitutionalLicense_effect hminted
  | acceptRentalOffer buyer offerId contractId network =>
    obtain ⟨id, _, haccepted⟩ := named_eq_ok.mp h
    exact acceptRentalOffer_effect haccepted
  | revokeLicense caller licenseId =>
    obtain ⟨rfl, hrevoked⟩ := silent_eq_ok.mp h
    exact revokeLicense_effect hrevoked (.inl rfl)
  | returnLoan caller loanId =>
    obtain ⟨rfl, hreturned⟩ := silent_eq_ok.mp h
    exact revokeLicense_effect hreturned (.inr rfl)
  | scheduleLicenseRevocation caller licenseId effectiveAt activeLoansUntil reasonCommitment =>
    obtain ⟨rfl, hscheduled⟩ := silent_eq_ok.mp h
    exact scheduleLicenseRevocation_effect hscheduled
  | applyLicenseRevocation caller licenseId =>
    obtain ⟨rfl, happlied⟩ := silent_eq_ok.mp h
    exact applyLicenseRevocation_effect happlied
  | recordEnrollment caller courseId learner proofExpiresAt nonce =>
    obtain ⟨rfl, hrecorded⟩ := silent_eq_ok.mp h
    exact recordEnrollment_effect hrecorded
  | deriveAccessGrant caller licenseId grantee duration proof =>
    obtain ⟨id, rfl, hderived⟩ := named_eq_ok.mp h
    exact deriveAccessGrant_effect hderived
  | allocateSeat caller licenseId => exact allocateSeat_effect (silent_eq_ok.mp h).2
  | releaseSeat caller licenseId => exact releaseSeat_effect (silent_eq_ok.mp h).2
  | setAdmin admin => exact aside_effect rfl rfl (setAdmin_rights (silent_eq_ok.mp h).2)
  | createReaderSession caller grantId key duration =>
    obtain ⟨id, _, hcreated⟩ := named_eq_ok.mp h
    exact aside_effect rfl rfl (createReaderSession_rights hcreated)
  | createOfflineGrant caller grantId expiresAt maxUses =>
    obtain ⟨id, _, hcreated⟩ := named_eq_ok.mp h
    exact aside_effect rfl rfl (createOfflineGrant_rights hcreated)
  | consumeOfflineGrant caller offlineId commitment =>
    exact aside_effect rfl rfl (consumeOfflineGrant_rights (silent_eq_ok.mp h).2)
  | proposeRenditionMigration caller fromWorkId toWorkId policy =>
    exact aside_effect rfl rfl (proposeRenditionMigration_rights (silent_eq_ok.mp h).2)
  | acceptRenditionMigration caller grantId toWorkId =>
    exact aside_effect rfl rfl (acceptRenditionMigration_rights (silent_eq_ok.mp h).2)
  | grantEntitlement caller licenseId renditionId accessMode =>
    exact aside_effect rfl rfl (grantEntitlement_rights (silent_eq_ok.mp h).2)
  | revokeEntitlement caller licenseId renditionId accessMode =>
    exact aside_effect rfl rfl (revokeEntitlement_rights (silent_eq_ok.mp h).2)
  | setAllocationLimit caller licenseId seatLimit =>
    exact aside_effect rfl rfl (setAllocationLimit_rights (silent_eq_ok.mp h).2)
  | allocateSeats caller licenseId organization subAccount seats =>
    obtain ⟨id, _, hallocated⟩ := named_eq_ok.mp h
    exact aside_effect rfl rfl (allocateSeats_rights hallocated)
  | revokeAllocation caller allocationId =>
    exact aside_effect rfl rfl (revokeAllocation_rights (silent_eq_ok.mp h).2)
  | issueAttestation caller subject institution role expiresAt =>
    obtain ⟨id, _, hissued⟩ := named_eq_ok.mp h
    exact aside_effect rfl rfl (issueAttestation_rights hissued)
  | revokeAttestation caller attestationId =>
    exact aside_effect rfl rfl (revokeAttestation_rights (silent_eq_ok.mp h).2)
  | createRentalOffer publisher terms =>
    obtain ⟨id, _, hcreated⟩ := named_eq_ok.mp h
    exact aside_effect rfl rfl (createRentalOffer_rights hcreated)

end ChainVerse.LibraryLicensing
