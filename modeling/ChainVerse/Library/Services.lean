import ChainVerse.Library.Control

namespace ChainVerse.LibraryRights

variable {contract : Address}

section Works

def setPolicy (l : Lending) (policyId : Symbol) (policy : Policy) : Lending :=
  { l with policy := Function.update l.policy policyId (some policy) }

/-- An update keeps the number of active loans. -/
def putPolicy (env : Env contract) (s : State) (caller : Address) (policyId : Symbol)
    (maxConcurrentLoansPerPatron maxTotalConcurrentLoans : Nat) : Outcome Lending := do
  ensureActive s
  requireRole env s .policyManager caller
  let totalActiveLoans := ((s.lending.policy policyId).map Policy.totalActiveLoans).getD 0
  pure (setPolicy s.lending policyId
    { maxConcurrentLoansPerPatron, totalActiveLoans, maxTotalConcurrentLoans })

def getPolicy (s : State) (policyId : Symbol) : Outcome Policy :=
  orRefuse (s.lending.policy policyId) (.err .policyNotFound)

def putWork (env : Env contract) (s : State) (caller : Address) (workId workHash : Bytes32)
    (custodian : Address) (policyId : Symbol) : Outcome Lending := do
  ensureActive s
  requireRole env s .policyManager caller
  ensureWritable s
  let _ ← getPolicy s policyId
  pure { s.lending with
    work := Function.update s.lending.work workId (some { workHash, custodian, policyId }) }

def getWork (s : State) (workId : Bytes32) : Outcome WorkRecord :=
  orRefuse (s.lending.work workId) (.err .workNotFound)

end Works

section Borrowing

/-- 30 and 7 days. -/
def loanSecs : Nat := 30 * 24 * 60 * 60
def holdSecs : Nat := 7 * 24 * 60 * 60

def setLoan (l : Lending) (id : Bytes32) (holder : Address) (row : LoanRow) : Lending :=
  { l with loan := Function.update l.loan (id, holder) (some row) }

def removeLoan (l : Lending) (id : Bytes32) (holder : Address) : Lending :=
  { l with loan := Function.update l.loan (id, holder) none }

def borrowWork (env : Env contract) (s : State) (caller : Address) (workId : Bytes32)
    (borrower : Address) : Outcome Lending := do
  ensureActive s
  requireAuth env caller
  ensureWritable s
  refuseIf ((s.lending.work workId).isNone = true) (.err .workNotFound)
  refuseIf ((s.lending.loan (workId, borrower)).isSome = true) (.err .unknown)
  let expiry ← orRefuse (fitsU 64 (env.timestamp + loanSecs)) .overflow
  pure (setLoan s.lending workId borrower (.borrowed { workId, borrower, expiry }))

/-- The caller is compared with the borrower and the librarian, but is not asked to sign. -/
def returnWork (s : State) (caller : Address) (workId : Bytes32) (borrower : Address) :
    Outcome Lending := do
  let librarian ← getRole s .librarian
  refuseIf (caller ≠ borrower ∧ caller ≠ librarian) (.err .unauthorized)
  if (s.lending.loan (workId, borrower)).isSome = true then
    pure (removeLoan s.lending workId borrower)
  else pure s.lending

def placeHold (env : Env contract) (s : State) (caller : Address) (workId : Bytes32)
    (holder : Address) : Outcome Lending := do
  ensureActive s
  requireAuth env caller
  ensureWritable s
  refuseIf ((s.lending.work workId).isNone = true) (.err .workNotFound)
  refuseIf ((s.lending.hold (workId, holder)).isSome = true) (.err .unknown)
  let expiry ← orRefuse (fitsU 64 (env.timestamp + holdSecs)) .overflow
  pure { s.lending with
    hold := Function.update s.lending.hold (workId, holder) (some { workId, holder, expiry }) }

/-- A hold whose claim fails stays. `borrow_work` authenticates the caller again, in the same frame. -/
def claimHold (env : Env contract) (s : State) (caller : Address) (workId : Bytes32)
    (holder : Address) : Outcome Lending := do
  ensureActive s
  requireAuth env caller
  let hold ← orRefuse (s.lending.hold (workId, holder)) (.err .holdNotFound)
  refuseIf (hold.expiry < env.timestamp) (.err .holdExpired)
  refuseIf (caller ≠ hold.holder) (.err .unauthorized)
  requireAuthAgain env caller
  let l ← borrowWork env s caller workId holder
  pure { l with hold := Function.update l.hold (workId, holder) none }

end Borrowing

section Reserves

def setReserve (l : Lending) (workId courseId : Bytes32) (reserve : ReserveRecord) : Lending :=
  { l with reserve := Function.update l.reserve (workId, courseId) (some reserve) }

def createReserve (env : Env contract) (s : State) (caller : Address) (workId courseId : Bytes32)
    (seats expiry : Nat) : Outcome Lending := do
  ensureActive s
  requireRole env s .policyManager caller
  ensureWritable s
  refuseIf ((s.lending.work workId).isNone = true) (.err .workNotFound)
  refuseIf ((s.lending.reserve (workId, courseId)).isSome = true) (.err .reserveExists)
  pure (setReserve s.lending workId courseId { workId, courseId, seats, expiry })

/-- Here too `borrow_work` authenticates the caller again. -/
def borrowFromReserve (env : Env contract) (registries : Registries) (s : State) (caller : Address)
    (workId courseId : Bytes32) (borrower : Address) : Outcome Lending := do
  ensureActive s
  requireAuth env caller
  let registry ← orRefuse s.governance.courseRegistry (.err .courseRegistryNotSet)
  refuseIf (registries.inCourse registry courseId borrower = false) (.err .notEnrolled)
  let reserve ← orRefuse (s.lending.reserve (workId, courseId)) (.err .reserveNotFound)
  refuseIf (reserve.seats = 0) (.err .noSeatsAvailable)
  requireAuthAgain env caller
  let l ← borrowWork env s caller workId borrower
  pure (setReserve l workId courseId { reserve with seats := reserve.seats - 1 })

/-- The seat is given back whether or not there was a loan, and of whichever reserve it was. -/
def returnToReserve (s : State) (caller : Address) (workId courseId : Bytes32)
    (borrower : Address) : Outcome Lending := do
  let l ← returnWork s caller workId borrower
  let reserve ← orRefuse (l.reserve (workId, courseId)) (.err .reserveNotFound)
  let seats ← orRefuse (fitsU 32 (reserve.seats + 1)) .overflow
  pure (setReserve l workId courseId { reserve with seats := seats })

end Reserves

section Checkouts

/-- A row read as a checked out loan; the host cannot convert one of the other kind. -/
def asPatronLoan : Option LoanRow → Outcome (Option PatronLoan)
  | none => pure none
  | some (.checkedOut loan) => pure (some loan)
  | some (.borrowed _) => .error .panicked

def loanPreimage (workId : Bytes32) (timestamp : Nat) : List Byte :=
  bytes32 workId ++ beBytes 8 timestamp

/-- The loan is stored under its own id, while the loan that may stand in its way is looked up under
the id of the work. -/
def checkoutWork (env : Env contract) (crypto : Crypto) (s : State) (patron : Address)
    (workId : Bytes32) (loanDuration : Nat) (autoRenew : Bool)
    (maxRenewals maxLicenseDuration : Nat) : Outcome (Bytes32 × Lending) := do
  ensureActive s
  requireAuth env patron
  let work ← getWork s workId
  let policyId := work.policyId
  let policy ← getPolicy s policyId
  let existing ← asPatronLoan (s.lending.loan (workId, patron))
  refuseIf (existing.any PatronLoan.isActive = true) (.err .workAlreadyLoaned)
  let patronActiveLoans := s.lending.patronPolicyActiveLoans (patron, policyId)
  refuseIf (policy.maxConcurrentLoansPerPatron ≤ patronActiveLoans) (.err .patronLoanLimitExceeded)
  refuseIf (policy.maxTotalConcurrentLoans ≤ policy.totalActiveLoans)
    (.err .policyLoanLimitExceeded)
  let loanId := crypto.sha256 (loanPreimage workId env.timestamp)
  let expiresAt ← orRefuse (fitsU 64 (env.timestamp + loanDuration)) .overflow
  let maxLicenseExpiry ← orRefuse (fitsU 64 (env.timestamp + maxLicenseDuration)) .overflow
  let l := setLoan s.lending loanId patron (.checkedOut
    { workId, holder := patron, createdAt := env.timestamp, expiresAt, isActive := true, policyId
      renewalCount := 0, autoRenew, maxLicenseExpiry, maxRenewals })
  let count ← orRefuse (fitsU 32 (patronActiveLoans + 1)) .overflow
  let l := { l with
    patronPolicyActiveLoans := Function.update l.patronPolicyActiveLoans (patron, policyId) count }
  let total ← orRefuse (fitsU 32 (policy.totalActiveLoans + 1)) .overflow
  pure (loanId, setPolicy l policyId { policy with totalActiveLoans := total })

/-- `return_work(patron, loan_id)`. Counters that are zero stay zero. -/
def returnLoan (env : Env contract) (s : State) (patron : Address) (loanId : Bytes32) :
    Outcome Lending := do
  requireAuth env patron
  let found ← asPatronLoan (s.lending.loan (loanId, patron))
  let loan ← orRefuse found (.err .loanNotFoundOrInactive)
  refuseIf (loan.isActive = false) (.err .loanNotFoundOrInactive)
  let l := setLoan s.lending loanId patron (.checkedOut { loan with isActive := false })
  let l := { l with
    patronPolicyActiveLoans := Function.update l.patronPolicyActiveLoans (patron, loan.policyId)
      (l.patronPolicyActiveLoans (patron, loan.policyId) - 1) }
  let policy ← orRefuse (l.policy loan.policyId) (.err .policyNotFound)
  pure (setPolicy l loan.policyId { policy with totalActiveLoans := policy.totalActiveLoans - 1 })

def renewLoan (env : Env contract) (s : State) (patron : Address) (loanId : Bytes32)
    (renewalDuration : Nat) : Outcome Lending := do
  ensureActive s
  requireAuth env patron
  let found ← asPatronLoan (s.lending.loan (loanId, patron))
  let loan ← orRefuse found (.err .loanNotFoundOrInactive)
  refuseIf (loan.isActive = false) (.err .loanNotFoundOrInactive)
  refuseIf (loan.maxRenewals ≤ loan.renewalCount) (.err .maxRenewalsReached)
  let newExpiresAt ← orRefuse (fitsU 64 (env.timestamp + renewalDuration)) .overflow
  refuseIf (loan.maxLicenseExpiry < newExpiresAt) (.err .exceedsLicenseExpiry)
  let _ ← getPolicy s loan.policyId
  pure (setLoan s.lending loanId patron (.checkedOut
    { loan with expiresAt := newExpiresAt, renewalCount := loan.renewalCount + 1 }))

end Checkouts

section Quarantine

def setStatus (v : Services) (workId : Bytes32) (status : ContentStatus) : Services :=
  { v with contentStatus := Function.update v.contentStatus workId (some status) }

def setContentStatus (s : State) (workId : Bytes32) (status : ContentStatus) : Outcome Services := do
  refuseIf ((s.lending.work workId).isNone = true) (.err .workNotFound)
  refuseIf (s.services.contentStatus workId = some .quarantined) (.err .invalidStateTransition)
  pure (setStatus s.services workId status)

def deactivateWork (env : Env contract) (s : State) (caller : Address) (workId : Bytes32) :
    Outcome Services := do
  requireRole env s .policyManager caller
  setContentStatus s workId .deactivated

def legalTakedownWork (env : Env contract) (s : State) (caller : Address) (workId : Bytes32) :
    Outcome Services := do
  requireRole env s .policyManager caller
  setContentStatus s workId .legalTakedown

def quarantineWork (env : Env contract) (s : State) (caller : Address)
    (workId reasonHash : Bytes32) : Outcome Services := do
  requireRole env s .emergency caller
  refuseIf ((s.lending.work workId).isNone = true) (.err .workNotFound)
  refuseIf (s.services.contentStatus workId = some .quarantined) (.err .alreadyQuarantined)
  refuseIf (s.services.contentStatus workId = some .legalTakedown) (.err .invalidStateTransition)
  let v := setStatus s.services workId .quarantined
  pure { v with
    quarantine := Function.update v.quarantine workId (some
      { reasonHash, quarantinedAt := env.timestamp, quarantinedBy := caller, restoredAt := none
        restorationReviewHash := none }) }

def restoreQuarantinedWork (env : Env contract) (s : State) (caller : Address)
    (workId reviewHash : Bytes32) : Outcome Services := do
  requireRole env s .policyManager caller
  refuseIf (s.services.contentStatus workId ≠ some .quarantined) (.err .invalidStateTransition)
  let record ← orRefuse (s.services.quarantine workId) (.err .invalidStateTransition)
  let v := setStatus s.services workId .active
  pure { v with
    quarantine := Function.update v.quarantine workId (some
      { record with
        restoredAt := some env.timestamp, restorationReviewHash := some reviewHash }) }

end Quarantine

section Commitments

def commitClassification (env : Env contract) (s : State) (caller : Address)
    (kind : ClassificationKind) (manifestHash : Bytes32) (schemaVersion : Nat) :
    Outcome Services := do
  ensureActive s
  requireRole env s .policyManager caller
  refuseIf (manifestHash = 0) (.err .invalidHash)
  let v := s.services
  let next ← orRefuse (fitsU 64 (v.classificationCount kind + 1)) (.err .overflow)
  let commit : ClassificationCommit :=
    { manifestHash, schemaVersion, issuer := caller
      previousHash := (v.classification kind).map ClassificationCommit.manifestHash
      committedAt := env.timestamp }
  pure { v with
    classificationHistory := Function.update v.classificationHistory (kind, next) (some commit)
    classificationCount := Function.update v.classificationCount kind next
    classification := Function.update v.classification kind (some commit) }

def attestProvenance (env : Env contract) (s : State) (caller : Address) (workId : Bytes32)
    (provenanceType : ProvenanceType) (provenanceHash : Bytes32) : Outcome Services := do
  ensureActive s
  requireRole env s .policyManager caller
  refuseIf (provenanceHash = 0) (.err .invalidHash)
  let v := s.services
  let next ← orRefuse (fitsU 64 (v.provenanceCount workId + 1)) (.err .overflow)
  let previousHash :=
    if 1 < next then (v.provenance (workId, next - 1)).map ProvenanceRecord.provenanceHash
    else none
  pure { v with
    provenance := Function.update v.provenance (workId, next) (some
      { workId, provenanceType, provenanceHash, attestedBy := caller, attestedAt := env.timestamp
        previousHash })
    provenanceCount := Function.update v.provenanceCount workId next }

/-- `approve_wasm_hash`. -/
def approveWasmHash (env : Env contract) (s : State) (caller : Address) (newHash : Bytes32) :
    Outcome Services := do
  requireRole env s .admin caller
  refuseIf (newHash = 0) (.err .invalidHash)
  pure { s.services with approvedWasmHash := newHash }

end Commitments

section Memberships

def membershipPreimage (crypto : Crypto) (wallet : Address)
    (claimCommitment institutionDomainHash networkId : Bytes32) (nonce : Nat) : List Byte :=
  crypto.addressXdr wallet ++ bytes32 claimCommitment ++ bytes32 institutionDomainHash ++
    bytes32 networkId ++ beBytes 8 nonce

def setAttestation (v : Services) (id : Bytes32) (attestation : MembershipAttestation) : Services :=
  { v with
    membershipAttestation := Function.update v.membershipAttestation id (some attestation) }

/-- The attestation that the wallet has had so far is revoked. -/
def revokePrevious (v : Services) (wallet : Address) : Services :=
  match v.membershipCurrent wallet with
  | some previousId =>
    match v.membershipAttestation previousId with
    | some previous => setAttestation v previousId { previous with status := .revoked }
    | none => v
  | none => v

def attestMembership (env : Env contract) (crypto : Crypto) (s : State) (caller wallet : Address)
    (claimCommitment institutionDomainHash networkId : Bytes32) (expiresAt : Nat) :
    Outcome (Bytes32 × Services) := do
  ensureActive s
  requireRole env s .policyManager caller
  let issuedAt := env.timestamp
  refuseIf (expiresAt ≤ issuedAt) (.err .invalidStateTransition)
  let next ← orRefuse (fitsU 64 (s.services.membershipCount + 1)) (.err .invalidStateTransition)
  let id := crypto.sha256
    (membershipPreimage crypto wallet claimCommitment institutionDomainHash networkId next)
  let v := revokePrevious { s.services with membershipCount := next } wallet
  let v := setAttestation v id
    { wallet, claimCommitment, institutionDomainHash, networkId, nonce := next, issuedAt, expiresAt
      status := .active }
  pure (id, { v with membershipCurrent := Function.update v.membershipCurrent wallet (some id) })

def revokeMembership (env : Env contract) (s : State) (caller : Address) (attestationId : Bytes32) :
    Outcome Services := do
  requireRole env s .policyManager caller
  let attestation ← orRefuse (s.services.membershipAttestation attestationId)
    (.err .membershipNotFound)
  refuseIf (attestation.status = .revoked) (.err .alreadyRevoked)
  let v := setAttestation s.services attestationId { attestation with status := .revoked }
  if v.membershipCurrent attestation.wallet = some attestationId then
    pure { v with
      membershipCurrent := Function.update v.membershipCurrent attestation.wallet none }
  else pure v

end Memberships

section Keepers

/-- `add_keeper` and `remove_keeper`, which differ in what they write. -/
def setKeeper (env : Env contract) (s : State) (caller keeper : Address) (value : Bool) :
    Outcome Services := do
  ensureActive s
  requireRole env s .admin caller
  pure { s.services with keeper := Function.update s.services.keeper keeper value }

def addKeeper (env : Env contract) (s : State) (caller keeper : Address) : Outcome Services :=
  setKeeper env s caller keeper true

def removeKeeper (env : Env contract) (s : State) (caller keeper : Address) : Outcome Services :=
  setKeeper env s caller keeper false

end Keepers

section Licensing

def appendPolicy (env : Env contract) (s : State) (caller : Address) (policyId : Bytes32)
    (scope : PolicyScope) (loanDurationSecs maxConcurrentLoans renewalLimit holdDurationSecs : Nat)
    (finePerDay : Int) : Outcome (Nat × Services) := do
  ensureActive s
  requireRole env s .policyManager caller
  ensureWritable s
  let policyManager ← getRole s .policyManager
  refuseIf (scope.institution ≠ caller ∧ caller ≠ policyManager) (.err .notAdmin)
  refuseIf (loanDurationSecs = 0 ∨ maxConcurrentLoans = 0 ∨ finePerDay < 0 ∨ holdDurationSecs = 0)
    (.err .invalidPolicy)
  let v := s.services
  let version ← orRefuse (fitsU 32 ((v.latestVersion policyId).getD 0 + 1)) (.err .invalidPolicy)
  let policy : BorrowingPolicy :=
    { scope, loanDurationSecs, maxConcurrentLoans, renewalLimit, holdDurationSecs, finePerDay
      version, active := true }
  pure (version, { v with
    policyVersion := Function.update v.policyVersion (policyId, version)
      (some { policyId, version, policy, createdAt := env.timestamp })
    latestVersion := Function.update v.latestVersion policyId (some version) })

def latestPolicy (v : Services) (policyId : Bytes32) : Outcome PolicyVersion := do
  let version ← orRefuse (v.latestVersion policyId) (.err .policyNotFound)
  orRefuse (v.policyVersion (policyId, version)) (.err .policyVersionNotFound)

def registerLicense (env : Env contract) (s : State) (caller : Address) (licenseId workId : Bytes32)
    (institution : Address) (expiresAt : Nat) : Outcome Services := do
  ensureActive s
  requireRole env s .policyManager caller
  ensureWritable s
  refuseIf (expiresAt ≤ env.timestamp) (.err .invalidTimestamp)
  pure { s.services with
    license := Function.update s.services.license licenseId
      (some { workId, institution, expiresAt, active := true }) }

/-- `register_rendition(caller, rendition_id, work_id, format)`. -/
def registerLicensedRendition (env : Env contract) (s : State) (caller : Address)
    (renditionId workId : Bytes32) (format : Symbol) : Outcome Services := do
  ensureActive s
  requireRole env s .policyManager caller
  pure { s.services with
    rendition := Function.update s.services.rendition renditionId
      (some { workId, format, active := true }) }

def registerSeat (env : Env contract) (s : State) (caller : Address) (seatId : Bytes32)
    (institution : Address) : Outcome Services := do
  ensureActive s
  requireRole env s .policyManager caller
  pure { s.services with
    seat := Function.update s.services.seat seatId (some { institution, available := true }) }

def checkout (env : Env contract) (crypto : Crypto) (registries : Registries) (s : State)
    (borrower institution courseRegistry : Address) (courseId borrowerRole : Symbol)
    (collection : Option Bytes32) (policyId licenseId renditionId seatId : Bytes32) :
    Outcome (Bytes32 × Services) := do
  ensureActive s
  requireAuth env borrower
  refuseIf (registries.isEnrolled courseRegistry borrower courseId = false) (.err .notEnrolled)
  let v := s.services
  let policy ← latestPolicy v policyId
  let scope := policy.policy.scope
  refuseIf (policy.policy.active = false ∨ scope.institution ≠ institution ∨
    scope.role ≠ borrowerRole ∨ scope.collection ≠ collection) (.err .invalidPolicy)
  let license ← orRefuse (v.license licenseId) (.err .licenseNotFound)
  refuseIf (license.active = false ∨ license.institution ≠ institution ∨
    license.expiresAt ≤ env.timestamp) (.err .licenseInactive)
  let rendition ← orRefuse (v.rendition renditionId) (.err .renditionNotFound)
  refuseIf (rendition.active = false ∨ rendition.workId ≠ license.workId ∨
    rendition.format ≠ scope.format) (.err .renditionInactive)
  let seat ← orRefuse (v.seat seatId) (.err .seatNotFound)
  refuseIf (seat.available = false ∨ seat.institution ≠ institution) (.err .seatUnavailable)
  let count := v.borrowerLoanCount (institution, borrower)
  refuseIf (policy.policy.maxConcurrentLoans ≤ count) (.err .borrowingLimitReached)
  let dueAt ← orRefuse (fitsU 64 (env.timestamp + policy.policy.loanDurationSecs))
    (.err .invalidTimestamp)
  let next ← orRefuse (fitsU 64 (v.loanCounter + 1)) (.err .loanIdOverflow)
  let loanId := crypto.sha256 (beBytes 8 next ++ crypto.addressXdr borrower)
  let newCount ← orRefuse (fitsU 32 (count + 1)) .overflow
  let loan : SeatLoan :=
    { loanId, borrower, institution, workId := license.workId, licenseId, renditionId, seatId
      policyId, policyVersion := policy.version, checkedOutAt := env.timestamp, dueAt
      active := true }
  pure (loanId, { v with
    loanCounter := next
    seat := Function.update v.seat seatId (some { seat with available := false })
    borrowerLoanCount := Function.update v.borrowerLoanCount (institution, borrower) newCount
    seatLoan := Function.update v.seatLoan loanId (some loan) })

end Licensing

end ChainVerse.LibraryRights
