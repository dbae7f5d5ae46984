import ChainVerse.Licensing.Steps
import ChainVerse.Framework.Histories

namespace ChainVerse.LibraryLicensing

variable {contract : Address} {crypto : Crypto} {s s' : State} {i : Input contract} {o : Answer}

abbrev Step (contract : Address) := Entry State (Input contract) Answer

/-- The admin records an enrollment under a nonce. -/
def Step.Records (nonce : Bytes32) (record : EnrollmentRecord) (e : Step contract) : Prop :=
  ∃ admin, e.pre.admin = some admin ∧ e.input.env.signers admin = true ∧
    e.input.call =
      .recordEnrollment admin record.courseId record.learner record.proofExpiresAt nonce

/-- An enrollment is recorded under the nonce. -/
def Step.Enrolls (nonce : Bytes32) (e : Step contract) : Prop := ∃ record, e.Records nonce record

/-- A grant is derived by means of the nonce. -/
def Step.Uses (nonce : Bytes32) (e : Step contract) : Prop :=
  ∃ caller licenseId grantee duration proof, proof.nonce = nonce ∧
    e.input.call = .deriveAccessGrant caller licenseId grantee duration proof

/-- What a derivation of a grant needs and gives: the enrollment that the admin has last recorded under
the nonce is for the work of the license and for the caller and has not expired, the nonce is new, the
license is in force, and the window of the grant lies in that of the license. -/
def Gated (earlier : List (Step contract)) (e : Step contract) (caller : Address)
    (licenseId nonce : Bytes32) : Prop :=
  ∃ license record grantId grant,
    e.pre.rights.license licenseId = some license ∧
    Since (Step.Records nonce record) (Step.Enrolls nonce) earlier ∧
    record.courseId = license.workId ∧ record.learner = caller ∧
    e.input.env.timestamp < record.proofExpiresAt ∧
    (∀ x ∈ earlier, ¬ x.Uses nonce) ∧
    license.status = .active ∧ license.notBefore ≤ e.input.env.timestamp ∧
    e.input.env.timestamp < license.expiresAt ∧
    e.output = some grantId ∧ e.post.rights.grant grantId = some grant ∧
    grant.licenseId = licenseId ∧ license.notBefore ≤ grant.notBefore ∧
    grant.notBefore < grant.expiresAt ∧ grant.expiresAt ≤ license.expiresAt

/-- The tables of enrollments and nonces tell what the run has done. -/
structure Registered (es : List (Step contract)) (s : State) : Prop where
  recorded : ∀ nonce record, s.rights.enrollment nonce = some record ↔
    Since (Step.Records nonce record) (Step.Enrolls nonce) es
  used : ∀ nonce, s.rights.nonceUsed nonce = true ↔ ∃ e ∈ es, e.Uses nonce

section Lines

variable {es : List (Step contract)} {e : Step contract}

theorem registered_empty : Registered ([] : List (Step contract)) State.empty where
  recorded nonce record := by simp [State.empty, Since]
  used nonce := by simp [State.empty]

/-- What a line that is no recording leaves of the recorded enrollments. -/
theorem since_unrecorded {nonce : Bytes32} {record : EnrollmentRecord}
    (h : ∀ caller courseId learner expiresAt nonce,
      e.input.call ≠ .recordEnrollment caller courseId learner expiresAt nonce) :
    Since (Step.Records nonce record) (Step.Enrolls nonce) (es ++ [e]) ↔
      Since (Step.Records nonce record) (Step.Enrolls nonce) es := by
  rw [since_snoc]
  constructor
  · rintro (⟨admin, _, _, hcall⟩ | hold)
    · exact absurd hcall (h _ _ _ _ _)
    · exact hold.1
  · intro hold
    refine .inr ⟨hold, ?_⟩
    rintro ⟨_, admin, _, _, hcall⟩
    exact h _ _ _ _ _ hcall

theorem used_elsewhere {nonce : Bytes32} (h : ¬ e.Uses nonce) :
    (∃ x ∈ es ++ [e], Step.Uses nonce x) ↔ ∃ x ∈ es, Step.Uses nonce x := by
  constructor
  · rintro ⟨x, hx, huses⟩
    rcases List.mem_append.mp hx with hold | hnew
    · exact ⟨x, hold, huses⟩
    · rw [List.mem_singleton.mp hnew] at huses
      exact absurd huses h
  · rintro ⟨x, hx, huses⟩
    exact ⟨x, List.mem_append_left _ hx, huses⟩

/-- A line that is neither a recording nor a derivation. -/
theorem Registered.quiet (h : Registered es s)
    (hcall : ∀ caller courseId learner expiresAt nonce,
      e.input.call ≠ .recordEnrollment caller courseId learner expiresAt nonce)
    (hderive : ∀ caller licenseId grantee duration proof,
      e.input.call ≠ .deriveAccessGrant caller licenseId grantee duration proof)
    (henrollment : s'.rights.enrollment = s.rights.enrollment)
    (hnonces : s'.rights.nonceUsed = s.rights.nonceUsed) : Registered (es ++ [e]) s' where
  recorded nonce record := by
    rw [henrollment, since_unrecorded hcall]
    exact h.recorded nonce record
  used nonce := by
    rw [hnonces, used_elsewhere]
    · exact h.used nonce
    · rintro ⟨_, _, _, _, _, _, hcall⟩
      exact hderive _ _ _ _ _ hcall

theorem plain_quiet {call : Call} (hplain : call.plain = true) :
    (∀ caller courseId learner expiresAt nonce,
      call ≠ .recordEnrollment caller courseId learner expiresAt nonce) ∧
    ∀ caller licenseId grantee duration proof,
      call ≠ .deriveAccessGrant caller licenseId grantee duration proof := by
  constructor
  · rintro _ _ _ _ _ rfl
    cases hplain
  · rintro _ _ _ _ _ rfl
    cases hplain

/-- The line of a recording. -/
theorem Registered.enroll {env : Env contract} {caller : Address} {record : EnrollmentRecord}
    {nonce : Bytes32} (h : Registered es s) (hadmin : s.admin = some caller)
    (hsigned : env.signers caller = true)
    (henrollment : s'.rights.enrollment = Function.update s.rights.enrollment nonce (some record))
    (hnonces : s'.rights.nonceUsed = s.rights.nonceUsed) :
    Registered (es ++ [⟨s, ⟨env, .recordEnrollment caller record.courseId record.learner
      record.proofExpiresAt nonce⟩, o, s'⟩]) s' where
  recorded nonce' record' := by
    rw [since_snoc, henrollment]
    by_cases hnonce : nonce' = nonce
    · subst hnonce
      rw [Function.update_self]
      constructor
      · intro hrow
        cases hrow
        exact .inl ⟨caller, hadmin, hsigned, rfl⟩
      · rintro (⟨_, _, _, hcall⟩ | ⟨_, hreset⟩)
        · cases record
          cases record'
          cases hcall
          rfl
        · exact absurd ⟨record, caller, hadmin, hsigned, rfl⟩ hreset
    · rw [Function.update_of_ne hnonce, h.recorded]
      constructor
      · intro hold
        refine .inr ⟨hold, ?_⟩
        rintro ⟨_, _, _, _, hcall⟩
        exact hnonce (Call.recordEnrollment.inj hcall).2.2.2.2.symm
      · rintro (⟨_, _, _, hcall⟩ | hold)
        · exact absurd (Call.recordEnrollment.inj hcall).2.2.2.2.symm hnonce
        · exact hold.1
  used nonce' := by
    rw [used_elsewhere, hnonces]
    · exact h.used nonce'
    · rintro ⟨_, _, _, _, _, _, hcall⟩
      cases hcall

/-- The line of a derivation. -/
theorem Registered.derive {env : Env contract} {caller grantee : Address} {licenseId : Bytes32}
    {duration : Nat} {proof : EnrollmentProof} (h : Registered es s)
    (henrollment : s'.rights.enrollment = s.rights.enrollment)
    (hnonces : s'.rights.nonceUsed = Function.update s.rights.nonceUsed proof.nonce true) :
    Registered (es ++ [⟨s, ⟨env, .deriveAccessGrant caller licenseId grantee duration proof⟩, o, s'⟩])
      s' where
  recorded nonce record := by
    rw [since_unrecorded, henrollment]
    · exact h.recorded nonce record
    · intro _ _ _ _ _ hcall
      cases hcall
  used nonce := by
    rw [hnonces]
    by_cases hnonce : nonce = proof.nonce
    · subst hnonce
      rw [Function.update_self]
      refine iff_of_true rfl ⟨_, List.mem_concat_self, ?_⟩
      exact ⟨caller, licenseId, grantee, duration, proof, rfl, rfl⟩
    · rw [Function.update_of_ne hnonce, used_elsewhere]
      · exact h.used nonce
      · rintro ⟨_, _, _, _, _, hsame, hcall⟩
        cases hcall
        exact hnonce hsame.symm

end Lines

section Runs

theorem step_registered {es : List (Step contract)} (h : Registered es s)
    (hstep : (machine contract crypto).step s i = .ok (o, s')) :
    Registered (es ++ [⟨s, i, o, s'⟩]) s' := by
  obtain ⟨env, call⟩ := i
  have heffect : Effect crypto env s call o s'.rights := execute_effect hstep
  generalize hrights : s'.rights = rights at heffect
  cases heffect with
  | aside plain | issued plain | seated plain =>
    obtain ⟨hcall, hderive⟩ := plain_quiet plain
    exact h.quiet hcall hderive (by rw [hrights]) (by rw [hrights])
  | revoked kind stored active =>
    refine h.quiet ?_ ?_ (by rw [hrights]) (by rw [hrights])
    · rintro _ _ _ _ _ rfl
      rcases kind with hkind | hkind <;> cases hkind
    · rintro _ _ _ _ _ rfl
      rcases kind with hkind | hkind <;> cases hkind
  | scheduled | applied =>
    refine h.quiet ?_ ?_ (by rw [hrights]) (by rw [hrights])
    · intro _ _ _ _ _ hsame
      cases hsame
    · intro _ _ _ _ _ hsame
      cases hsame
  | enrolled admin signed => exact h.enroll admin signed (by rw [hrights]) (by rw [hrights])
  | derived stored checked of_license begins ends => exact h.derive (by rw [hrights]) (by rw [hrights])

theorem run_registered (is : List (Input contract)) :
    Registered ((machine contract crypto).journal State.empty is)
      ((machine contract crypto).run State.empty is) :=
  Machine.run_journal_invariant (m := machine contract crypto) (P := fun s es => Registered es s)
    registered_empty (fun _ _ _ _ _ hregistered hstep => step_registered hregistered hstep) is

/-- A derivation passes the gate exactly when the enrollment in the table has not expired. -/
theorem Registered.gated_iff {es : List (Step contract)} {env : Env contract}
    {caller grantee : Address} {licenseId : Bytes32} {duration : Nat} {proof : EnrollmentProof}
    (h : Registered es s)
    (hstep : (machine contract crypto).step s
      ⟨env, .deriveAccessGrant caller licenseId grantee duration proof⟩ = .ok (o, s')) :
    Gated es ⟨s, ⟨env, .deriveAccessGrant caller licenseId grantee duration proof⟩, o, s'⟩ caller
        licenseId proof.nonce ↔
      ∀ record, s.rights.enrollment proof.nonce = some record →
        env.timestamp < record.proofExpiresAt := by
  constructor
  · rintro ⟨_, record, _, _, _, hlast, _, _, hunexpired, _⟩ record' hstored
    rw [(h.recorded proof.nonce record).mpr hlast] at hstored
    cases hstored
    exact hunexpired
  · intro hunexpired
    have heffect : Effect crypto env s (.deriveAccessGrant caller licenseId grantee duration proof) o
        s'.rights := execute_effect hstep
    generalize hrights : s'.rights = rights at heffect
    cases heffect with
    | aside plain | issued plain | seated plain => cases plain
    | revoked kind =>
      rcases kind with hkind | hkind
      · cases hkind
      · cases hkind
    | @derived _ _ grantId _ _ _ license record grant stored checked of_license begins ends =>
      have hduration := checked.duration
      have hbegun := checked.begun
      have hunended := checked.unended
      have hends : grant.expiresAt ≤ license.expiresAt ∧ env.timestamp < grant.expiresAt := by
        omega
      refine ⟨license, record, grantId, grant, stored, (h.recorded _ _).mp checked.enrolled,
        checked.record_course, checked.record_learner, hunexpired record checked.enrolled, ?_,
        checked.active, hbegun, hunended, rfl, ?_, of_license, ?_, ?_, hends.1⟩
      · intro x hx huses
        have hused := (h.used proof.nonce).mpr ⟨x, hx, huses⟩
        rw [checked.unused] at hused
        cases hused
      · change s'.rights.grant grantId = some grant
        rw [hrights]
        exact Function.update_self _ _ _
      · rw [begins]
        exact hbegun
      · rw [begins]
        exact hends.2

/-- In every run the derivations pass the gate when, and only when, each of them finds an enrollment
that has not expired under its nonce. -/
theorem derivations_gated_iff (is : List (Input contract)) :
    (∀ earlier e later, (machine contract crypto).journal State.empty is = earlier ++ e :: later →
      ∀ caller licenseId grantee duration proof,
        e.input.call = .deriveAccessGrant caller licenseId grantee duration proof →
        Gated earlier e caller licenseId proof.nonce) ↔
    ∀ e ∈ (machine contract crypto).journal State.empty is,
      ∀ caller licenseId grantee duration proof,
        e.input.call = .deriveAccessGrant caller licenseId grantee duration proof →
        ∀ record, e.pre.rights.enrollment proof.nonce = some record →
          e.input.env.timestamp < record.proofExpiresAt := by
  have hline : ∀ earlier e later,
      (machine contract crypto).journal State.empty is = earlier ++ e :: later →
      ∀ caller licenseId grantee duration proof,
        e.input.call = .deriveAccessGrant caller licenseId grantee duration proof →
        (Gated earlier e caller licenseId proof.nonce ↔
          ∀ record, e.pre.rights.enrollment proof.nonce = some record →
            e.input.env.timestamp < record.proofExpiresAt) := by
    intro earlier e later hsplit caller licenseId grantee duration proof hcall
    obtain ⟨js, _, _, hjournal, hrun, hstep⟩ := Machine.journal_split hsplit
    have hregistered := @run_registered _ crypto js
    rw [hjournal, hrun] at hregistered
    obtain ⟨pre, ⟨env, call⟩, o, post⟩ := e
    cases hcall
    exact hregistered.gated_iff hstep
  constructor
  · intro hgated e he caller licenseId grantee duration proof hcall
    obtain ⟨earlier, later, hsplit⟩ := List.append_of_mem he
    have hgate := hgated earlier e later hsplit caller licenseId grantee duration proof hcall
    exact (hline earlier e later hsplit _ _ _ _ _ hcall).mp hgate
  · intro hunexpired earlier e later hsplit caller licenseId grantee duration proof hcall
    have he : e ∈ (machine contract crypto).journal State.empty is :=
      hsplit ▸ List.mem_append_cons_self
    apply (hline earlier e later hsplit _ _ _ _ _ hcall).mpr
    exact hunexpired e he caller licenseId grantee duration proof hcall

end Runs

section Samples

/-- The SHA-256 digests that make the id of the first license (work 7, licensee 2, time 10), the id of
the grant derived from it at time 20 for the licensee, and the commitment of that grant. -/
def sampleLicenseId : Bytes32 := 0x4cb24bc073bc751f81ddcbe9d36625dc5d62ebb73567bd799d1bc3300f9164b1
def sampleGrantId : Bytes32 := 0x2906c04461d26758269df14b3f4e7541736e6b9a0ffdedcb94a41a2a79c9912f
def sampleCommitment : Bytes32 := 0x4d623677a0fde259546c15d287789b1fe93a83d79d420ae4e5494f2f7a531619

def sampleCrypto : Crypto where
  sha256 p :=
    if p = idInput 1 10 (bytes32 7 ++ accountXdr ⟨2⟩) then sampleLicenseId
    else if p = idInput 1 20 (bytes32 sampleLicenseId ++ accountXdr ⟨2⟩) then sampleGrantId
    else if p = bytes32 sampleLicenseId ++ accountXdr ⟨2⟩ ++ bytes32 7 ++ beBytes 8 120 then
      sampleCommitment
    else 0
  addressXdr := accountXdr

/-- The learner `⟨2⟩` has a license of the work 7 and an enrollment for it. -/
def sampleEnrolled (proofExpiresAt : Nat) : List (Input ⟨0⟩) :=
  [⟨.sample, .setAdmin ⟨1⟩⟩, ⟨.sample, .grantLicense ⟨1⟩ 7 ⟨2⟩ "read" 0 1000 1⟩,
    ⟨.sample, .recordEnrollment ⟨1⟩ 7 ⟨2⟩ proofExpiresAt 9⟩]

/-- At time 20, with a proof that names a later expiry. -/
def sampleDerivation : Input ⟨0⟩ :=
  ⟨.sampleLater, .deriveAccessGrant ⟨2⟩ sampleLicenseId ⟨2⟩ 100 ⟨7, ⟨2⟩, 50, 9⟩⟩

/-- The enrollment has expired at time 15. -/
theorem expired_enrollment_accepted :
    let enrolled := (machine ⟨0⟩ sampleCrypto).journal State.empty (sampleEnrolled 15)
    ∃ e, (machine ⟨0⟩ sampleCrypto).journal State.empty (sampleEnrolled 15 ++ [sampleDerivation]) =
        enrolled ++ [e] ∧ e.input = sampleDerivation ∧ e.output = some sampleGrantId ∧
      ¬ Gated enrolled e ⟨2⟩ sampleLicenseId 9 := by
  intro enrolled
  have hrecord : ((machine ⟨0⟩ sampleCrypto).run State.empty (sampleEnrolled 15)).rights.enrollment 9 =
      some ⟨7, ⟨2⟩, 15⟩ := by decide +kernel
  have hanswer : ((machine ⟨0⟩ sampleCrypto).step
      ((machine ⟨0⟩ sampleCrypto).run State.empty (sampleEnrolled 15)) sampleDerivation).map Prod.fst =
        .ok (some sampleGrantId) := by decide +kernel
  obtain ⟨⟨_, s⟩, hstep, rfl⟩ := map_eq_ok.mp hanswer
  refine ⟨⟨(machine ⟨0⟩ sampleCrypto).run State.empty (sampleEnrolled 15), sampleDerivation,
    some sampleGrantId, s⟩, ?_, rfl, rfl, ?_⟩
  · rw [Machine.journal_append, Machine.journal_cons_ok _ hstep]
    rfl
  · intro hgated
    have hunexpired := (run_registered (sampleEnrolled 15)).gated_iff hstep |>.mp hgated _ hrecord
    exact absurd hunexpired (by decide)

end Samples

end ChainVerse.LibraryLicensing
