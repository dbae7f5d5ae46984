import ChainVerse.Licensing.Enrollments
import ChainVerse.Framework.Tables

namespace ChainVerse.LibraryLicensing

variable {contract : Address} {crypto : Crypto} {env : Env contract} {s s' : State} {call : Call}
  {i : Input contract} {o : Answer} {rights : Rights} {id : Bytes32}

section Ends

/-- A scheduled revocation of the license is applied. -/
def Step.Applies (id : Bytes32) (e : Step contract) : Prop :=
  ∃ caller, e.input.call = .applyLicenseRevocation caller id

/-- The license is revoked directly. -/
def Step.Revokes (id : Bytes32) (e : Step contract) : Prop :=
  ∃ caller, e.input.call = .revokeLicense caller id ∨ e.input.call = .returnLoan caller id

/-- A grant is derived under the license. -/
def Step.Derives (id : Bytes32) (e : Step contract) : Prop :=
  ∃ caller grantee duration proof, e.input.call = .deriveAccessGrant caller id grantee duration proof

/-- The license exists and is revoked. -/
def Rights.Revoked (rights : Rights) (id : Bytes32) : Prop :=
  ∃ license, rights.license id = some license ∧ license.status = .revoked

/-- The bytes that the id of the license of a line is the hash of. -/
def Step.preimage (crypto : Crypto) (e : Step contract) : Option (List Byte) :=
  (e.input.call.licensed e.pre).map fun issued =>
    licenseInput crypto e.input.env e.pre issued.1 issued.2

/-- The byte strings that the ids of the licenses of a run are hashes of. -/
def hashed (crypto : Crypto) (es : List (Step contract)) : List (List Byte) :=
  es.filterMap (Step.preimage crypto)

theorem Rights.Revoked.rewrite {rights' : Rights} {key : Bytes32} {row row' : License}
    (h : rights.Revoked id) (hrow : rights.license key = some row)
    (hlicense : rights'.license = Function.update rights.license key (some row'))
    (hstatus : row.status = .revoked → row'.status = .revoked) : rights'.Revoked id := by
  obtain ⟨stored, hstored, hrevoked⟩ := h
  unfold Rights.Revoked
  rw [hlicense]
  by_cases hid : id = key
  · rw [hid, hrow] at hstored
    cases hstored
    exact ⟨row', by rw [hid, Function.update_self], hstatus hrevoked⟩
  · exact ⟨stored, by rw [Function.update_of_ne hid, hstored], hrevoked⟩

/-- A revoked license stays revoked, as long as new licenses have new ids. -/
theorem Effect.keeps_revoked (h : Effect crypto env s call o rights)
    (hfresh : ∀ workId licensee, call.licensed s = some (workId, licensee) →
      s.rights.license (crypto.sha256 (licenseInput crypto env s workId licensee)) = none)
    (hrevoked : s.rights.Revoked id) : rights.Revoked id := by
  cases h with
  | aside | scheduled | enrolled | derived => exact hrevoked
  | issued plain licensed fits active =>
    obtain ⟨stored, hstored, hstatus⟩ := hrevoked
    exact ⟨stored, update_keeps_row (hfresh _ _ licensed) hstored, hstatus⟩
  | seated plain nothing stored => exact hrevoked.rewrite stored rfl fun hrow => hrow
  | revoked kind stored active => exact hrevoked.rewrite stored rfl fun _ => rfl
  | applied scheduled stored => exact hrevoked.rewrite stored rfl fun _ => rfl

/-- The license of a call that ends it is revoked. -/
theorem Effect.ends (h : Effect crypto env s call o rights) {caller : Address}
    (hends : call = .applyLicenseRevocation caller id ∨ call = .revokeLicense caller id ∨
      call = .returnLoan caller id) : rights.Revoked id := by
  cases h with
  | aside plain | issued plain | seated plain =>
    rcases hends with rfl | rfl | rfl <;> cases plain
  | scheduled | enrolled | derived =>
    rcases hends with hcall | hcall | hcall <;> cases hcall
  | revoked kind stored active =>
    rcases kind with rfl | rfl
    · rcases hends with hcall | hcall | hcall <;> cases hcall
      exact ⟨_, Function.update_self _ _ _, rfl⟩
    · rcases hends with hcall | hcall | hcall <;> cases hcall
      exact ⟨_, Function.update_self _ _ _, rfl⟩
  | applied scheduled stored =>
    rcases hends with hcall | hcall | hcall <;> cases hcall
    exact ⟨_, Function.update_self _ _ _, rfl⟩

/-- No grant is derived under a revoked license. -/
theorem Effect.not_derived (h : Effect crypto env s call o rights) (hrevoked : s.rights.Revoked id)
    {caller grantee : Address} {duration : Nat} {proof : EnrollmentProof} :
    call ≠ .deriveAccessGrant caller id grantee duration proof := by
  rintro rfl
  obtain ⟨license, hstored, hstatus⟩ := hrevoked
  cases h with
  | aside plain | issued plain | seated plain => cases plain
  | revoked kind => rcases kind with hkind | hkind <;> cases hkind
  | derived stored checked =>
    rw [hstored] at stored
    cases stored
    have hactive := checked.active
    rw [hstatus] at hactive
    cases hactive

end Ends

section Runs

variable {es : List (Step contract)} {e : Step contract}

/-- The ids of the licenses are hashes of what the run has hashed, and the licenses that it has ended
are revoked. -/
structure Ended (crypto : Crypto) (es : List (Step contract)) (s : State) : Prop where
  ids : Issued crypto.sha256 (fun id => s.rights.license id ≠ none) s.rights.licenseCount
    (hashed crypto es)
  revoked : ∀ e ∈ es, ∀ id, e.Applies id ∨ e.Revokes id → s.rights.Revoked id

theorem ended_empty : Ended crypto ([] : List (Step contract)) State.empty where
  ids := issued_empty.mono fun _ hid => hid rfl
  revoked e he := by
    cases he

theorem hashed_snoc :
    hashed crypto (es ++ [e]) = hashed crypto es ++ (Step.preimage crypto e).toList :=
  filterMap_snoc e

/-- Calls that are not plain issue no license. -/
theorem not_licensed (hplain : call.plain = false) : call.licensed s = none := by
  cases call <;> first | rfl | cases hplain

/-- The ids after a line. -/
theorem step_ids (h : Issued crypto.sha256 (fun id => s.rights.license id ≠ none)
      s.rights.licenseCount (hashed crypto es)) (heffect : Effect crypto env s call o s'.rights) :
    Issued crypto.sha256 (fun id => s'.rights.license id ≠ none) s'.rights.licenseCount
      (hashed crypto (es ++ [⟨s, ⟨env, call⟩, o, s'⟩])) := by
  have hline : Step.preimage crypto (⟨s, ⟨env, call⟩, o, s'⟩ : Step contract) =
      (call.licensed s).map fun issued => licenseInput crypto env s issued.1 issued.2 := rfl
  rw [hashed_snoc, hline]
  generalize s'.rights = rights at heffect
  cases heffect with
  | aside plain nothing =>
    rw [nothing, Option.map_none, Option.toList_none, List.append_nil]
    exact h
  | issued plain licensed fits active =>
    rw [licensed, Option.map_some, Option.toList_some]
    exact h.insert rfl fits rfl
  | seated plain nothing stored =>
    rw [nothing, Option.map_none, Option.toList_none, List.append_nil]
    exact h.rewrite stored
  | revoked kind stored active =>
    have hplain : call.plain = false := by
      rcases kind with rfl | rfl <;> rfl
    rw [not_licensed hplain, Option.map_none, Option.toList_none, List.append_nil]
    exact h.rewrite stored
  | applied scheduled stored =>
    rw [not_licensed rfl, Option.map_none, Option.toList_none, List.append_nil]
    exact h.rewrite stored
  | scheduled | enrolled | derived =>
    rw [not_licensed rfl, Option.map_none, Option.toList_none, List.append_nil]
    exact h

/-- The id of a new license has no license. -/
theorem fresh_license (h : Issued crypto.sha256 (fun id => s.rights.license id ≠ none)
      s.rights.licenseCount (hashed crypto es)) (heffect : Effect crypto env s call o s'.rights)
    (hfree : CollisionFree crypto.sha256 (hashed crypto (es ++ [⟨s, ⟨env, call⟩, o, s'⟩])))
    {workId : Bytes32} {licensee : Address} (hlicensed : call.licensed s = some (workId, licensee)) :
    s.rights.license (crypto.sha256 (licenseInput crypto env s workId licensee)) = none := by
  have hline : Step.preimage crypto (⟨s, ⟨env, call⟩, o, s'⟩ : Step contract) =
      some (licenseInput crypto env s workId licensee) := by
    change (call.licensed s).map _ = _
    rw [hlicensed]
    rfl
  rw [hashed_snoc, hline, Option.toList_some] at hfree
  have hfits : s.rights.licenseCount + 1 < 2^64 := by
    generalize s'.rights = rights at heffect
    cases heffect with
    | issued plain licensed fits active => exact fits
    | aside plain nothing | seated plain nothing =>
      rw [nothing] at hlicensed
      cases hlicensed
    | revoked kind => rcases kind with rfl | rfl <;> cases hlicensed
    | scheduled | applied | enrolled | derived => cases hlicensed
  exact not_not.mp (h.fresh rfl hfits hfree)

theorem step_ended (h : Ended crypto es s)
    (hfree : CollisionFree crypto.sha256 (hashed crypto (es ++ [⟨s, i, o, s'⟩])))
    (hstep : (machine contract crypto).step s i = .ok (o, s')) :
    Ended crypto (es ++ [⟨s, i, o, s'⟩]) s' := by
  obtain ⟨env, call⟩ := i
  have heffect : Effect crypto env s call o s'.rights := execute_effect hstep
  refine ⟨step_ids h.ids heffect, ?_⟩
  intro e he id hends
  rcases List.mem_append.mp he with hold | hnew
  · exact heffect.keeps_revoked (fun _ _ => fresh_license h.ids heffect hfree)
      (h.revoked e hold id hends)
  · rw [List.mem_singleton.mp hnew] at hends
    rcases hends with ⟨caller, hcall⟩ | ⟨caller, hcall | hcall⟩
    · exact heffect.ends (.inl hcall)
    · exact heffect.ends (.inr (.inl hcall))
    · exact heffect.ends (.inr (.inr hcall))

theorem run_ended {is : List (Input contract)}
    (h : CollisionFree crypto.sha256
      (hashed crypto ((machine contract crypto).journal State.empty is))) :
    Ended crypto ((machine contract crypto).journal State.empty is)
      ((machine contract crypto).run State.empty is) := by
  have hrun := Machine.run_journal_invariant (m := machine contract crypto) (s := State.empty)
    (P := fun s es => CollisionFree crypto.sha256 (hashed crypto es) → Ended crypto es s)
    (fun _ => ended_empty) (by
      intro es s i o s' hended hstep hfree
      exact step_ended (hended (hashed_snoc ▸ hfree).left) hfree hstep) is
  exact hrun h

end Runs

section Promise

variable {es : List (Step contract)} {e : Step contract} {now : Nat} {grantId : Bytes32}

/-- The promise of a scheduled revocation to the active loans: wherever it was applied to a license that
has not been revoked directly, a grant that was active then is active until the grant ends, the license
ends, or the time comes up to which the revocation preserves active loans. -/
def KeepsLoans (es : List (Step contract)) (s : State) : Prop :=
  ∀ e ∈ es, ∀ id record license, e.Applies id → e.pre.rights.revocation id = some record →
    e.pre.rights.license id = some license → (∀ x ∈ es, ¬ Step.Revokes id x) →
    ∀ grantId grant, e.pre.rights.grant grantId = some grant → grant.licenseId = id →
      isGrantActive e.input.env.timestamp e.pre grantId = .ok true →
      ∀ t, e.input.env.timestamp ≤ t → t < grant.expiresAt → t < license.expiresAt →
        t < record.activeLoansPreservedUntil → isGrantActive t s grantId = .ok true

/-- No grant is derived under a license after a revocation of it was applied. -/
def Sealed (es : List (Step contract)) : Prop :=
  ∀ earlier e later, es = earlier ++ e :: later → ∀ id, e.Applies id → ∀ x ∈ later, ¬ Step.Derives id x

/-- The application of a revocation takes nothing that was promised: no grant of the license is active,
or the time up to which active loans are preserved has come. -/
def Step.Spares (e : Step contract) : Prop :=
  ∀ id record, e.Applies id → e.pre.rights.revocation id = some record →
    ∀ grantId grant, e.pre.rights.grant grantId = some grant → grant.licenseId = id →
      isGrantActive e.input.env.timestamp e.pre grantId = .ok true →
      record.activeLoansPreservedUntil ≤ e.input.env.timestamp

theorem isGrantActive_eq_true : isGrantActive now s grantId = .ok true ↔
    ∃ grant license, s.rights.grant grantId = some grant ∧
      s.rights.license grant.licenseId = some license ∧ license.status = .active ∧
      license.notBefore ≤ now ∧ now < license.expiresAt ∧ grant.notBefore ≤ now ∧
      now < grant.expiresAt := by
  simp only [isGrantActive, loadGrant, loadLicense, License.isActive, bind_eq_ok, orRefuse_eq_ok,
    pure_eq_ok, Bool.and_eq_true, decide_eq_true_eq]
  constructor
  · rintro ⟨grant, hgrant, license, hlicense, ⟨hactive, hbegun, hunended⟩, hgrantBegun, hgrantUnended⟩
    exact ⟨grant, license, hgrant, hlicense, hactive, hbegun, hunended, hgrantBegun, hgrantUnended⟩
  · rintro ⟨grant, license, hgrant, hlicense, hactive, hbegun, hunended, hgrantBegun, hgrantUnended⟩
    exact ⟨grant, hgrant, license, hlicense, ⟨hactive, hbegun, hunended⟩, hgrantBegun, hgrantUnended⟩

/-- A grant of a revoked license is not active. -/
theorem inactive_of_revoked {grant : AccessGrant} (hgrant : s.rights.grant grantId = some grant)
    (hrevoked : s.rights.Revoked grant.licenseId) : isGrantActive now s grantId ≠ .ok true := by
  intro hactive
  obtain ⟨found, license, hfound, hlicense, hstatus, _⟩ := isGrantActive_eq_true.mp hactive
  rw [hgrant] at hfound
  cases hfound
  obtain ⟨stored, hstored, hended⟩ := hrevoked
  rw [hlicense] at hstored
  cases hstored
  rw [hstatus] at hended
  cases hended

/-- An accepted application leaves the grants and revokes the license. -/
theorem applied_line (hstep : (machine contract crypto).step s i = .ok (o, s'))
    (happlies : Step.Applies id (⟨s, i, o, s'⟩ : Step contract)) :
    s'.rights.grant = s.rights.grant ∧ s'.rights.Revoked id := by
  obtain ⟨env, call⟩ := i
  obtain ⟨caller, hcall⟩ := happlies
  cases hcall
  have heffect : Effect crypto env s (.applyLicenseRevocation caller id) o s'.rights :=
    execute_effect hstep
  refine ⟨?_, heffect.ends (.inl rfl)⟩
  generalize s'.rights = rights at heffect ⊢
  cases heffect with
  | aside plain | issued plain | seated plain => cases plain
  | revoked kind => rcases kind with hkind | hkind <;> cases hkind
  | applied => rfl

/-- Lines that spare the active loans keep the promise. -/
theorem keeps_of_spares (h : ∀ e ∈ es, Step.Spares e) : KeepsLoans es s := by
  intro e he id record license happlies hrecord _ _ grantId grant hgrant hid hactive t hlater _ _ huntil
  have hspared := h e he id record happlies hrecord grantId grant hgrant hid hactive
  omega

/-- A line that keeps the promise spares the active loans. -/
theorem spares_of_keeps (hended : Ended crypto es e.pre)
    (hstep : (machine contract crypto).step e.pre e.input = .ok (e.output, e.post))
    (hkeeps : KeepsLoans (es ++ [e]) e.post) : e.Spares := by
  intro id record happlies hrecord grantId grant hgrant hid hactive
  by_contra hearly
  obtain ⟨found, license, hfound, hlicense, hstatus, _, hunended, _, hgrantUnended⟩ :=
    isGrantActive_eq_true.mp hactive
  rw [hgrant] at hfound
  cases hfound
  rw [hid] at hlicense
  obtain ⟨hgrants, hrevoked⟩ := applied_line hstep happlies
  have hdirect : ∀ x ∈ es ++ [e], ¬ Step.Revokes id x := by
    intro x hx hrevokes
    rcases List.mem_append.mp hx with hold | hnew
    · obtain ⟨stored, hstored, hrow⟩ := hended.revoked x hold id (.inr hrevokes)
      rw [hlicense] at hstored
      cases hstored
      rw [hstatus] at hrow
      cases hrow
    · rw [List.mem_singleton.mp hnew] at hrevokes
      obtain ⟨_, happly⟩ := happlies
      obtain ⟨_, hcall | hcall⟩ := hrevokes
      · exact Call.noConfusion (happly.symm.trans hcall)
      · exact Call.noConfusion (happly.symm.trans hcall)
  have hkept := hkeeps e List.mem_concat_self id record license happlies hrecord hlicense hdirect
    grantId grant hgrant hid hactive e.input.env.timestamp le_rfl hgrantUnended hunended
    (Nat.lt_of_not_le hearly)
  have hpost : e.post.rights.grant grantId = some grant := by rw [hgrants, hgrant]
  exact inactive_of_revoked hpost (hid ▸ hrevoked) hkept

/-- Derivations need a license that is not revoked. -/
theorem run_sealed {is : List (Input contract)}
    (h : CollisionFree crypto.sha256
      (hashed crypto ((machine contract crypto).journal State.empty is))) :
    Sealed ((machine contract crypto).journal State.empty is) := by
  intro earlier e later hsplit id happlies x hx hderives
  obtain ⟨mid, rest, rfl⟩ := List.append_of_mem hx
  rw [← List.cons_append, ← List.append_assoc] at hsplit
  obtain ⟨js, ks, _, hjournal, hrun, hstep⟩ := Machine.journal_split hsplit
  have hfree : CollisionFree crypto.sha256
      (hashed crypto ((machine contract crypto).journal State.empty js)) := by
    rw [hsplit, hashed, List.filterMap_append] at h
    rw [hjournal]
    exact h.left
  have hended := run_ended hfree
  rw [hjournal, hrun] at hended
  have hrevoked := hended.revoked e (List.mem_append_cons_self) id (.inl happlies)
  obtain ⟨caller, grantee, duration, proof, hcall⟩ := hderives
  exact (execute_effect hstep).not_derived hrevoked hcall

/-- In every run the scheduled revocations keep their promise to the active loans when, and only when,
none is applied to a license with an active grant before the time up to which it preserves them. No
grant is derived after the application in any case. -/
theorem governed_revocation_iff {is : List (Input contract)}
    (h : CollisionFree crypto.sha256
      (hashed crypto ((machine contract crypto).journal State.empty is))) :
    (∀ js, js <+: is → KeepsLoans ((machine contract crypto).journal State.empty js)
        ((machine contract crypto).run State.empty js)) ∧
      Sealed ((machine contract crypto).journal State.empty is) ↔
    ∀ e ∈ (machine contract crypto).journal State.empty is, Step.Spares e := by
  constructor
  · rintro ⟨hkeeps, _⟩ e he
    obtain ⟨earlier, later, hsplit⟩ := List.append_of_mem he
    obtain ⟨js, ks, rfl, hjournal, hrun, hstep⟩ := Machine.journal_split hsplit
    have hfree : CollisionFree crypto.sha256
        (hashed crypto ((machine contract crypto).journal State.empty js)) := by
      rw [hsplit, hashed, List.filterMap_append] at h
      rw [hjournal]
      exact h.left
    have hended := run_ended hfree
    rw [hjournal, hrun] at hended
    have hline := hkeeps (js ++ [e.input]) ⟨ks, by rw [List.append_assoc, List.singleton_append]⟩
    rw [Machine.journal_append, Machine.run_append, hjournal, hrun, Machine.run_cons,
      Machine.run_nil, Machine.next_ok _ hstep, Machine.journal_cons_ok _ hstep, Machine.journal]
      at hline
    exact spares_of_keeps hended hstep hline
  · intro hspares
    refine ⟨?_, run_sealed h⟩
    intro js hjs
    apply keeps_of_spares
    intro e he
    apply hspares
    obtain ⟨ks, rfl⟩ := hjs
    rw [Machine.journal_append]
    exact List.mem_append_left _ he

end Promise

section Samples

/-- The learner has a grant at time 20, when a revocation is scheduled that preserves active loans until
some time. -/
def sampleScheduled (activeLoansUntil : Nat) : List (Input ⟨0⟩) :=
  sampleEnrolled 50 ++ [sampleDerivation,
    ⟨.sampleLater, .scheduleLicenseRevocation ⟨1⟩ sampleLicenseId 20 activeLoansUntil 5⟩]

def sampleApplication : Input ⟨0⟩ := ⟨.sampleLater, .applyLicenseRevocation ⟨1⟩ sampleLicenseId⟩

theorem sampleScheduled_free :
    CollisionFree sampleCrypto.sha256
      (hashed sampleCrypto ((machine ⟨0⟩ sampleCrypto).journal State.empty (sampleScheduled 100))) ∧
    CollisionFree sampleCrypto.sha256 (hashed sampleCrypto
      ((machine ⟨0⟩ sampleCrypto).journal State.empty (sampleScheduled 20 ++ [sampleApplication]))) := by
  decide +kernel

/-- The loans are to be preserved until time 100, and end at time 20. -/
theorem application_ends_loan :
    isGrantActive 20 ((machine ⟨0⟩ sampleCrypto).run State.empty (sampleScheduled 100)) sampleGrantId =
      .ok true ∧
    isGrantActive 20 ((machine ⟨0⟩ sampleCrypto).run State.empty
      (sampleScheduled 100 ++ [sampleApplication])) sampleGrantId = .ok false ∧
    ¬ KeepsLoans
      ((machine ⟨0⟩ sampleCrypto).journal State.empty (sampleScheduled 100 ++ [sampleApplication]))
      ((machine ⟨0⟩ sampleCrypto).run State.empty (sampleScheduled 100 ++ [sampleApplication])) := by
  have hactive : isGrantActive 20
      ((machine ⟨0⟩ sampleCrypto).run State.empty (sampleScheduled 100)) sampleGrantId = .ok true := by
    decide +kernel
  refine ⟨hactive, by decide +kernel, ?_⟩
  intro hkeeps
  have hrecord : ((machine ⟨0⟩ sampleCrypto).run State.empty (sampleScheduled 100)).rights.revocation
      sampleLicenseId = some ⟨sampleLicenseId, 20, 5, 100, false⟩ := by decide +kernel
  have hgrant : ((machine ⟨0⟩ sampleCrypto).run State.empty (sampleScheduled 100)).rights.grant
      sampleGrantId = some ⟨sampleLicenseId, ⟨2⟩, 7, sampleLicenseId, 20, 120, sampleCommitment⟩ := by
    decide +kernel
  have haccepted : ∃ p, (machine ⟨0⟩ sampleCrypto).step
      ((machine ⟨0⟩ sampleCrypto).run State.empty (sampleScheduled 100)) sampleApplication = .ok p := by
    decide +kernel
  obtain ⟨⟨o, s⟩, hstep⟩ := haccepted
  rw [Machine.journal_append, Machine.run_append, Machine.run_cons, Machine.run_nil,
    Machine.next_ok _ hstep, Machine.journal_cons_ok _ hstep, Machine.journal] at hkeeps
  have hspares := spares_of_keeps (run_ended sampleScheduled_free.1) hstep hkeeps
  have hearly : (100 : Nat) ≤ 20 :=
    hspares sampleLicenseId _ ⟨⟨1⟩, rfl⟩ hrecord sampleGrantId _ hgrant rfl hactive
  omega

/-- The application comes when the loans are no longer to be preserved. -/
theorem sampleScheduled_spared :
    ∀ e ∈ (machine ⟨0⟩ sampleCrypto).journal State.empty (sampleScheduled 20 ++ [sampleApplication]),
      Step.Spares e := by
  have hrecord : ((machine ⟨0⟩ sampleCrypto).run State.empty (sampleScheduled 20)).rights.revocation
      sampleLicenseId = some ⟨sampleLicenseId, 20, 5, 20, false⟩ := by decide +kernel
  rw [Machine.journal_append]
  intro e he id record happlies hstored grantId grant _ _ _
  rcases List.mem_append.mp he with hold | hnew
  · have hinput : e.input ∈ sampleScheduled 20 :=
      ((machine ⟨0⟩ sampleCrypto).journal_inputs _ _).subset (List.mem_map_of_mem hold)
    obtain ⟨caller, hcall⟩ := happlies
    simp only [sampleScheduled, sampleEnrolled, sampleDerivation, List.cons_append, List.nil_append,
      List.mem_cons, List.not_mem_nil, or_false] at hinput
    rcases hinput with h | h | h | h | h <;> rw [h] at hcall <;> cases hcall
  · obtain ⟨hpre, hstep⟩ := Machine.journal_singleton hnew
    have hinput : e.input = sampleApplication := by
      have hmem := ((machine ⟨0⟩ sampleCrypto).journal_inputs _ _).subset (List.mem_map_of_mem hnew)
      exact List.mem_singleton.mp hmem
    obtain ⟨caller, hcall⟩ := happlies
    rw [hinput] at hcall ⊢
    cases hcall
    rw [hpre, hrecord] at hstored
    cases hstored
    exact le_rfl

theorem sampleScheduled_kept :
    Sealed
      ((machine ⟨0⟩ sampleCrypto).journal State.empty (sampleScheduled 20 ++ [sampleApplication])) ∧
    KeepsLoans
      ((machine ⟨0⟩ sampleCrypto).journal State.empty (sampleScheduled 20 ++ [sampleApplication]))
      ((machine ⟨0⟩ sampleCrypto).run State.empty (sampleScheduled 20 ++ [sampleApplication])) := by
  have hboth := (governed_revocation_iff sampleScheduled_free.2).mpr sampleScheduled_spared
  exact ⟨hboth.2, hboth.1 _ List.prefix_rfl⟩

end Samples

end ChainVerse.LibraryLicensing
