import ChainVerse.Conduct.Contract
import ChainVerse.Framework.Tables

namespace ChainVerse.MentorshipConduct

variable {contract : Address} {env : Env contract} {s s' : State} {call : Call} {actor : Address}
  {role : Role} {version : Nat} {id : Bytes32} {before after : Engagement}

/-- An accepted call of a run, with the stores around it. -/
abbrev Step (contract : Address) := Entry State (Input contract) Answer

section Gate

/-- The actor is up to date in the role: the latest policy for it stands, and is accepted if it has to be. -/
def Current (s : State) (actor : Address) (role : Role) (version : Nat) : Prop :=
  ∃ policy stored, s.latestPolicy role = some stored ∧ s.policy stored = some policy ∧
    policy.retired = false ∧ (policy.mandatory = true → hasAccepted s actor policy.version role = true) ∧
    policy.version = version

theorem latestPolicyForRole_eq_ok {policy : Policy} : latestPolicyForRole s role = .ok policy ↔
    ∃ stored, s.latestPolicy role = some stored ∧ s.policy stored = some policy := by
  simp only [latestPolicyForRole, loadPolicy, bind_eq_ok, orRefuse_eq_ok]

theorem requireCurrentAcceptance_eq_ok :
    requireCurrentAcceptance s actor role = .ok version ↔ Current s actor role version := by
  simp only [requireCurrentAcceptance, bind_eq_ok, exists_unit, latestPolicyForRole_eq_ok, refuseIf_eq_ok,
    Bool.not_eq_true, Current]
  constructor
  · rintro ⟨policy, ⟨stored, hlatest, hpolicy⟩, hlive, h⟩
    refine ⟨policy, stored, hlatest, hpolicy, hlive, ?_⟩
    by_cases hmandatory : policy.mandatory = false
    · rw [if_pos hmandatory, pure_eq_ok] at h
      exact ⟨fun htrue => absurd htrue (by simp [hmandatory]), h⟩
    · rw [if_neg hmandatory] at h
      simp only [bind_eq_ok, exists_unit, refuseIf_eq_ok, pure_eq_ok, Bool.not_eq_false] at h
      exact ⟨fun _ => h.1, h.2⟩
  · rintro ⟨policy, stored, hlatest, hpolicy, hlive, haccepted, hversion⟩
    refine ⟨policy, ⟨stored, hlatest, hpolicy⟩, hlive, ?_⟩
    by_cases hmandatory : policy.mandatory = false
    · rw [if_pos hmandatory, pure_eq_ok]
      exact hversion
    · rw [if_neg hmandatory]
      simp only [bind_eq_ok, exists_unit, refuseIf_eq_ok, pure_eq_ok, Bool.not_eq_false]
      exact ⟨haccepted (Bool.eq_true_of_not_eq_false hmandatory), hversion⟩

/-- The check of the parties asks for what activation asks for. -/
theorem partyCompliant_iff :
    partyCompliant s actor role = true ↔ ∃ version, Current s actor role version := by
  unfold partyCompliant
  rcases hlatest : latestPolicyForRole s role with e | policy
  · simp only [Bool.false_eq_true, false_iff]
    rintro ⟨_, policy, stored, hstored, hpolicy, _⟩
    rw [latestPolicyForRole_eq_ok.mpr ⟨stored, hstored, hpolicy⟩] at hlatest
    cases hlatest
  · obtain ⟨stored, hstored, hpolicy⟩ := latestPolicyForRole_eq_ok.mp hlatest
    have hcheck : ∀ retired mandatory accepted : Bool,
        (!retired && !(mandatory && !accepted)) = true ↔
          retired = false ∧ (mandatory = true → accepted = true) := by decide
    refine (hcheck _ _ _).trans ⟨?_, ?_⟩
    · rintro ⟨hlive, haccepted⟩
      exact ⟨policy.version, policy, stored, hstored, hpolicy, hlive, haccepted, rfl⟩
    · rintro ⟨_, policy', stored', hstored', hpolicy', hlive, haccepted, _⟩
      obtain rfl : stored = stored' := Option.some.inj (hstored.symm.trans hstored')
      obtain rfl : policy = policy' := Option.some.inj (hpolicy.symm.trans hpolicy')
      exact ⟨hlive, haccepted⟩

theorem engagementCompliant_iff : engagementCompliant s id = true ↔
    ∃ e, s.engagement id = some e ∧ e.state = .active ∧ (∃ v, Current s e.mentor .mentor v) ∧
      ∃ v, Current s e.mentee .mentee v := by
  unfold engagementCompliant loadEngagement
  rcases hfound : s.engagement id with _ | e
  · simp [orRefuse]
  · by_cases hactive : e.state = .active
    · simp [orRefuse, hactive, partyCompliant_iff]
    · simp [orRefuse, hactive]

end Gate

section Effects

/-- How an accepted call can change an engagement that stands. -/
inductive Move (env : Env contract) (s : State) (id : Bytes32) : Call → Engagement → Engagement → Prop where
  | activated (caller : Address) (before : Engagement) (mentorVersion menteeVersion : Nat)
      (party : caller = before.mentor ∨ caller = before.mentee) (signed : env.signers caller = true)
      (pending : before.state = .pending) (mentor : Current s before.mentor .mentor mentorVersion)
      (mentee : Current s before.mentee .mentee menteeVersion) :
      Move env s id (.activateEngagement caller id) before { before with
        state := .active
        mentorPolicyVersion := mentorVersion
        menteePolicyVersion := menteeVersion
        activatedAt := env.timestamp
        updatedAt := env.timestamp }
  | suspended (admin : Address) (before : Engagement) (configured : s.admin = some admin)
      (signed : env.signers admin = true) (active : before.state = .active) :
      Move env s id (.suspendEngagement admin id) before { before with
        state := .suspended
        updatedAt := env.timestamp }
  | resumed (caller : Address) (before : Engagement) (mentorVersion menteeVersion : Nat)
      (party : caller = before.mentor ∨ caller = before.mentee) (signed : env.signers caller = true)
      (suspended : before.state = .suspended) (mentor : Current s before.mentor .mentor mentorVersion)
      (mentee : Current s before.mentee .mentee menteeVersion) :
      Move env s id (.resumeEngagement caller id) before { before with
        mentorPolicyVersion := mentorVersion
        menteePolicyVersion := menteeVersion
        state := .active
        updatedAt := env.timestamp }
  | ended (caller : Address) (before : Engagement)
      (party : caller = before.mentor ∨ caller = before.mentee) (signed : env.signers caller = true)
      (open_ : before.state ≠ .ended) :
      Move env s id (.endEngagement caller id) before { before with
        state := .ended
        updatedAt := env.timestamp }

def Acceptance.key (a : Acceptance) : Address × Nat × Role := (a.actor, a.policyVersion, a.role)

/-- Everything an accepted call can have done. -/
inductive Effect (env : Env contract) (s : State) : Call → State → Prop where
  | initialized (admin : Address) (vacant : s.admin = none) (signed : env.signers admin = true) :
      Effect env s (.initializeContract admin) { s with admin := some admin }
  | published (admin : Address) (policy : Policy) (configured : s.admin = some admin)
      (signed : env.signers admin = true) (next : policy.version = s.policyVersion + 1)
      (cap : policy.version ≤ maxPolicyVersion) (hash : policy.policyHash ≠ 0)
      (live : policy.retired = false) (now : policy.publishedAt = env.timestamp) :
      Effect env s (.publishPolicy admin policy.audience policy.policyHash policy.effectiveAt policy.mandatory)
        { savePolicy s policy with
          policyVersion := policy.version
          latestPolicy := recordLatest s.latestPolicy policy }
  | retired (admin : Address) (version : Nat) (policy : Policy) (configured : s.admin = some admin)
      (signed : env.signers admin = true) (found : s.policy version = some policy)
      (live : policy.retired = false) : Effect env s (.retirePolicy admin version)
        { s with policy := Function.update s.policy version (some { policy with retired := true }) }
  | accepted (a : Acceptance) (policy : Policy) (signed : env.signers a.actor = true)
      (fresh : s.acceptance a.key = none) (found : s.policy a.policyVersion = some policy)
      (live : policy.retired = false) (applies : policy.audience.appliesTo a.role = true)
      (hash : a.policyHash = policy.policyHash) (now : a.acceptedAt = env.timestamp) :
      Effect env s (.acceptPolicy a.actor a.policyVersion a.role)
        { s with acceptance := Function.update s.acceptance a.key (some a) }
  | repeated (actor : Address) (version : Nat) (role : Role) (signed : env.signers actor = true)
      (had : hasAccepted s actor version role = true) : Effect env s (.acceptPolicy actor version role) s
  | created (caller : Address) (e : Engagement) (parties : e.mentor ≠ e.mentee) (named : e.id ≠ 0)
      (vacant : s.engagement e.id = none) (signedMentor : env.signers e.mentor = true)
      (signedMentee : env.signers e.mentee = true) (pending : e.state = .pending) :
      Effect env s (.createEngagement caller e.id e.mentor e.mentee) (saveEngagement s e.id e)
  | moved (call : Call) (id : Bytes32) (before after : Engagement) (found : s.engagement id = some before)
      (move : Move env s id call before after) : Effect env s call (saveEngagement s id after)
  | breached (admin : Address) (b : BreachRecord) (policy : Policy) (vacant : s.breach b.caseRef = none)
      (evidence : b.evidenceHash ≠ 0) (found : s.policy b.policyVersion = some policy)
      (unresolved : b.resolved = false) :
      Effect env s (.recordBreach admin b.caseRef b.subject b.policyVersion b.severity b.evidenceHash)
        (saveBreach s b.caseRef b)
  | resolved (admin : Address) (caseRef : Bytes32) (b : BreachRecord) (found : s.breach caseRef = some b)
      (unresolved : b.resolved = false) : Effect env s (.resolveBreach admin caseRef)
        (saveBreach s caseRef { b with resolved := true, resolvedAt := env.timestamp })

theorem requireAdmin_eq_ok {admin : Address} {u : Unit} :
    requireAdmin env s admin = .ok u ↔ s.admin = some admin ∧ env.signers admin = true := by
  simp only [requireAdmin, bind_eq_ok, orRefuse_eq_ok, refuseIf_eq_ok, exists_unit, not_not,
    requireAuth_eq_ok]
  constructor
  · rintro ⟨configured, hconfigured, rfl, hsigned⟩
    exact ⟨hconfigured, hsigned⟩
  · rintro ⟨hconfigured, hsigned⟩
    exact ⟨admin, hconfigured, rfl, hsigned⟩

theorem publishPolicy_effect {admin : Address} {audience : Audience} {policyHash : Bytes32}
    {effectiveAt version : Nat} {mandatory : Bool}
    (h : publishPolicy env s admin audience policyHash effectiveAt mandatory = .ok (version, s')) :
    Effect env s (.publishPolicy admin audience policyHash effectiveAt mandatory) s' := by
  simp only [publishPolicy, bind_eq_ok, exists_unit, requireAdmin_eq_ok, refuseIf_eq_ok, orRefuse_eq_ok,
    fitsU_eq_some, pure_eq_ok, Prod.mk.injEq, not_lt] at h
  obtain ⟨⟨hconfigured, hsigned⟩, hhash, _, _, ⟨_, rfl⟩, hcap, rfl, rfl⟩ := h
  let policy : Policy :=
    { version := s.policyVersion + 1, audience, policyHash, effectiveAt, mandatory,
      publishedAt := env.timestamp, retired := false }
  exact .published admin policy hconfigured hsigned rfl hcap hhash rfl rfl

theorem retirePolicy_effect {admin : Address} (h : retirePolicy env s admin version = .ok s') :
    Effect env s (.retirePolicy admin version) s' := by
  simp only [retirePolicy, loadPolicy, bind_eq_ok, exists_unit, requireAdmin_eq_ok, refuseIf_eq_ok,
    orRefuse_eq_ok, pure_eq_ok, Bool.not_eq_true] at h
  obtain ⟨⟨hconfigured, hsigned⟩, policy, hfound, hlive, rfl⟩ := h
  exact .retired admin version policy hconfigured hsigned hfound hlive

theorem acceptPolicy_effect (h : acceptPolicy env s actor version role = .ok s') :
    Effect env s (.acceptPolicy actor version role) s' := by
  simp only [acceptPolicy, bind_eq_ok, exists_unit, requireAuth_eq_ok] at h
  obtain ⟨hsigned, h⟩ := h
  by_cases had : hasAccepted s actor version role = true
  · rw [if_pos had, pure_eq_ok] at h
    rw [← h]
    exact .repeated actor version role hsigned had
  · rw [if_neg had] at h
    simp only [loadPolicy, bind_eq_ok, exists_unit, refuseIf_eq_ok, orRefuse_eq_ok, pure_eq_ok,
      Bool.not_eq_true, Bool.not_eq_false] at h
    obtain ⟨policy, hfound, hlive, happlies, rfl⟩ := h
    have hfresh : s.acceptance (actor, version, role) = none := by
      rcases hrow : s.acceptance (actor, version, role) with _ | a
      · rfl
      · exact absurd (by rw [hasAccepted, hrow]; rfl) had
    let a : Acceptance :=
      { actor, role, policyVersion := version, policyHash := policy.policyHash,
        acceptedAt := env.timestamp }
    exact .accepted a policy hsigned hfresh hfound hlive happlies rfl rfl

theorem createEngagement_effect {caller mentor mentee : Address}
    (h : createEngagement env s caller id mentor mentee = .ok s') :
    Effect env s (.createEngagement caller id mentor mentee) s' := by
  simp only [createEngagement, bind_eq_ok, exists_unit, refuseIf_eq_ok, requireAuth_eq_ok, pure_eq_ok,
    not_not] at h
  obtain ⟨_, hparties, hnamed, hvacant, hmentor, hmentee, rfl⟩ := h
  let e : Engagement :=
    { id, mentor, mentee, state := .pending, mentorPolicyVersion := 0, menteePolicyVersion := 0,
      createdAt := env.timestamp, activatedAt := 0, updatedAt := env.timestamp }
  exact .created caller e hparties hnamed hvacant hmentor hmentee rfl

/-- A caller that is not refused as a stranger is one of the parties. -/
theorem party_of_not {caller mentor mentee : Address} (h : ¬(caller ≠ mentor ∧ caller ≠ mentee)) :
    caller = mentor ∨ caller = mentee := by
  by_contra hneither
  exact h (not_or.mp hneither)

theorem activateEngagement_effect {caller : Address}
    (h : activateEngagement env s caller id = .ok s') : Effect env s (.activateEngagement caller id) s' := by
  simp only [activateEngagement, loadEngagement, bind_eq_ok, exists_unit, requireAuth_eq_ok,
    orRefuse_eq_ok, refuseIf_eq_ok, requireCurrentAcceptance_eq_ok, pure_eq_ok, not_not] at h
  obtain ⟨hsigned, e, hfound, hparty, hpending, mentorVersion, hmentor, menteeVersion, hmentee, rfl⟩ := h
  exact .moved _ id e _ hfound (.activated caller e mentorVersion menteeVersion (party_of_not hparty)
    hsigned hpending hmentor hmentee)

theorem suspendEngagement_effect {admin : Address}
    (h : suspendEngagement env s admin id = .ok s') : Effect env s (.suspendEngagement admin id) s' := by
  simp only [suspendEngagement, loadEngagement, bind_eq_ok, exists_unit, requireAdmin_eq_ok,
    orRefuse_eq_ok, refuseIf_eq_ok, pure_eq_ok, not_not] at h
  obtain ⟨⟨hconfigured, hsigned⟩, e, hfound, hactive, rfl⟩ := h
  exact .moved _ id e _ hfound (.suspended admin e hconfigured hsigned hactive)

theorem resumeEngagement_effect {caller : Address}
    (h : resumeEngagement env s caller id = .ok s') : Effect env s (.resumeEngagement caller id) s' := by
  simp only [resumeEngagement, loadEngagement, bind_eq_ok, exists_unit, requireAuth_eq_ok,
    orRefuse_eq_ok, refuseIf_eq_ok, requireCurrentAcceptance_eq_ok, pure_eq_ok, not_not] at h
  obtain ⟨hsigned, e, hfound, hparty, hsuspended, mentorVersion, hmentor, menteeVersion, hmentee, rfl⟩ := h
  exact .moved _ id e _ hfound (.resumed caller e mentorVersion menteeVersion (party_of_not hparty)
    hsigned hsuspended hmentor hmentee)

theorem endEngagement_effect {caller : Address} (h : endEngagement env s caller id = .ok s') :
    Effect env s (.endEngagement caller id) s' := by
  simp only [endEngagement, loadEngagement, bind_eq_ok, exists_unit, requireAuth_eq_ok,
    orRefuse_eq_ok, refuseIf_eq_ok, pure_eq_ok] at h
  obtain ⟨hsigned, e, hfound, hparty, hopen, rfl⟩ := h
  exact .moved _ id e _ hfound (.ended caller e (party_of_not hparty) hsigned hopen)

theorem recordBreach_effect {admin subject : Address} {caseRef evidenceHash : Bytes32}
    {severity : BreachSeverity}
    (h : recordBreach env s admin caseRef subject version severity evidenceHash = .ok s') :
    Effect env s (.recordBreach admin caseRef subject version severity evidenceHash) s' := by
  simp only [recordBreach, loadPolicy, bind_eq_ok, exists_unit, refuseIf_eq_ok, orRefuse_eq_ok,
    pure_eq_ok, not_not] at h
  obtain ⟨_, hevidence, policy, hfound, hvacant, rfl⟩ := h
  let b : BreachRecord :=
    { caseRef, subject, policyVersion := version, severity, evidenceHash, recordedAt := env.timestamp,
      resolved := false, resolvedAt := 0 }
  exact .breached admin b policy hvacant hevidence hfound rfl

/-- What an accepted entry point has done. -/
theorem step_effect {i : Input contract} {o : Answer} (h : (machine contract).step s i = .ok (o, s')) :
    Effect i.env s i.call s' := by
  obtain ⟨env, call⟩ := i
  cases call with
  | initializeContract admin =>
    simp only [machine, execute, map_eq_ok, initializeContract, bind_eq_ok, exists_unit,
      refuseIf_eq_ok, requireAuth_eq_ok, pure_eq_ok, not_not, Prod.mk.injEq] at h
    obtain ⟨_, ⟨hvacant, hsigned, rfl⟩, _, rfl⟩ := h
    exact .initialized admin hvacant hsigned
  | publishPolicy =>
    simp only [machine, execute, map_eq_ok, Prod.map, Prod.mk.injEq, id] at h
    obtain ⟨⟨_, _⟩, hpublish, _, rfl⟩ := h
    exact publishPolicy_effect hpublish
  | retirePolicy =>
    simp only [machine, execute, map_eq_ok, Prod.mk.injEq] at h
    obtain ⟨_, hretire, _, rfl⟩ := h
    exact retirePolicy_effect hretire
  | acceptPolicy =>
    simp only [machine, execute, map_eq_ok, Prod.mk.injEq] at h
    obtain ⟨_, haccept, _, rfl⟩ := h
    exact acceptPolicy_effect haccept
  | createEngagement =>
    simp only [machine, execute, map_eq_ok, Prod.mk.injEq] at h
    obtain ⟨_, hcreate, _, rfl⟩ := h
    exact createEngagement_effect hcreate
  | activateEngagement =>
    simp only [machine, execute, map_eq_ok, Prod.mk.injEq] at h
    obtain ⟨_, hactivate, _, rfl⟩ := h
    exact activateEngagement_effect hactivate
  | suspendEngagement =>
    simp only [machine, execute, map_eq_ok, Prod.mk.injEq] at h
    obtain ⟨_, hsuspend, _, rfl⟩ := h
    exact suspendEngagement_effect hsuspend
  | resumeEngagement =>
    simp only [machine, execute, map_eq_ok, Prod.mk.injEq] at h
    obtain ⟨_, hresume, _, rfl⟩ := h
    exact resumeEngagement_effect hresume
  | endEngagement =>
    simp only [machine, execute, map_eq_ok, Prod.mk.injEq] at h
    obtain ⟨_, hend, _, rfl⟩ := h
    exact endEngagement_effect hend
  | recordBreach =>
    simp only [machine, execute, map_eq_ok, Prod.mk.injEq] at h
    obtain ⟨_, hrecord, _, rfl⟩ := h
    exact recordBreach_effect hrecord
  | resolveBreach admin caseRef =>
    simp only [machine, execute, map_eq_ok, resolveBreach, bind_eq_ok, exists_unit, refuseIf_eq_ok,
      orRefuse_eq_ok, pure_eq_ok, Bool.not_eq_true, Prod.mk.injEq] at h
    obtain ⟨_, ⟨_, b, hfound, hunresolved, rfl⟩, _, rfl⟩ := h
    exact .resolved admin caseRef b hfound hunresolved

end Effects

end ChainVerse.MentorshipConduct
