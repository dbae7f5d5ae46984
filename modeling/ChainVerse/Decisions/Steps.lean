import ChainVerse.Decisions.Contract

namespace ChainVerse.MentorshipApplications

variable {contract : Address} {crypto : Crypto} {env : Env contract} {s s' : State}

/-- An accepted call of a run, with the stores around it. -/
abbrev Step (contract : Address) := Entry State (Input contract) Answer

section Writes

/-- The application after a decision. -/
def Application.decided (application : Application) (record : DecisionRecord) : Application :=
  { application with
    status := record.resultingStatus
    decisionCount := record.seq
    lastDecisionSeq := record.seq
    closedAt := if record.resultingStatus.isFinal then record.recordedAt else application.closedAt }

/-- A new application takes a slot of its program. -/
def State.enter (s : State) (application : Application) : State :=
  { s with
    applicationCount := s.applicationCount + 1
    activeCount := Function.update s.activeCount application.programId
      (s.activeCount application.programId + 1)
    application := Function.update s.application application.id (some application) }

/-- A decision is written down, and a final one gives the slot of its application back. -/
def State.resolve (s : State) (application : Application) (record : DecisionRecord) : State :=
  { s with
    decision := Function.update s.decision (record.applicationId, record.seq) (some record)
    activeCount :=
      if record.resultingStatus.isFinal then
        Function.update s.activeCount application.programId (s.activeCount application.programId - 1)
      else s.activeCount
    application :=
      Function.update s.application application.id (some (application.decided record)) }

end Writes

/-- A coordinator is the admin or was made one, and has signed. -/
def Authorized (env : Env contract) (s : State) (coordinator : Address) : Prop :=
  ∃ admin, s.admin = some admin ∧ (coordinator = admin ∨ s.coordinator coordinator = true) ∧
    env.signers coordinator = true

/-- What a call writes down about an application: a coordinator's decision, or the applicant's
withdrawal. -/
inductive Resolution (env : Env contract) (s : State) (id : Bytes32) (application : Application) :
    Call → DecisionRecord → Prop where
  | decision {coordinator : Address} {action : DecisionAction} {input : DecisionInput}
      {effectiveAt : Nat} (authorized : Authorized env s coordinator)
      (notWithdrawal : action.isWithdrawal = false) :
      Resolution env s id application (.recordDecision coordinator id action input)
        { applicationId := id, seq := application.decisionCount + 1, actor := coordinator, action,
          resultingStatus := action.targetStatus, publicReason := input.publicReason,
          internalReasonHash := input.internalReasonHash, effectiveAt,
          communication := input.communication, recordedAt := env.timestamp }
  | withdrawal {input : WithdrawalInput} {effectiveAt : Nat}
      (signed : env.signers application.applicant = true) :
      Resolution env s id application (.withdrawApplication application.applicant id input)
        { applicationId := id, seq := application.decisionCount + 1, actor := application.applicant,
          action := .withdraw, resultingStatus := .withdrawn, publicReason := input.publicReason,
          internalReasonHash := 0, effectiveAt, communication := input.communication,
          recordedAt := env.timestamp }

/-- A decision says what a call would have written down. -/
structure DecisionRecord.Repeats (last : DecisionRecord) (application : Application)
    (action : DecisionAction) (input : DecisionInput) : Prop where
  same_action : last.action = action
  same_reason : last.publicReason = input.publicReason
  same_hash : last.internalReasonHash = input.internalReasonHash
  status : application.status = action.targetStatus

/-- Calls that are answered from what is stored. -/
inductive Replayed (s : State) : Call → Answer → Prop where
  | decision {coordinator : Address} {id : Bytes32} {action : DecisionAction}
      {input : DecisionInput} {application : Application} {last : DecisionRecord}
      (found : s.application id = some application) (decided : 0 < application.lastDecisionSeq)
      (latest : s.decision (id, application.lastDecisionSeq) = some last)
      (repeats : last.Repeats application action input) :
      Replayed s (.recordDecision coordinator id action input) (.decision last.seq)
  | withdrawal {id : Bytes32} {input : WithdrawalInput} {application : Application}
      {last : DecisionRecord} (found : s.application id = some application)
      (withdrawn : application.status = .withdrawn)
      (latest : s.decision (id, application.lastDecisionSeq) = some last) :
      Replayed s (.withdrawApplication application.applicant id input) (.decision last.seq)
  | reapplication {applicant : Address} {id existing : Bytes32} {consentVersion : Nat}
      (linked : s.reappliedFrom id = some existing) :
      Replayed s (.reapply applicant id consentVersion) (.application existing)

/-- Everything an accepted call can have done, with its answer. -/
inductive Effect (crypto : Crypto) (env : Env contract) (s : State) :
    Call → Answer → State → Prop where
  | appoint {admin : Address} (absent : s.admin = none) :
      Effect crypto env s (.initializeContract admin) .done { s with admin := some admin }
  | coordinate {caller coordinator : Address} {allowed : Bool} :
      Effect crypto env s (.setCoordinator caller coordinator allowed) .done
        { s with coordinator := Function.update s.coordinator coordinator allowed }
  | configure {caller : Address} {programId : Bytes32} {policy : ProgramPolicy} :
      Effect crypto env s (.setProgramPolicy caller programId policy) .done
        { s with policy := Function.update s.policy programId (some policy) }
  | submit {applicant : Address} {programId id : Bytes32} {consentVersion : Nat}
      {policy : ProgramPolicy} (signed : env.signers applicant = true)
      (governed : s.policy programId = some policy)
      (room : s.activeCount programId < effectiveLimit policy) (fits : s.applicationCount + 1 < 2^64)
      (hashed : id = crypto.sha256 (applicationPreimage (s.applicationCount + 1) env.timestamp
        (applicationSalt crypto programId applicant 1))) :
      Effect crypto env s (.openApplication applicant programId consentVersion) (.application id)
        (s.enter (newApplication id programId applicant 1 consentVersion none env.timestamp))
  | reapply {previousId id : Bytes32} {consentVersion : Nat} {previous : Application}
      {policy : ProgramPolicy} (signed : env.signers previous.applicant = true)
      (unlinked : s.reappliedFrom previousId = none)
      (found : s.application previousId = some previous)
      (closed : previous.status = .withdrawn ∨ previous.status = .rejected)
      (governed : s.policy previous.programId = some policy)
      (within : policy.maxAttempts ≠ 0 → previous.attempt + 1 ≤ policy.maxAttempts)
      (cooled : 0 < policy.reapplyCooldown →
        previous.closedAt + policy.reapplyCooldown ≤ env.timestamp)
      (room : s.activeCount previous.programId < effectiveLimit policy)
      (fits : s.applicationCount + 1 < 2^64)
      (hashed : id = crypto.sha256 (applicationPreimage (s.applicationCount + 1) env.timestamp
        (applicationSalt crypto previous.programId previous.applicant (previous.attempt + 1)))) :
      Effect crypto env s (.reapply previous.applicant previousId consentVersion) (.application id)
        { s.enter (newApplication id previous.programId previous.applicant (previous.attempt + 1)
            consentVersion (some previousId) env.timestamp) with
          reappliedFrom := Function.update s.reappliedFrom previousId (some id) }
  | resolve {call : Call} {id : Bytes32} {application : Application} {record : DecisionRecord}
      (found : s.application id = some application) (pending : application.status.isFinal = false)
      (room : application.decisionCount < maxDecisionsPerApplication)
      (resolution : Resolution env s id application call record) :
      Effect crypto env s call (.decision record.seq) (s.resolve application record)
  | replay {call : Call} {answer : Answer} (replayed : Replayed s call answer) :
      Effect crypto env s call answer s

section Inversion

theorem reserveSlot_ok {programId : Bytes32} {limit : Nat} :
    reserveSlot s programId limit = .ok s' ↔ (s.activeCount programId < limit ∧
      s.activeCount programId + 1 < 2^32) ∧
      { s with
        activeCount := Function.update s.activeCount programId (s.activeCount programId + 1) } =
        s' := by
  simp only [reserveSlot, bind_eq_ok, refuseIf_eq_ok, exists_unit, not_le, orRefuse_eq_ok,
    fitsU_eq_some, pure_eq_ok]
  constructor
  · intro hparts
    obtain ⟨hroom, _, ⟨hfits, rfl⟩, rfl⟩ := hparts
    exact ⟨⟨hroom, hfits⟩, rfl⟩
  · intro hparts
    obtain ⟨⟨hroom, hfits⟩, rfl⟩ := hparts
    exact ⟨hroom, _, ⟨hfits, rfl⟩, rfl⟩

/-- Giving back one of no slots leaves none. -/
theorem releaseSlot_eq (s : State) (programId : Bytes32) :
    releaseSlot s programId =
      { s with
        activeCount := Function.update s.activeCount programId (s.activeCount programId - 1) } := by
  unfold releaseSlot
  by_cases hcount : 0 < s.activeCount programId
  · rw [if_pos hcount]
  · have hzero : s.activeCount programId - 1 = s.activeCount programId := by omega
    rw [if_neg hcount, hzero, Function.update_eq_self]

theorem requireCoordinator_ok {coordinator : Address} {u : Unit} :
    requireCoordinator env s coordinator = .ok u ↔ Authorized env s coordinator := by
  simp only [requireCoordinator, Authorized, bind_eq_ok, orRefuse_eq_ok, refuseIf_eq_ok, exists_unit,
    requireAuth_eq_ok, not_and_or, not_not, Bool.not_eq_false]

theorem effectiveTime_ok {effectiveAt : Nat} :
    (∃ t, effectiveTime env effectiveAt = .ok t) ↔
      effectiveAt = 0 ∨ env.timestamp ≤ effectiveAt := by
  unfold effectiveTime
  split_ifs with hzero
  · simp [hzero, pure, Except.pure]
  · simp [hzero]

theorem checkCooldown_ok {policy : ProgramPolicy} {previous : Application} {u : Unit}
    (h : checkCooldown env policy previous = .ok u) :
    0 < policy.reapplyCooldown → previous.closedAt + policy.reapplyCooldown ≤ env.timestamp := by
  intro hcooldown
  simp only [checkCooldown, if_pos hcooldown, bind_eq_ok, orRefuse_eq_ok, fitsU_eq_some,
    refuseIf_eq_ok, not_lt] at h
  obtain ⟨_, ⟨_, rfl⟩, hcooled⟩ := h
  exact hcooled

theorem openApplication_effect {applicant : Address} {programId id : Bytes32} {consentVersion : Nat}
    (h : openApplication env crypto s applicant programId consentVersion = .ok (id, s')) :
    Effect crypto env s (.openApplication applicant programId consentVersion) (.application id)
      s' := by
  simp only [openApplication, createApplication, deriveId, getPolicy, bind_eq_ok, refuseIf_eq_ok,
    exists_unit, requireAuth_eq_ok, orRefuse_eq_ok, reserveSlot_ok, fitsU_eq_some, pure_eq_ok,
    Prod.mk.injEq] at h
  obtain ⟨hsigned, _, policy, hgoverned, _, ⟨⟨hroom, _⟩, rfl⟩, ⟨_, _⟩, ⟨_, ⟨hfits, rfl⟩, rfl, rfl⟩,
    rfl, rfl⟩ := h
  exact .submit hsigned hgoverned hroom hfits rfl

theorem recordDecision_effect {coordinator : Address} {id : Bytes32} {action : DecisionAction}
    {input : DecisionInput} {seq : Nat}
    (h : recordDecision env s coordinator id action input = .ok (seq, s')) :
    Effect crypto env s (.recordDecision coordinator id action input) (.decision seq) s' := by
  simp only [recordDecision, lastDecision, loadDecision, loadApplication, bind_eq_ok, refuseIf_eq_ok,
    exists_unit, requireCoordinator_ok, orRefuse_eq_ok, Bool.not_eq_true] at h
  obtain ⟨hauthorized, hwithdrawal, _, _, effectiveAt, _, application, hfound, last, hlast, h⟩ := h
  split at h
  · rename_i record hrecord
    obtain ⟨hsome, hsame⟩ := Option.filter_eq_some_iff.mp hrecord
    rw [hsome] at hlast
    simp only [pure_eq_ok, Prod.mk.injEq] at h
    obtain ⟨rfl, rfl⟩ := h
    split_ifs at hlast with hdecided
    · simp only [map_eq_ok, orRefuse_eq_ok, Option.some.injEq] at hlast
      obtain ⟨_, hstored, rfl⟩ := hlast
      simp only [decide_eq_true_eq] at hsame
      obtain ⟨haction, hreason, hhash, hstatus⟩ := hsame
      exact .replay (.decision hfound hdecided hstored ⟨haction, hreason, hhash, hstatus⟩)
    · simp at hlast
  · simp only [getPolicy, bind_eq_ok, refuseIf_eq_ok, exists_unit, orRefuse_eq_ok, not_le,
      fitsU_eq_some, Bool.not_eq_true] at h
    obtain ⟨hpending, policy, _, _, hroom, _, ⟨_, rfl⟩, h⟩ := h
    let record : DecisionRecord :=
      { applicationId := id, seq := application.decisionCount + 1, actor := coordinator, action,
        resultingStatus := action.targetStatus, publicReason := input.publicReason,
        internalReasonHash := input.internalReasonHash, effectiveAt,
        communication := input.communication, recordedAt := env.timestamp }
    have heffect : Effect crypto env s (.recordDecision coordinator id action input)
        (.decision record.seq) (s.resolve application record) :=
      .resolve hfound hpending hroom (.decision hauthorized hwithdrawal)
    split_ifs at h with hfinal
    · simp only [releaseSlot_eq, storeApplication, pure_eq_ok, Prod.mk.injEq] at h
      obtain ⟨rfl, rfl⟩ := h
      simpa [State.resolve, Application.decided, record, hfinal] using heffect
    · simp only [storeApplication, pure_eq_ok, Prod.mk.injEq] at h
      obtain ⟨rfl, rfl⟩ := h
      simpa [State.resolve, Application.decided, record, hfinal] using heffect

theorem withdrawApplication_effect {applicant : Address} {id : Bytes32} {input : WithdrawalInput}
    {seq : Nat} (h : withdrawApplication env s applicant id input = .ok (seq, s')) :
    Effect crypto env s (.withdrawApplication applicant id input) (.decision seq) s' := by
  simp only [withdrawApplication, loadDecision, loadApplication, getPolicy, bind_eq_ok,
    refuseIf_eq_ok, exists_unit, requireAuth_eq_ok, orRefuse_eq_ok, not_not] at h
  obtain ⟨hsigned, application, hfound, rfl, _, _, effectiveAt, _, h⟩ := h
  split_ifs at h with hwithdrawn
  · simp only [bind_eq_ok, refuseIf_eq_ok, exists_unit, orRefuse_eq_ok, pure_eq_ok,
      Prod.mk.injEq] at h
    obtain ⟨last, hlast, _, rfl, rfl⟩ := h
    exact .replay (.withdrawal hfound hwithdrawn hlast)
  · simp only [bind_eq_ok, refuseIf_eq_ok, exists_unit, orRefuse_eq_ok, not_le, fitsU_eq_some,
      Bool.not_eq_true, releaseSlot_eq, storeApplication, pure_eq_ok, Prod.mk.injEq] at h
    obtain ⟨hpending, _, _, _, hroom, _, ⟨_, rfl⟩, rfl, rfl⟩ := h
    let record : DecisionRecord :=
      { applicationId := id, seq := application.decisionCount + 1, actor := application.applicant,
        action := .withdraw, resultingStatus := .withdrawn, publicReason := input.publicReason,
        internalReasonHash := 0, effectiveAt, communication := input.communication,
        recordedAt := env.timestamp }
    have heffect : Effect crypto env s (.withdrawApplication application.applicant id input)
        (.decision record.seq) (s.resolve application record) :=
      .resolve hfound hpending hroom (.withdrawal hsigned)
    simpa [State.resolve, Application.decided, record, ApplicationStatus.isFinal] using heffect

theorem reapply_effect {applicant : Address} {previousId id : Bytes32} {consentVersion : Nat}
    (h : reapply env crypto s applicant previousId consentVersion = .ok (id, s')) :
    Effect crypto env s (.reapply applicant previousId consentVersion) (.application id) s' := by
  simp only [reapply, bind_eq_ok, exists_unit, requireAuth_eq_ok] at h
  obtain ⟨hsigned, h⟩ := h
  split at h
  · rename_i existing hlinked
    simp only [pure_eq_ok, Prod.mk.injEq] at h
    obtain ⟨rfl, rfl⟩ := h
    exact .replay (.reapplication hlinked)
  · rename_i hunlinked
    simp only [loadApplication, getPolicy, validateReapplicationConsent, createApplication, deriveId,
      bind_eq_ok, refuseIf_eq_ok, exists_unit, orRefuse_eq_ok, fitsU_eq_some, reserveSlot_ok, not_not,
      not_and, not_lt, pure_eq_ok, Prod.mk.injEq] at h
    obtain ⟨previous, hfound, rfl, hclosed, policy, hgoverned, _, _, _, ⟨_, rfl⟩, hwithin, hcooled, _,
      ⟨⟨hroom, _⟩, rfl⟩, _, ⟨_, ⟨_, ⟨hfits, rfl⟩, rfl⟩, rfl⟩, rfl, rfl⟩ := h
    exact .reapply hsigned hunlinked hfound hclosed hgoverned hwithin (checkCooldown_ok hcooled) hroom
      hfits rfl

/-- What an accepted entry point has done. -/
theorem step_effect {i : Input contract} {o : Answer}
    (h : (machine contract crypto).step s i = .ok (o, s')) :
    Effect crypto i.env s i.call o s' := by
  obtain ⟨env, call⟩ := i
  cases call with
  | initializeContract =>
    simp only [machine, execute, map_eq_ok, initializeContract, bind_eq_ok, refuseIf_eq_ok,
      exists_unit, pure_eq_ok, Bool.not_eq_true, Option.isSome_eq_false_iff,
      Option.isNone_iff_eq_none, Prod.mk.injEq] at h
    obtain ⟨_, ⟨habsent, _, rfl⟩, rfl, rfl⟩ := h
    exact .appoint habsent
  | setCoordinator =>
    simp only [machine, execute, map_eq_ok, setCoordinator, bind_eq_ok, exists_unit, pure_eq_ok,
      Prod.mk.injEq] at h
    obtain ⟨_, ⟨_, rfl⟩, rfl, rfl⟩ := h
    exact .coordinate
  | setProgramPolicy =>
    simp only [machine, execute, map_eq_ok, setProgramPolicy, bind_eq_ok, refuseIf_eq_ok, exists_unit,
      pure_eq_ok, Prod.mk.injEq] at h
    obtain ⟨_, ⟨_, _, rfl⟩, rfl, rfl⟩ := h
    exact .configure
  | openApplication =>
    simp only [machine, execute, map_eq_ok, Prod.map, Prod.mk.injEq, id] at h
    obtain ⟨⟨_, _⟩, hopen, rfl, rfl⟩ := h
    exact openApplication_effect hopen
  | recordDecision =>
    simp only [machine, execute, map_eq_ok, Prod.map, Prod.mk.injEq, id] at h
    obtain ⟨⟨_, _⟩, hdecide, rfl, rfl⟩ := h
    exact recordDecision_effect hdecide
  | withdrawApplication =>
    simp only [machine, execute, map_eq_ok, Prod.map, Prod.mk.injEq, id] at h
    obtain ⟨⟨_, _⟩, hwithdraw, rfl, rfl⟩ := h
    exact withdrawApplication_effect hwithdraw
  | reapply =>
    simp only [machine, execute, map_eq_ok, Prod.map, Prod.mk.injEq, id] at h
    obtain ⟨⟨_, _⟩, hreapply, rfl, rfl⟩ := h
    exact reapply_effect hreapply

end Inversion

end ChainVerse.MentorshipApplications
