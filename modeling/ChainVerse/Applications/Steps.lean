import ChainVerse.Applications.Contract

namespace ChainVerse.MentorshipApplicationsContract

variable {contract : Address} {env : Env contract} {s s' : State}

/-- An accepted call of a run, with the stores around it. -/
abbrev Step (contract : Address) := Entry State (Input contract) Reply

/-- The revision that a client reads; 0 where no draft is stored. -/
def State.revision (s : State) (key : Address × Bytes32) : Nat :=
  (s.draft key).elim 0 Draft.revision

/-- The calls that touch neither drafts nor reviews. -/
def Call.isAdministrative : Call → Bool
  | .initializeContract .. | .registerProgram .. | .setProgramActive .. | .publishForm ..
  | .publishConsentTerms .. | .recordConsent .. | .revokeConsent .. => true
  | _ => false

/-- The calls on the queue that may find nothing to do. -/
def Call.isRepeatable : Call → Bool
  | .setPriority .. | .assignReviewer .. | .declareConflict .. => true
  | _ => false

/-- Everything an accepted call can have done, with its answer. -/
inductive Effect (env : Env contract) (s : State) : Call → Reply → State → Prop where
  | configure {call : Call} {reply : Reply} {admin : Option Address}
      {program : Bytes32 → Option Program} {formVersion consentVersion : Bytes32 → Option Nat}
      {form : Bytes32 × Nat → Option MentorshipForm}
      {consentTerms : Bytes32 × Nat → Option Bytes32}
      {consent : Address × Bytes32 → Option ConsentRecord}
      (administrative : call.isAdministrative = true) :
      Effect env s call reply
        { s with
          admin := admin, program := program, formVersion := formVersion, form := form,
          consentVersion := consentVersion, consentTerms := consentTerms, consent := consent }
  | replay {applicant : Address} {programId token : Bytes32} {base : Nat}
      {updates : List AnswerPatch} {draft : Draft}
      (found : s.draft (applicant, programId) = some draft) :
      Effect env s (.autosaveDraft applicant programId base token updates)
        (.receipt ⟨draft.revision, draft.lastSavedAt, token, true⟩) s
  | save {applicant : Address} {programId token : Bytes32} {base : Nat}
      {updates : List AnswerPatch} {draft : Draft}
      (absent : s.applicationByApplicant (applicant, programId) = none)
      (current : s.revision (applicant, programId) = base) (next : draft.revision = base + 1) :
      Effect env s (.autosaveDraft applicant programId base token updates)
        (.receipt ⟨base + 1, env.timestamp, token, false⟩)
        { s with draft := Function.update s.draft (applicant, programId) (some draft) }
  | discard {applicant : Address} {programId : Bytes32} {draft : Draft}
      (found : s.draft (applicant, programId) = some draft)
      (signed : env.signers applicant = true) :
      Effect env s (.discardDraft applicant programId draft.revision) .done
        { s with draft := Function.update s.draft (applicant, programId) none }
  | submit {applicant : Address} {programId dataHash : Bytes32} {formVersion : Nat}
      {answers : List Answer} {consent : Bool} {application : Application}
      (owner : application.programId = programId) :
      Effect env s (.submitApplication applicant programId formVersion answers dataHash consent)
        (.applicationId s.nextApplicationId)
        { s with
          nextApplicationId := s.nextApplicationId + 1
          application := Function.update s.application s.nextApplicationId (some application)
          applicationByApplicant := Function.update s.applicationByApplicant (applicant, programId)
            (some s.nextApplicationId)
          review := Function.update s.review s.nextApplicationId
            (some ⟨s.nextApplicationId, .normal, .pending, none, 0, 0, none, 0, .undecided⟩)
          queue := Function.update s.queue programId (s.queue programId ++ [s.nextApplicationId])
          draft := Function.update s.draft (applicant, programId) none }
  | grant {admin reviewer : Address} {programId : Bytes32} {capacity : Nat}
      {reviewerList : Bytes32 → List Address} :
      Effect env s (.grantReviewer admin programId reviewer capacity) .done
        { s with
          reviewerList := reviewerList
          reviewer := Function.update s.reviewer (reviewer, programId) (some ⟨capacity, true⟩) }
  | revoke {admin reviewer : Address} {programId : Bytes32} {profile : ReviewerProfile} :
      Effect env s (.revokeReviewer admin programId reviewer) .done
        { s with
          reviewer := Function.update s.reviewer (reviewer, programId)
            (some { profile with active := false }) }
  | idle {call : Call} (repeatable : call.isRepeatable = true) : Effect env s call .done s
  | prioritize {caller : Address} {id : Nat} {priority : Priority} {review : ReviewState}
      {audit : Nat → List AuditEntry} (found : s.review id = some review)
      (undecided : review.status ≠ .decided) :
      Effect env s (.setPriority caller id priority) .done
        { s with
          audit := audit
          review := Function.update s.review id (some { review with priority := priority }) }
  | assign {caller reviewer : Address} {id dueAt : Nat} {expected : Option Address}
      {application : Application} {review : ReviewState} {audit : Nat → List AuditEntry}
      (queued : s.application id = some application) (found : s.review id = some review)
      (undecided : review.status ≠ .decided)
      (room : review.assignee ≠ some reviewer →
        ∃ profile, s.reviewer (reviewer, application.programId) = some profile ∧
          (reviewerWorkload env s application.programId reviewer).assignedActive < profile.capacity) :
      Effect env s (.assignReviewer caller id reviewer expected dueAt) .done
        { s with
          audit := audit
          review := Function.update s.review id (some { review with
            assignee := some reviewer, assignedAt := env.timestamp, dueAt := dueAt,
            status := .assigned }) }
  | declare {reviewer : Address} {id : Nat} {declared : Bool} {audit : Nat → List AuditEntry} :
      Effect env s (.declareConflict reviewer id declared) .done
        { s with
          audit := audit
          conflict := Function.update s.conflict (reviewer, id) declared }
  | decide {reviewer : Address} {id : Nat} {outcome : DecisionOutcome} {application : Application}
      {review : ReviewState} {audit : Nat → List AuditEntry}
      (queued : s.application id = some application)
      (active : isActiveReviewer s application.programId reviewer = true)
      (found : s.review id = some review) (undecided : review.status ≠ .decided)
      (assigned : review.assignee = some reviewer) (free : s.conflict (reviewer, id) = false) :
      Effect env s (.recordDecision reviewer id outcome) .done
        { s with
          audit := audit
          review := Function.update s.review id (some { review with
            status := .decided, decidedBy := some reviewer, decidedAt := env.timestamp,
            outcome := outcome }) }

section Inversion

theorem autosaveDraft_effect {applicant : Address} {programId token : Bytes32} {base : Nat}
    {updates : List AnswerPatch} {receipt : DraftReceipt}
    (h : autosaveDraft env s applicant programId base token updates = .ok (receipt, s')) :
    Effect env s (.autosaveDraft applicant programId base token updates) (.receipt receipt) s' := by
  unfold autosaveDraft at h
  cases hstored : s.draft (applicant, programId) with
  | none =>
    have hrevision : s.revision (applicant, programId) = 0 := by rw [State.revision, hstored]; rfl
    simp only [hstored, bind_eq_ok, orRefuse_eq_ok, refuseIf_eq_ok, exists_unit, not_not,
      pure_eq_ok, Prod.mk.injEq, Bool.not_eq_true, Option.isSome_eq_false_iff,
      Option.isNone_iff_eq_none, requireAuth_eq_ok] at h
    obtain ⟨_, habsent, _, _, rfl, _, _, _, _, _, _, rfl, rfl⟩ := h
    exact .save habsent hrevision rfl
  | some draft =>
    have hrevision : s.revision (applicant, programId) = draft.revision := by
      rw [State.revision, hstored]
      rfl
    by_cases hreplay : draft.requestToken = token
    · simp only [hstored, hreplay, if_true, bind_eq_ok, exists_unit, pure_eq_ok,
        Prod.mk.injEq] at h
      obtain ⟨_, rfl, rfl⟩ := h
      exact .replay hstored
    · simp only [hstored, hreplay, if_false, bind_eq_ok, orRefuse_eq_ok, refuseIf_eq_ok,
        exists_unit, not_not, pure_eq_ok, Prod.mk.injEq, Bool.not_eq_true,
        Option.isSome_eq_false_iff, Option.isNone_iff_eq_none, requireAuth_eq_ok,
        fitsU_eq_some] at h
      obtain ⟨_, habsent, _, _, rfl, _, _, _, _, _, ⟨_, rfl⟩, rfl, rfl⟩ := h
      exact .save habsent hrevision rfl

theorem discardDraft_ok {applicant : Address} {programId : Bytes32} {expected : Nat} :
    discardDraft env s applicant programId expected = .ok s' ↔
      ∃ draft, s.draft (applicant, programId) = some draft ∧ draft.revision = expected ∧
        env.signers applicant = true ∧
        { s with draft := Function.update s.draft (applicant, programId) none } = s' := by
  simp only [discardDraft, bind_eq_ok, orRefuse_eq_ok, refuseIf_eq_ok, exists_unit, not_not,
    requireAuth_eq_ok, pure_eq_ok]
  constructor
  · intro hparts
    obtain ⟨hsigned, draft, hfound, hrevision, hs'⟩ := hparts
    exact ⟨draft, hfound, hrevision, hsigned, hs'⟩
  · intro hparts
    obtain ⟨draft, hfound, hrevision, hsigned, hs'⟩ := hparts
    exact ⟨hsigned, draft, hfound, hrevision, hs'⟩

theorem submitApplication_effect {applicant : Address} {programId dataHash : Bytes32}
    {formVersion id : Nat} {answers : List Answer} {consent : Bool}
    (h : submitApplication env s applicant programId formVersion answers dataHash consent =
      .ok (id, s')) :
    Effect env s (.submitApplication applicant programId formVersion answers dataHash consent)
      (.applicationId id) s' := by
  simp only [submitApplication, bind_eq_ok, orRefuse_eq_ok, refuseIf_eq_ok, exists_unit,
    fitsU_eq_some, pure_eq_ok, Prod.mk.injEq] at h
  obtain ⟨_, _, _, _, _, _, _, _, _, _, _, _, _, _, _, _, _, ⟨_, rfl⟩, rfl, rfl⟩ := h
  exact .submit rfl

theorem setPriority_effect {caller : Address} {id : Nat} {priority : Priority}
    (h : setPriority env s caller id priority = .ok s') :
    Effect env s (.setPriority caller id priority) .done s' := by
  simp only [setPriority, loadApplication, loadReview, bind_eq_ok, orRefuse_eq_ok, refuseIf_eq_ok,
    exists_unit] at h
  obtain ⟨_, _, _, review, hfound, hundecided, h⟩ := h
  by_cases hsame : review.priority = priority
  · simp only [hsame, if_true, pure_eq_ok] at h
    obtain rfl := h
    exact .idle rfl
  · simp only [hsame, if_false, appendAudit, saveReview, bind_eq_ok, refuseIf_eq_ok, exists_unit,
      pure_eq_ok] at h
    obtain ⟨_, ⟨_, rfl⟩, rfl⟩ := h
    exact .prioritize hfound hundecided

theorem assignReviewer_effect {caller reviewer : Address} {id dueAt : Nat}
    {expected : Option Address}
    (h : assignReviewer env s caller id reviewer expected dueAt = .ok s') :
    Effect env s (.assignReviewer caller id reviewer expected dueAt) .done s' := by
  simp only [assignReviewer, loadApplication, loadReview, bind_eq_ok, orRefuse_eq_ok,
    refuseIf_eq_ok, exists_unit] at h
  obtain ⟨application, hqueued, _, _, review, hfound, hundecided, _, h⟩ := h
  by_cases hsame : review.assignee = some reviewer ∧ review.dueAt = dueAt
  · simp only [hsame, and_self, if_true, pure_eq_ok] at h
    obtain rfl := h
    exact .idle rfl
  · rw [if_neg hsame] at h
    have hroom : review.assignee ≠ some reviewer →
        ∃ profile, s.reviewer (reviewer, application.programId) = some profile ∧
          (reviewerWorkload env s application.programId reviewer).assignedActive <
            profile.capacity := by
      intro hnew
      simp only [hnew, ne_eq, not_false_eq_true, if_true, requireCapacity, getReviewer, bind_eq_ok,
        orRefuse_eq_ok, refuseIf_eq_ok, exists_unit, not_le] at h
      obtain ⟨⟨profile, hprofile, hroom⟩, _⟩ := h
      exact ⟨profile, hprofile, hroom⟩
    have haudit : ∃ t, appendAudit env s id caller .assigned = .ok t ∧
        saveReview t id { review with
          assignee := some reviewer, assignedAt := env.timestamp, dueAt := dueAt,
          status := .assigned } = s' := by
      by_cases hnew : review.assignee = some reviewer
      · simpa [hnew] using h
      · simp only [hnew, ne_eq, not_false_eq_true, if_true, bind_eq_ok, exists_unit,
          pure_eq_ok] at h
        exact h.2
    simp only [appendAudit, saveReview, bind_eq_ok, refuseIf_eq_ok, exists_unit, pure_eq_ok]
      at haudit
    obtain ⟨_, ⟨_, rfl⟩, rfl⟩ := haudit
    exact .assign hqueued hfound hundecided hroom

theorem declareConflict_effect {reviewer : Address} {id : Nat} {declared : Bool}
    (h : declareConflict env s reviewer id declared = .ok s') :
    Effect env s (.declareConflict reviewer id declared) .done s' := by
  simp only [declareConflict, loadApplication, loadReview, bind_eq_ok, orRefuse_eq_ok,
    refuseIf_eq_ok, exists_unit] at h
  obtain ⟨_, _, _, _, _, _, h⟩ := h
  by_cases hsame : s.conflict (reviewer, id) = declared
  · simp only [hsame, if_true, pure_eq_ok] at h
    obtain rfl := h
    exact .idle rfl
  · simp only [hsame, if_false, appendAudit, bind_eq_ok, refuseIf_eq_ok, exists_unit,
      pure_eq_ok] at h
    obtain ⟨_, ⟨_, rfl⟩, rfl⟩ := h
    exact .declare

theorem recordDecision_effect {reviewer : Address} {id : Nat} {outcome : DecisionOutcome}
    (h : recordDecision env s reviewer id outcome = .ok s') :
    Effect env s (.recordDecision reviewer id outcome) .done s' := by
  simp only [recordDecision, loadApplication, loadReview, requireReviewer, appendAudit, saveReview,
    bind_eq_ok, orRefuse_eq_ok, refuseIf_eq_ok, exists_unit, not_not, Bool.not_eq_true,
    Bool.not_eq_false, pure_eq_ok] at h
  obtain ⟨application, hqueued, ⟨hactive, _⟩, review, hfound, hundecided, _, hassigned, hfree, _,
    ⟨_, rfl⟩, rfl⟩ := h
  exact .decide hqueued hactive hfound hundecided hassigned hfree

/-- What an accepted entry point has done. -/
theorem step_effect {i : Input contract} {o : Reply}
    (h : (machine contract).step s i = .ok (o, s')) : Effect i.env s i.call o s' := by
  obtain ⟨env, call⟩ := i
  cases call with
  | initializeContract =>
    simp only [machine, execute, map_eq_ok, initializeContract, bind_eq_ok, refuseIf_eq_ok,
      exists_unit, pure_eq_ok, Prod.mk.injEq] at h
    obtain ⟨_, ⟨_, _, rfl⟩, rfl, rfl⟩ := h
    exact .configure rfl
  | registerProgram =>
    simp only [machine, execute, map_eq_ok, registerProgram, bind_eq_ok, refuseIf_eq_ok,
      exists_unit, pure_eq_ok, Prod.mk.injEq] at h
    obtain ⟨_, ⟨_, _, rfl⟩, rfl, rfl⟩ := h
    exact .configure rfl
  | setProgramActive =>
    simp only [machine, execute, map_eq_ok, setProgramActive, bind_eq_ok, orRefuse_eq_ok,
      exists_unit, pure_eq_ok, Prod.mk.injEq] at h
    obtain ⟨_, ⟨_, _, _, rfl⟩, rfl, rfl⟩ := h
    exact .configure rfl
  | publishForm =>
    simp only [machine, execute, map_eq_ok, publishForm, bind_eq_ok, orRefuse_eq_ok,
      refuseIf_eq_ok, exists_unit, pure_eq_ok, Prod.map, Prod.mk.injEq, id] at h
    obtain ⟨_, ⟨_, _, _, _, _, _, rfl⟩, rfl, rfl⟩ := h
    exact .configure rfl
  | publishConsentTerms =>
    simp only [machine, execute, map_eq_ok, publishConsentTerms, bind_eq_ok, orRefuse_eq_ok,
      refuseIf_eq_ok, exists_unit, pure_eq_ok, Prod.map, Prod.mk.injEq, id] at h
    obtain ⟨_, ⟨_, _, _, _, _, rfl⟩, rfl, rfl⟩ := h
    exact .configure rfl
  | recordConsent =>
    simp only [machine, execute, map_eq_ok, recordConsent, bind_eq_ok, orRefuse_eq_ok,
      exists_unit, pure_eq_ok, Prod.map, Prod.mk.injEq, id] at h
    obtain ⟨_, ⟨_, _, _, rfl⟩, rfl, rfl⟩ := h
    exact .configure rfl
  | revokeConsent =>
    simp only [machine, execute, map_eq_ok, revokeConsent, bind_eq_ok, orRefuse_eq_ok,
      exists_unit, pure_eq_ok, Prod.mk.injEq] at h
    obtain ⟨_, ⟨_, _, _, rfl⟩, rfl, rfl⟩ := h
    exact .configure rfl
  | autosaveDraft =>
    simp only [machine, execute, map_eq_ok, Prod.map, Prod.mk.injEq, id] at h
    obtain ⟨⟨_, _⟩, hsave, rfl, rfl⟩ := h
    exact autosaveDraft_effect hsave
  | discardDraft =>
    simp only [machine, execute, map_eq_ok, discardDraft_ok, Prod.mk.injEq] at h
    obtain ⟨_, ⟨draft, hfound, rfl, hsigned, rfl⟩, rfl, rfl⟩ := h
    exact .discard hfound hsigned
  | submitApplication =>
    simp only [machine, execute, map_eq_ok, Prod.map, Prod.mk.injEq, id] at h
    obtain ⟨⟨_, _⟩, hsubmit, rfl, rfl⟩ := h
    exact submitApplication_effect hsubmit
  | grantReviewer =>
    simp only [machine, execute, map_eq_ok, grantReviewer, bind_eq_ok, refuseIf_eq_ok, exists_unit,
      pure_eq_ok, Prod.mk.injEq] at h
    obtain ⟨_, ⟨_, _, _, _, _, rfl⟩, rfl, rfl⟩ := h
    exact .grant
  | revokeReviewer =>
    simp only [machine, execute, map_eq_ok, revokeReviewer, bind_eq_ok, refuseIf_eq_ok,
      exists_unit, pure_eq_ok, Prod.mk.injEq] at h
    obtain ⟨_, ⟨_, _, _, _, rfl⟩, rfl, rfl⟩ := h
    exact .revoke
  | setPriority =>
    simp only [machine, execute, map_eq_ok, Prod.mk.injEq] at h
    obtain ⟨_, hpriority, rfl, rfl⟩ := h
    exact setPriority_effect hpriority
  | assignReviewer =>
    simp only [machine, execute, map_eq_ok, Prod.mk.injEq] at h
    obtain ⟨_, hassign, rfl, rfl⟩ := h
    exact assignReviewer_effect hassign
  | declareConflict =>
    simp only [machine, execute, map_eq_ok, Prod.mk.injEq] at h
    obtain ⟨_, hdeclare, rfl, rfl⟩ := h
    exact declareConflict_effect hdeclare
  | recordDecision =>
    simp only [machine, execute, map_eq_ok, Prod.mk.injEq] at h
    obtain ⟨_, hdecide, rfl, rfl⟩ := h
    exact recordDecision_effect hdecide

end Inversion

end ChainVerse.MentorshipApplicationsContract
