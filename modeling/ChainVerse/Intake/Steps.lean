import ChainVerse.Intake.Contract

namespace ChainVerse.ScholarshipApplications

variable {contract : Address} {env : Env contract} {s s' : State} {call : Call} {o : Answer}

/-- An accepted call of a run, with the stores around it. -/
abbrev Step (contract : Address) := Entry State (Input contract) Answer

/-- The program and the commitment to the application that a call finds a reviewer for. -/
def Call.assigns : Call → Option (Bytes32 × Bytes32)
  | .assignReviewer _ programId applicationCommitment _ => some (programId, applicationCommitment)
  | _ => none

/-- The request that a call approves. -/
def Call.approves : Call → Option Nat
  | .processPrivacyRequest _ requestId true _ _ => some requestId
  | _ => none

/-- The number of assignments on a reviewer's profile. -/
def State.load (s : State) (reviewer : Address) : Nat :=
  (s.reviewer reviewer).elim 0 ReviewerProfile.currentAssignments

/-- What an assignment finds of the reviewer that is chosen. -/
structure Eligible (s : State) (key : Bytes32 × Bytes32) (reviewer : Address)
    (profile : ReviewerProfile) : Prop where
  pooled : reviewer ∈ s.reviewerPool key.1
  registered : s.reviewer reviewer = some profile
  active : profile.active = true
  below : profile.currentAssignments < profile.maxAssignments
  unconflicted : s.conflict (reviewer, key) = false

/-- The applicant and the program that a request is about. -/
def PrivacyRequest.subject (request : PrivacyRequest) : Address × Bytes32 :=
  (request.applicant, request.programId)

def Application.subject (application : Application) : Address × Bytes32 :=
  (application.applicant, application.programId)

/-- The applications once a request is approved. -/
def PrivacyRequest.applied (request : PrivacyRequest)
    (application : Address × Bytes32 → Option Application) :
    Address × Bytes32 → Option Application :=
  match application request.subject with
  | some app => Function.update application request.subject
      (some { app with dataHash := request.outcome })
  | none => application

/-- What the processing of a request leaves of it. -/
structure SameRequest (request decided : PrivacyRequest) : Prop where
  id : decided.id = request.id
  subject : decided.subject = request.subject
  requestType : decided.requestType = request.requestType
  targetDataHash : decided.targetDataHash = request.targetDataHash
  processed : decided.status ≠ .pending

/-- The reviewers and their assignments are not touched. -/
structure SameRoster (s s' : State) : Prop where
  reviewer : s'.reviewer = s.reviewer
  assignment : s'.assignment = s.assignment

/-- The applications and the requests about them are not touched. -/
structure SameRecords (s s' : State) : Prop where
  application : s'.application = s.application
  request : s'.request = s.request
  requestCounter : s'.requestCounter = s.requestCounter

/-- What an accepted call does to the pools and their cursors: it sets a pool, moves a cursor within its
pool, or leaves them alone. -/
inductive Pooling (s : State) : Call → State → Prop where
  | kept {call : Call} {s' : State} (pools : s'.reviewerPool = s.reviewerPool)
      (cursors : s'.roundRobinCursor = s.roundRobinCursor) : Pooling s call s'
  | set {admin : Address} {programId : Bytes32} {reviewers : List Address} {s' : State}
      (pools : s'.reviewerPool = Function.update s.reviewerPool programId reviewers)
      (cursors : s'.roundRobinCursor = s.roundRobinCursor) :
      Pooling s (.setReviewerPool admin programId reviewers) s'
  | moved {call : Call} {s' : State} {programId : Bytes32} {following : Nat}
      (pools : s'.reviewerPool = s.reviewerPool)
      (cursors : s'.roundRobinCursor = Function.update s.roundRobinCursor programId
        (following % max (s.reviewerPool programId).length 1)) : Pooling s call s'

/-- Everything that an accepted call can have done to the reviewers, the applications and the requests. -/
inductive Effect (s : State) : Call → Answer → State → Prop where
  | quiet {call : Call} {o : Answer} {s' : State} (unassigned : call.assigns = none)
      (unapproved : call.approves = none) (roster : SameRoster s s') (records : SameRecords s s')
      (pooling : Pooling s call s') : Effect s call o s'
  | enrolled {call : Call} {o : Answer} {s' : State} {reviewer : Address} {profile : ReviewerProfile}
      (unassigned : call.assigns = none) (unapproved : call.approves = none)
      (carried : profile.currentAssignments = s.load reviewer)
      (reviewers : s'.reviewer = Function.update s.reviewer reviewer (some profile))
      (assignments : s'.assignment = s.assignment) (records : SameRecords s s')
      (pooling : Pooling s call s')
      (limited : (∃ admin, call = .registerReviewer admin reviewer profile.maxAssignments) ∨
        ∃ old, s.reviewer reviewer = some old ∧ profile.maxAssignments = old.maxAssignments) :
      Effect s call o s'
  | assigned {call : Call} {s' : State} {key : Bytes32 × Bytes32} {chosen : Address}
      {profile : ReviewerProfile} (assigns : call.assigns = some key)
      (unapproved : call.approves = none) (unassigned : s.assignment key = none)
      (eligible : Eligible s key chosen profile)
      (reviewers : s'.reviewer = Function.update s.reviewer chosen
        (some { profile with currentAssignments := profile.currentAssignments + 1 }))
      (assignments : s'.assignment = Function.update s.assignment key (some chosen))
      (records : SameRecords s s') (pooling : Pooling s call s') : Effect s call (.reviewer chosen) s'
  | submitted {call : Call} {o : Answer} {s' : State} {application : Application}
      (unassigned : call.assigns = none) (unapproved : call.approves = none) (roster : SameRoster s s')
      (first : s.application application.subject = none)
      (applications : s'.application =
        Function.update s.application application.subject (some application))
      (requests : s'.request = s.request) (counter : s'.requestCounter = s.requestCounter)
      (pooling : Pooling s call s') : Effect s call o s'
  | filed {call : Call} {s' : State} {request : PrivacyRequest} (unassigned : call.assigns = none)
      (unapproved : call.approves = none) (roster : SameRoster s s')
      (next : request.id = s.requestCounter + 1) (pending : request.status = .pending)
      (applied : s.application request.subject ≠ none) (applications : s'.application = s.application)
      (requests : s'.request = Function.update s.request request.id (some request))
      (counter : s'.requestCounter = request.id) (pooling : Pooling s call s') :
      Effect s call (.requestId request.id) s'
  | denied {call : Call} {o : Answer} {s' : State} {id : Nat} {request decided : PrivacyRequest}
      (unassigned : call.assigns = none) (unapproved : call.approves = none) (roster : SameRoster s s')
      (found : s.request id = some request) (pending : request.status = .pending)
      (same : SameRequest request decided) (applications : s'.application = s.application)
      (requests : s'.request = Function.update s.request id (some decided))
      (counter : s'.requestCounter = s.requestCounter) (pooling : Pooling s call s') :
      Effect s call o s'
  | approved {call : Call} {o : Answer} {s' : State} {id : Nat} {request decided : PrivacyRequest}
      (unassigned : call.assigns = none) (approves : call.approves = some id) (roster : SameRoster s s')
      (found : s.request id = some request) (pending : request.status = .pending)
      (same : SameRequest request decided) (applications : s'.application = request.applied s.application)
      (requests : s'.request = Function.update s.request id (some decided))
      (counter : s'.requestCounter = s.requestCounter) (pooling : Pooling s call s') :
      Effect s call o s'

section Inversion

/-- The loop chooses from the pool, and only who is eligible. -/
theorem chooseReviewer_spec {eligible : Address → Bool} {pool : List Address} {startOffset : Nat}
    {steps : List Nat} {chosen : Address}
    (h : chooseReviewer eligible pool startOffset steps = .ok (some chosen)) :
    chosen ∈ pool ∧ eligible chosen = true := by
  induction steps with
  | nil =>
    simp only [chooseReviewer, pure_eq_ok] at h
    cases h
  | cons step steps ih =>
    simp only [chooseReviewer, bind_eq_ok, orRefuse_eq_ok] at h
    obtain ⟨position, _, candidate, hcandidate, h⟩ := h
    split_ifs at h with heligible
    · cases h
      exact ⟨List.mem_of_getElem? hcandidate, heligible⟩
    · exact ih h

theorem isEligible_spec {programId applicationCommitment : Bytes32} {reviewer : Address}
    (h : isEligible s programId applicationCommitment reviewer = true)
    (hpooled : reviewer ∈ s.reviewerPool programId) :
    ∃ profile, Eligible s (programId, applicationCommitment) reviewer profile := by
  unfold isEligible at h
  split at h
  · cases h
  · next profile hprofile =>
    split_ifs at h with hunfit
    obtain ⟨hactive, hbelow⟩ := not_or.mp hunfit
    exact ⟨profile, hpooled, hprofile, Bool.of_not_eq_false hactive, Nat.lt_of_not_le hbelow,
      by simpa using h⟩

theorem assignReviewer_effect {admin chosen : Address} {programId applicationCommitment : Bytes32}
    {mode : AssignmentMode} (hassigns : call.assigns = some (programId, applicationCommitment))
    (hunapproved : call.approves = none)
    (h : assignReviewer env s admin programId applicationCommitment mode = .ok (chosen, s')) :
    Effect s call (.reviewer chosen) s' := by
  simp only [assignReviewer, bind_eq_ok, exists_unit, orRefuse_eq_ok, refuseIf_eq_ok, not_not,
    fitsU_eq_some] at h
  obtain ⟨_, hunassigned, _, found, hfound, picked, rfl, profile, hprofile, _, ⟨_, rfl⟩, h⟩ := h
  obtain ⟨hpooled, hfit⟩ := chooseReviewer_spec hfound
  obtain ⟨known, heligible⟩ := isEligible_spec hfit hpooled
  obtain rfl : known = profile := Option.some.inj (heligible.registered.symm.trans hprofile)
  -- The cursor is moved or not, the profile and the assignment are written alike.
  cases mode with
  | roundRobin =>
    simp only [bind_eq_ok, pure_eq_ok] at h
    obtain ⟨_, _, heq⟩ := h
    cases heq
    exact .assigned hassigns hunapproved hunassigned heligible rfl rfl ⟨rfl, rfl, rfl⟩ (.moved rfl rfl)
  | loadBalanced =>
    simp only [bind_eq_ok, pure_eq_ok] at h
    obtain ⟨_, _, heq⟩ := h
    cases heq
    exact .assigned hassigns hunapproved hunassigned heligible rfl rfl ⟨rfl, rfl, rfl⟩ (.moved rfl rfl)
  | seededRandom =>
    simp only [pure_eq_ok] at h
    cases h
    exact .assigned hassigns hunapproved hunassigned heligible rfl rfl ⟨rfl, rfl, rfl⟩ (.kept rfl rfl)

theorem fileRequest_effect {applicant : Address} {programId targetDataHash : Bytes32}
    {requestType : PrivacyRequestType} {id : Nat} (hunassigned : call.assigns = none)
    (hunapproved : call.approves = none)
    (h : fileRequest env s applicant programId requestType targetDataHash = .ok (id, s')) :
    Effect s call (.requestId id) s' := by
  simp only [fileRequest, bind_eq_ok, exists_unit, orRefuse_eq_ok, refuseIf_eq_ok, fitsU_eq_some,
    pure_eq_ok] at h
  obtain ⟨_, happlied, _, ⟨_, rfl⟩, heq⟩ := h
  cases heq
  let request : PrivacyRequest := ⟨s.requestCounter + 1, applicant, programId, requestType,
    env.timestamp, targetDataHash, .pending, 0, 0, false⟩
  show Effect s call (.requestId request.id) _
  exact .filed hunassigned hunapproved ⟨rfl, rfl⟩ rfl rfl happlied rfl rfl rfl (.kept rfl rfl)

theorem processPrivacyRequest_effect {admin : Address} {requestId : Nat} {approve downstream : Bool}
    {reason : Bytes32} (hunassigned : call.assigns = none)
    (happroves : call.approves = if approve = true then some requestId else none)
    (h : processPrivacyRequest env s admin requestId approve reason downstream = .ok s') :
    Effect s call o s' := by
  simp only [processPrivacyRequest, bind_eq_ok, exists_unit, orRefuse_eq_ok, refuseIf_eq_ok,
    not_not, pure_eq_ok] at h
  obtain ⟨_, request, hfound, hpending, rfl⟩ := h
  cases approve with
  | false =>
    let decided : PrivacyRequest := { request with
      status := .denied
      denialReasonHash := reason
      processedAt := env.timestamp
      downstreamAddressed := downstream }
    have hsame : SameRequest request decided := by
      refine ⟨rfl, rfl, rfl, rfl, ?_⟩
      show PrivacyRequestStatus.denied ≠ .pending
      decide
    exact .denied hunassigned happroves ⟨rfl, rfl⟩ hfound hpending hsame rfl rfl rfl (.kept rfl rfl)
  | true =>
    let decided : PrivacyRequest := { request with
      status := .approved
      denialReasonHash := 0
      processedAt := env.timestamp
      downstreamAddressed := downstream }
    have hsame : SameRequest request decided := by
      refine ⟨rfl, rfl, rfl, rfl, ?_⟩
      show PrivacyRequestStatus.approved ≠ .pending
      decide
    refine .approved hunassigned happroves ⟨rfl, rfl⟩ hfound hpending hsame ?_ rfl rfl (.kept rfl rfl)
    unfold PrivacyRequest.applied PrivacyRequest.subject
    rcases s.application (request.applicant, request.programId) with _ | app
    · rfl
    · rfl

theorem submitApplication_effect {applicant : Address} {programId dataHash : Bytes32}
    {formVersion : Nat} (hunassigned : call.assigns = none) (hunapproved : call.approves = none)
    (h : submitApplication env s applicant programId dataHash formVersion = .ok s') :
    Effect s call o s' := by
  simp only [submitApplication, bind_eq_ok, exists_unit, orRefuse_eq_ok, refuseIf_eq_ok,
    not_not, pure_eq_ok] at h
  obtain ⟨_, program, _, _, _, _, _, _, consent, _, _, _, hfirst, rfl⟩ := h
  let application : Application := ⟨applicant, programId, .submitted, env.timestamp, dataHash,
    formVersion, consent.version⟩
  exact @Effect.submitted s call o _ application hunassigned hunapproved ⟨rfl, rfl⟩ hfirst rfl rfl rfl
    (.kept rfl rfl)

/-- Every accepted call does one of the effects. -/
theorem step_effect {i : Input contract} (h : (machine contract).step s i = .ok (o, s')) :
    Effect s i.call o s' := by
  obtain ⟨env, call⟩ := i
  simp only [machine] at h
  cases call with
  | initializeContract =>
    simp only [execute, initializeContract, map_eq_ok, bind_eq_ok, pure_eq_ok, Prod.mk.injEq] at h
    obtain ⟨_, ⟨_, _, _, _, rfl⟩, _, rfl⟩ := h
    exact .quiet rfl rfl ⟨rfl, rfl⟩ ⟨rfl, rfl, rfl⟩ (.kept rfl rfl)
  | registerProgram =>
    simp only [execute, registerProgram, map_eq_ok, bind_eq_ok, pure_eq_ok, Prod.mk.injEq] at h
    obtain ⟨_, ⟨_, _, _, _, rfl⟩, _, rfl⟩ := h
    exact .quiet rfl rfl ⟨rfl, rfl⟩ ⟨rfl, rfl, rfl⟩ (.kept rfl rfl)
  | setProgramActive =>
    simp only [execute, setProgramActive, map_eq_ok, bind_eq_ok, pure_eq_ok] at h
    obtain ⟨_, ⟨_, _, _, _, _, _, _, _, rfl⟩, heq⟩ := h
    cases heq
    exact .quiet rfl rfl ⟨rfl, rfl⟩ ⟨rfl, rfl, rfl⟩ (.kept rfl rfl)
  | publishFormSchema =>
    simp only [execute, publishFormSchema, map_eq_ok, bind_eq_ok, pure_eq_ok] at h
    obtain ⟨_, ⟨_, _, _, _, _, _, rfl⟩, heq⟩ := h
    cases heq
    exact .quiet rfl rfl ⟨rfl, rfl⟩ ⟨rfl, rfl, rfl⟩ (.kept rfl rfl)
  | publishConsentTerms =>
    simp only [execute, publishConsentTerms, map_eq_ok, bind_eq_ok, pure_eq_ok] at h
    obtain ⟨_, ⟨_, _, _, _, _, _, rfl⟩, heq⟩ := h
    cases heq
    exact .quiet rfl rfl ⟨rfl, rfl⟩ ⟨rfl, rfl, rfl⟩ (.kept rfl rfl)
  | recordConsent =>
    simp only [execute, recordConsent, map_eq_ok, bind_eq_ok, pure_eq_ok] at h
    obtain ⟨_, ⟨_, _, _, _, rfl⟩, heq⟩ := h
    cases heq
    exact .quiet rfl rfl ⟨rfl, rfl⟩ ⟨rfl, rfl, rfl⟩ (.kept rfl rfl)
  | revokeConsent =>
    simp only [execute, revokeConsent, map_eq_ok, bind_eq_ok, pure_eq_ok, Prod.mk.injEq] at h
    obtain ⟨_, ⟨_, _, _, _, rfl⟩, _, rfl⟩ := h
    exact .quiet rfl rfl ⟨rfl, rfl⟩ ⟨rfl, rfl, rfl⟩ (.kept rfl rfl)
  | submitApplication =>
    simp only [execute, map_eq_ok, Prod.mk.injEq] at h
    obtain ⟨_, hsubmit, _, rfl⟩ := h
    exact submitApplication_effect rfl rfl hsubmit
  | registerReviewer =>
    simp only [execute, registerReviewer, map_eq_ok, bind_eq_ok, pure_eq_ok, Prod.mk.injEq] at h
    obtain ⟨_, ⟨_, _, rfl⟩, _, rfl⟩ := h
    exact .enrolled rfl rfl rfl rfl rfl ⟨rfl, rfl, rfl⟩ (.kept rfl rfl) (.inl ⟨_, rfl⟩)
  | setReviewerActive _ reviewer active =>
    simp only [execute, setReviewerActive, map_eq_ok, bind_eq_ok, orRefuse_eq_ok, pure_eq_ok,
      Prod.mk.injEq] at h
    obtain ⟨_, ⟨_, _, profile, hprofile, rfl⟩, _, rfl⟩ := h
    have hcarried : profile.currentAssignments = s.load reviewer := by
      unfold State.load
      rw [hprofile]
      rfl
    let written : ReviewerProfile := { profile with active := active }
    exact @Effect.enrolled s _ _ _ reviewer written rfl rfl hcarried rfl rfl ⟨rfl, rfl, rfl⟩
      (.kept rfl rfl) (.inr ⟨profile, hprofile, rfl⟩)
  | setReviewerPool =>
    simp only [execute, setReviewerPool, map_eq_ok, bind_eq_ok, pure_eq_ok, Prod.mk.injEq] at h
    obtain ⟨_, ⟨_, _, rfl⟩, _, rfl⟩ := h
    exact .quiet rfl rfl ⟨rfl, rfl⟩ ⟨rfl, rfl, rfl⟩ (.set rfl rfl)
  | setReviewMode =>
    simp only [execute, setReviewMode, map_eq_ok, bind_eq_ok, pure_eq_ok, Prod.mk.injEq] at h
    obtain ⟨_, ⟨_, _, rfl⟩, _, rfl⟩ := h
    exact .quiet rfl rfl ⟨rfl, rfl⟩ ⟨rfl, rfl, rfl⟩ (.kept rfl rfl)
  | declareConflict =>
    simp only [execute, declareConflict, map_eq_ok, bind_eq_ok, pure_eq_ok, Prod.mk.injEq] at h
    obtain ⟨_, ⟨_, _, rfl⟩, _, rfl⟩ := h
    exact .quiet rfl rfl ⟨rfl, rfl⟩ ⟨rfl, rfl, rfl⟩ (.kept rfl rfl)
  | assignReviewer =>
    simp only [execute, map_eq_ok] at h
    obtain ⟨⟨chosen, t⟩, hassign, heq⟩ := h
    cases heq
    exact assignReviewer_effect rfl rfl hassign
  | requestCorrection =>
    simp only [execute, map_eq_ok] at h
    obtain ⟨⟨id, t⟩, hfile, heq⟩ := h
    cases heq
    exact fileRequest_effect rfl rfl hfile
  | requestErasure =>
    simp only [execute, map_eq_ok] at h
    obtain ⟨⟨id, t⟩, hfile, heq⟩ := h
    cases heq
    exact fileRequest_effect rfl rfl hfile
  | requestDataExport =>
    simp only [execute, requestDataExport, map_eq_ok, bind_eq_ok, pure_eq_ok] at h
    obtain ⟨_, ⟨_, _, _, _, _, _, _, _, rfl⟩, heq⟩ := h
    cases heq
    exact .quiet rfl rfl ⟨rfl, rfl⟩ ⟨rfl, rfl, rfl⟩ (.kept rfl rfl)
  | cancelDataExport =>
    simp only [execute, cancelDataExport, map_eq_ok, bind_eq_ok, pure_eq_ok, Prod.mk.injEq] at h
    obtain ⟨_, ⟨_, _, _, _, _, _, _, _, rfl⟩, _, rfl⟩ := h
    exact .quiet rfl rfl ⟨rfl, rfl⟩ ⟨rfl, rfl, rfl⟩ (.kept rfl rfl)
  | completeDataExport =>
    simp only [execute, completeDataExport, map_eq_ok, bind_eq_ok, pure_eq_ok, Prod.mk.injEq] at h
    obtain ⟨_, ⟨_, _, _, _, _, _, _, _, rfl⟩, _, rfl⟩ := h
    exact .quiet rfl rfl ⟨rfl, rfl⟩ ⟨rfl, rfl, rfl⟩ (.kept rfl rfl)
  | processPrivacyRequest _ requestId approve =>
    simp only [execute, map_eq_ok, Prod.mk.injEq] at h
    obtain ⟨_, hprocess, _, rfl⟩ := h
    refine processPrivacyRequest_effect rfl ?_ hprocess
    cases approve
    · rfl
    · rfl

end Inversion

end ChainVerse.ScholarshipApplications
