import ChainVerse.Rematch.Contract

namespace ChainVerse.MentorshipRematch

variable {contract : Address} {env : Env contract} {s s' : State} {o : Answer}

/-- An accepted call of a run, with the stores around it. -/
abbrev Step (contract : Address) := Entry State (Input contract) Answer

/-- The request and the successor that a call proposes, with its terms. -/
def Call.proposes : Call → Option (Bytes32 × Address × Bytes32)
  | .proposeSuccessor _ requestId successor proposalHash => some (requestId, successor, proposalHash)
  | _ => none

/-- The matches and the requests are the same; no registrar comes before the admin. -/
structure Same (s s' : State) : Prop where
  admin : s'.admin = s.admin
  registrar : s.admin = none → s'.registrar = s.registrar
  matchRecord : s'.matchRecord = s.matchRecord
  request : s'.request = s.request
  matchRequests : s'.matchRequests = s.matchRequests
  stats : s'.stats = s.stats

/-- A request and its match. -/
structure Found (s : State) (requestId : Bytes32) (request : RematchRequest) (record : MatchRecord) :
    Prop where
  requestFound : s.request requestId = some request
  recordFound : s.matchRecord request.matchId = some record

/-- A request's status after the mentee's approval. -/
def RematchRequest.approved (request : RematchRequest) (now : Nat) : RematchRequest :=
  { request with
    successorApprovedAt := now
    status := .approvedForClosure }

def RematchRequest.finished (request : RematchRequest) (status : RequestStatus) (now : Nat) :
    RematchRequest :=
  { request with
    status := status
    closedAt := now }

def RematchRequest.proposed (request : RematchRequest) (successor : Address) (proposalHash : Bytes32)
    (now expiresAt : Nat) : RematchRequest :=
  { request with
    successor := some successor
    proposalHash := proposalHash
    proposedAt := now
    proposalExpiresAt := expiresAt
    status := .successorProposed }

def MatchRecord.closed (record : MatchRecord) (now : Nat) : MatchRecord :=
  { record with
    status := .closed
    closedAt := now }

def MatchRecord.superseded (record : MatchRecord) (successorMatchId : Bytes32) (now : Nat) :
    MatchRecord :=
  { record with
    status := .superseded
    successorMatchId := some successorMatchId
    closedAt := now }

/-- The match that takes another one's place. -/
def MatchRecord.successor (record : MatchRecord) (successorMatchId : Bytes32) (mentor : Address)
    (now : Nat) : MatchRecord where
  matchId := successorMatchId
  agreementId := record.agreementId
  mentor := mentor
  mentee := record.mentee
  status := .active
  successorMatchId := none
  supersededMatchId := some record.matchId
  createdAt := now
  closedAt := 0

/-- What stands after a successor is applied. -/
def applied (s : State) (request : RematchRequest) (record : MatchRecord) (successorMatchId : Bytes32)
    (mentor : Address) (now : Nat) : State :=
  let s := putMatch s (record.successor successorMatchId mentor now)
  let s := putMatch s (record.superseded successorMatchId now)
  bumpStats (putRequest s (request.finished .superseded now)) fun stats => { stats.finish with
    totalMatches := saturatingSucc stats.totalMatches
    supersededMatches := saturatingSucc stats.supersededMatches }

/-- What stands after a request is made. -/
def requested (s : State) (request : RematchRequest) : State :=
  let s := { putRequest s request with
    matchRequests := Function.update s.matchRequests request.matchId
      (s.matchRequests request.matchId ++ [request.requestId]) }
  bumpStats s fun stats => { stats with openRequests := saturatingSucc stats.openRequests }

/-- Everything that an accepted call can do to the matches and the requests. -/
inductive Effect (env : Env contract) (s : State) : Call → State → Prop where
  | start {s' : State} (admin : Address) (window : Nat) (idle : s.admin = none)
      (matchRecord : s'.matchRecord = s.matchRecord) (request : s'.request = s.request)
      (matchRequests : s'.matchRequests = s.matchRequests) (stats : s'.stats = .zero)
      (started : s'.admin ≠ none) : Effect env s (.initializeContract admin window) s'
  | quiet {call : Call} {s' : State} (unproposed : call.proposes = none) (same : Same s s') :
      Effect env s call s'
  | register {call : Call} (record : MatchRecord) (unproposed : call.proposes = none)
      (registrar : s.registrar ≠ none) (fresh : s.matchRecord record.matchId = none)
      (active : record.status = .active)
      (unlinked : record.successorMatchId = none ∧ record.supersededMatchId = none) :
      Effect env s call (bumpStats (putMatch s record) fun stats =>
        { stats with totalMatches := saturatingSucc stats.totalMatches })
  | request {call : Call} (request : RematchRequest) (record : MatchRecord)
      (unproposed : call.proposes = none) (fresh : s.request request.requestId = none)
      (found : s.matchRecord request.matchId = some record) (active : record.status = .active)
      (room : (s.matchRequests request.matchId).length < maxRequestsPerMatch)
      (clear : ∀ id ∈ s.matchRequests request.matchId, ∃ other, s.request id = some other ∧
        other.status.isPending = false)
      (opened : request.status = .opened) : Effect env s call (requested s request)
  | review {call : Call} (id : Bytes32) (request : RematchRequest) (unproposed : call.proposes = none)
      (found : s.request id = some request) (opened : request.status = .opened) :
      Effect env s call (putRequest s { request with
        status := .inReview
        reviewStartedAt := env.timestamp })
  | reject {call : Call} (id : Bytes32) (request : RematchRequest) (unproposed : call.proposes = none)
      (found : s.request id = some request) (pending : request.status.isPending = true) :
      Effect env s call (bumpStats (putRequest s { request with status := .rejected })
        RematchStats.finish)
  | propose (caller : Address) (id : Bytes32) (successor : Address) (proposalHash : Bytes32)
      (request : RematchRequest) (expiresAt : Nat) (found : s.request id = some request)
      (pending : request.status = .inReview ∨ request.status = .successorProposed) :
      Effect env s (.proposeSuccessor caller id successor proposalHash)
        (putRequest s (request.proposed successor proposalHash env.timestamp expiresAt))
  | approve (id : Bytes32) (request : RematchRequest) (record : MatchRecord)
      (found : Found s id request record) (signed : env.signers record.mentee = true)
      (proposed : request.status = .successorProposed)
      (live : env.timestamp ≤ request.proposalExpiresAt) :
      Effect env s (.approveSuccessor record.mentee id) (putRequest s (request.approved env.timestamp))
  | close {call : Call} (id : Bytes32) (request : RematchRequest) (record : MatchRecord)
      (unproposed : call.proposes = none) (found : Found s id request record)
      (pending : request.status.isPending = true) :
      Effect env s call (bumpStats
        (putRequest (putMatch s (record.closed env.timestamp)) (request.finished .closed env.timestamp))
        RematchStats.finish)
  | apply (caller : Address) (id successorMatchId : Bytes32) (request : RematchRequest)
      (record : MatchRecord) (mentor : Address) (found : Found s id request record)
      (approved : request.status = .approvedForClosure) (successor : request.successor = some mentor)
      (unflagged : (s.caseFlags record.matchId).anyOpen = false)
      (fresh : s.matchRecord successorMatchId = none) :
      Effect env s (.applySuccessor caller id successorMatchId)
        (applied s request record successorMatchId mentor env.timestamp)

section Effects

theorem refusePending_ok {ids : List Bytes32} (h : refusePending s ids = .ok ()) :
    ∀ id ∈ ids, ∃ other, s.request id = some other ∧ other.status.isPending = false := by
  induction ids with
  | nil =>
    intro id hid
    cases hid
  | cons first rest ih =>
    simp only [refusePending, bind_eq_ok, orRefuse_eq_ok, refuseIf_eq_ok, exists_unit,
      Bool.not_eq_true] at h
    obtain ⟨other, hfound, hsettled, hrest⟩ := h
    intro id hid
    rcases List.mem_cons.mp hid with rfl | hlater
    · exact ⟨other, hfound, hsettled⟩
    · exact ih hrest id hlater

theorem requestRematch_effect {call : Call} {caller : Address} {matchId requestId : Bytes32}
    {reason : RematchReason} {reasonHash closurePlanHash : Bytes32} (hcall : call.proposes = none)
    (h : requestRematch env s caller matchId requestId reason reasonHash closurePlanHash = .ok s') :
    Effect env s call s' := by
  simp only [requestRematch, loadMatch, bind_eq_ok, orRefuse_eq_ok, refuseIf_eq_ok, exists_unit,
    not_not] at h
  obtain ⟨record, hfound, hactive, _, _, _, h⟩ := h
  rcases hrequest : s.request requestId with _ | existing
  · simp only [hrequest, openRequest, bind_eq_ok, refuseIf_eq_ok, exists_unit, pure_eq_ok, not_le] at h
    obtain ⟨hroom, hclear, rfl⟩ := h
    exact .request _ record hcall hrequest hfound hactive hroom (refusePending_ok hclear) rfl
  · simp only [hrequest, bind_eq_ok, refuseIf_eq_ok, exists_unit, pure_eq_ok] at h
    obtain ⟨_, rfl⟩ := h
    exact .quiet hcall ⟨rfl, fun _ => rfl, rfl, rfl, rfl, rfl⟩

theorem approveSuccessor_ok {caller : Address} {id : Bytes32}
    (h : approveSuccessor env s caller id = .ok s') :
    ∃ request record, Found s id request record ∧ caller = record.mentee ∧
      env.signers record.mentee = true ∧ (s' = s ∧ request.status = .approvedForClosure ∨
        request.status = .successorProposed ∧ env.timestamp ≤ request.proposalExpiresAt ∧
          s' = putRequest s (request.approved env.timestamp)) := by
  simp only [approveSuccessor, loadRequest, loadMatch, bind_eq_ok, orRefuse_eq_ok, refuseIf_eq_ok,
    requireAuth_eq_ok, exists_unit, not_not] at h
  obtain ⟨request, hrequest, record, hrecord, rfl, hsigned, h⟩ := h
  refine ⟨request, record, ⟨hrequest, hrecord⟩, rfl, hsigned, ?_⟩
  split_ifs at h with happroved
  · exact .inl ⟨(pure_eq_ok.mp h).symm, happroved⟩
  · simp only [bind_eq_ok, refuseIf_eq_ok, exists_unit, pure_eq_ok, not_not, not_lt] at h
    obtain ⟨hproposed, hlive, rfl⟩ := h
    exact .inr ⟨hproposed, hlive, rfl⟩

/-- What an accepted call does to the matches and the requests. -/
theorem step_effect {i : Input contract} (h : (machine contract).step s i = .ok (o, s')) :
    Effect i.env s i.call s' := by
  obtain ⟨env, call⟩ := i
  cases call with
  | initializeContract admin window =>
    simp only [machine, execute, initializeContract, map_eq_ok, bind_eq_ok, exists_unit, pure_eq_ok,
      refuseIf_eq_ok, Prod.mk.injEq, not_not] at h
    obtain ⟨_, ⟨hidle, _, _, rfl⟩, rfl, rfl⟩ := h
    exact .start admin window hidle rfl rfl rfl rfl (Option.some_ne_none admin)
  | registerCoordinator =>
    simp only [machine, execute, registerCoordinator, map_eq_ok, bind_eq_ok, exists_unit,
      Prod.mk.injEq] at h
    obtain ⟨_, ⟨_, h⟩, rfl, rfl⟩ := h
    split_ifs at h
    · rw [← pure_eq_ok.mp h]
      exact .quiet rfl ⟨rfl, fun _ => rfl, rfl, rfl, rfl, rfl⟩
    · simp only [bind_eq_ok, exists_unit, pure_eq_ok] at h
      obtain ⟨_, rfl⟩ := h
      exact .quiet rfl ⟨rfl, fun _ => rfl, rfl, rfl, rfl, rfl⟩
  | revokeCoordinator =>
    simp only [machine, execute, revokeCoordinator, map_eq_ok, bind_eq_ok, exists_unit, pure_eq_ok,
      Prod.mk.injEq] at h
    obtain ⟨_, ⟨_, _, rfl⟩, rfl, rfl⟩ := h
    exact .quiet rfl ⟨rfl, fun _ => rfl, rfl, rfl, rfl, rfl⟩
  | setRegistrar =>
    simp only [machine, execute, setRegistrar, requireAdmin, map_eq_ok, bind_eq_ok, orRefuse_eq_ok,
      exists_unit, pure_eq_ok, Prod.mk.injEq] at h
    obtain ⟨_, ⟨⟨admin, hadmin, _⟩, rfl⟩, rfl, rfl⟩ := h
    refine .quiet rfl ⟨rfl, fun hidle => ?_, rfl, rfl, rfl, rfl⟩
    rw [hidle] at hadmin
    cases hadmin
  | setProposalWindow =>
    simp only [machine, execute, setProposalWindow, map_eq_ok, bind_eq_ok, exists_unit, pure_eq_ok,
      Prod.mk.injEq] at h
    obtain ⟨_, ⟨_, _, rfl⟩, rfl, rfl⟩ := h
    exact .quiet rfl ⟨rfl, fun _ => rfl, rfl, rfl, rfl, rfl⟩
  | registerMatch =>
    simp only [machine, execute, registerMatch, requireRegistrar, map_eq_ok, bind_eq_ok, orRefuse_eq_ok,
      refuseIf_eq_ok, exists_unit, pure_eq_ok, Prod.mk.injEq, not_not] at h
    obtain ⟨_, ⟨⟨registrar, hregistrar, _⟩, hfresh, _, rfl⟩, rfl, rfl⟩ := h
    refine .register _ rfl ?_ hfresh rfl ⟨rfl, rfl⟩
    rw [hregistrar]
    exact Option.some_ne_none registrar
  | requestRematch =>
    simp only [machine, execute, map_eq_ok, Prod.mk.injEq] at h
    obtain ⟨_, hrequest, rfl, rfl⟩ := h
    exact requestRematch_effect rfl hrequest
  | getRequest =>
    simp only [machine, execute, map_eq_ok, Prod.mk.injEq] at h
    obtain ⟨_, _, rfl, rfl⟩ := h
    exact .quiet rfl ⟨rfl, fun _ => rfl, rfl, rfl, rfl, rfl⟩
  | startReview caller id =>
    simp only [machine, execute, startReview, loadRequest, map_eq_ok, bind_eq_ok, orRefuse_eq_ok,
      refuseIf_eq_ok, exists_unit, pure_eq_ok, Prod.mk.injEq, not_not] at h
    obtain ⟨_, ⟨_, request, hfound, hopened, rfl⟩, rfl, rfl⟩ := h
    exact .review id request rfl hfound hopened
  | rejectRequest caller id =>
    simp only [machine, execute, rejectRequest, loadRequest, map_eq_ok, bind_eq_ok, orRefuse_eq_ok,
      refuseIf_eq_ok, exists_unit, pure_eq_ok, Prod.mk.injEq, not_and_or, not_not] at h
    obtain ⟨_, ⟨_, request, hfound, hstatus, rfl⟩, rfl, rfl⟩ := h
    refine .reject id request rfl hfound ?_
    rcases hstatus with hstatus | hstatus <;> rw [hstatus] <;> rfl
  | setCaseFlags =>
    simp only [machine, execute, setCaseFlags, map_eq_ok, bind_eq_ok, exists_unit, pure_eq_ok,
      Prod.mk.injEq] at h
    obtain ⟨_, ⟨_, _, _, rfl⟩, rfl, rfl⟩ := h
    exact .quiet rfl ⟨rfl, fun _ => rfl, rfl, rfl, rfl, rfl⟩
  | proposeSuccessor caller id successor proposalHash =>
    simp only [machine, execute, proposeSuccessor, loadRequest, map_eq_ok, bind_eq_ok, orRefuse_eq_ok,
      refuseIf_eq_ok, exists_unit, pure_eq_ok, Prod.mk.injEq, not_and_or, not_not] at h
    obtain ⟨_, ⟨_, request, hfound, hstatus, _, _, _, _, _, expiresAt, _, rfl⟩, rfl, rfl⟩ := h
    exact .propose caller id successor proposalHash request expiresAt hfound hstatus
  | approveSuccessor caller id =>
    simp only [machine, execute, map_eq_ok, Prod.mk.injEq] at h
    obtain ⟨_, happrove, rfl, rfl⟩ := h
    obtain ⟨request, record, hfound, rfl, hsigned, hdone⟩ := approveSuccessor_ok happrove
    rcases hdone with ⟨rfl, _⟩ | ⟨hproposed, hlive, rfl⟩
    · exact .quiet rfl ⟨rfl, fun _ => rfl, rfl, rfl, rfl, rfl⟩
    · exact .approve id request record hfound hsigned hproposed hlive
  | closeEngagement caller id =>
    simp only [machine, execute, closeEngagement, loadRequest, loadMatch, map_eq_ok, bind_eq_ok,
      orRefuse_eq_ok, refuseIf_eq_ok, exists_unit, pure_eq_ok, Prod.mk.injEq, not_and_or, not_not] at h
    obtain ⟨_, ⟨_, request, hrequest, hstatus, record, hrecord, _, rfl⟩, rfl, rfl⟩ := h
    refine .close id request record rfl ⟨hrequest, hrecord⟩ ?_
    rcases hstatus with hstatus | hstatus | hstatus <;> rw [hstatus] <;> rfl
  | applySuccessor caller id successorMatchId =>
    simp only [machine, execute, applySuccessor, requireNoOpenCases, loadRequest, loadMatch, map_eq_ok,
      bind_eq_ok, orRefuse_eq_ok, refuseIf_eq_ok, exists_unit, pure_eq_ok, Prod.mk.injEq, not_not,
      Bool.not_eq_true] at h
    obtain ⟨_, ⟨_, request, hrequest, happroved, record, hrecord, hflags, mentor, hmentor, hfresh, rfl⟩,
      rfl, rfl⟩ := h
    exact .apply caller id successorMatchId request record mentor ⟨hrequest, hrecord⟩ happroved hmentor
      hflags hfresh

end Effects

end ChainVerse.MentorshipRematch
