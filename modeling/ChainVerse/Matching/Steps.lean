import ChainVerse.Framework.Registers
import ChainVerse.Matching.Contract

namespace ChainVerse.MentorshipMatching

variable {contract : Address} {crypto : Crypto} {env : Env contract} {s s' t : State} {id : Bytes32}

/-- An accepted call of a run, with the stores around it. -/
abbrev Step (contract : Address) := Entry State (Input contract) Answer

section Calls

/-- What a mentor or a coordinator proposes. -/
structure Creation where
  pair : Pair
  terms : ProposalTerms
  options : CreationOptions

def Call.creation : Call → Option Creation
  | .createProposal mentor programId mentee terms =>
    some ⟨(programId, mentor, mentee), terms,
      { createdBy := mentor, origin := .mentor, reasonHash := none }⟩
  | .proposeAsCoordinator coordinator programId mentor mentee terms reasonHash =>
    some ⟨(programId, mentor, mentee), terms,
      { createdBy := coordinator, origin := .coordinator, reasonHash := some reasonHash }⟩
  | _ => none

/-- The proposal that a call puts on new terms. -/
def Call.adjusts : Call → Option Bytes32
  | .adjustProposal _ proposalId _ _ => some proposalId
  | _ => none

/-- The action that a creation logs. -/
def Creation.action (c : Creation) (id : Bytes32) (now : Nat) : Option CoordinatorAction :=
  c.options.reasonHash.map fun reason =>
    { coordinator := c.options.createdBy, proposalId := id, kind := .proposed, reasonHash := reason,
      version := 1, at_ := now }

def Proposal.pair (proposal : Proposal) : Pair :=
  (proposal.programId, proposal.mentor, proposal.mentee)

def Proposal.terms (proposal : Proposal) : ProposalTerms :=
  ⟨proposal.termsHash, proposal.proposedFee, proposal.expiresAt⟩

end Calls

section Guards

/-- Both sides are registered in their roles, active, and have not blocked each other. -/
structure State.Eligible (s : State) (mentor mentee : Address) : Prop where
  mentorActive : ∃ updatedAt, s.participant mentor = some ⟨.mentor, .active, updatedAt⟩
  menteeActive : ∃ updatedAt, s.participant mentee = some ⟨.mentee, .active, updatedAt⟩
  unblocked : s.blocked (mentor, mentee) = false ∧ s.blocked (mentee, mentor) = false

theorem requireEligible_ok {mentor mentee : Address} (h : requireEligible s mentor mentee = .ok ()) :
    s.Eligible mentor mentee := by
  simp only [requireEligible, loadParticipant, bind_eq_ok, orRefuse_eq_ok, refuseIf_eq_ok,
    exists_unit, not_or, not_not, isBlocked, Bool.or_eq_true, Bool.not_eq_true] at h
  obtain ⟨⟨role, status, updatedAt⟩, hmentor, ⟨role', status', updatedAt'⟩, hmentee, hroles, hactive,
    hunblocked⟩ := h
  obtain ⟨rfl, rfl⟩ := hroles
  obtain ⟨rfl, rfl⟩ := hactive
  exact ⟨⟨updatedAt, hmentor⟩, ⟨updatedAt', hmentee⟩, hunblocked⟩

end Guards

section Counts

@[simp] theorem decreasePending_proposal (s : State) (programId : Bytes32) :
    (decreasePending s programId).proposal = s.proposal := by
  dsimp only [decreasePending]
  split_ifs <;> rfl

@[simp] theorem decreasePending_pairIndex (s : State) (programId : Bytes32) :
    (decreasePending s programId).pairIndex = s.pairIndex := by
  dsimp only [decreasePending]
  split_ifs <;> rfl

@[simp] theorem decreasePending_log (s : State) (programId : Bytes32) :
    (decreasePending s programId).coordAction = s.coordAction ∧
      (decreasePending s programId).coordActionCount = s.coordActionCount ∧
      (decreasePending s programId).proposalCount = s.proposalCount := by
  dsimp only [decreasePending]
  split_ifs <;> exact ⟨rfl, rfl, rfl⟩

/-- The row that is written when a place is given back. -/
theorem settled_proposal (s : State) (programId : Bytes32) (p : Proposal) :
    (storeProposal (decreasePending s programId) p).proposal =
      Function.update s.proposal p.id (some p) := by
  show Function.update (decreasePending s programId).proposal p.id (some p) = _
  rw [decreasePending_proposal]

theorem expireProposal_proposal (env : Env contract) (s : State) (p : Proposal) :
    (expireProposal env s p).proposal = Function.update s.proposal p.id (some { p with
      status := .expired
      updatedAt := env.timestamp }) := by
  dsimp only [expireProposal]
  split_ifs <;> simp [storeProposal]

theorem expireProposal_pairIndex (env : Env contract) (s : State) (p : Proposal) :
    (expireProposal env s p).pairIndex = s.pairIndex := by
  dsimp only [expireProposal]
  split_ifs <;> simp [storeProposal]

theorem expireProposal_log (env : Env contract) (s : State) (p : Proposal) :
    (expireProposal env s p).coordAction = s.coordAction ∧
      (expireProposal env s p).coordActionCount = s.coordActionCount ∧
      (expireProposal env s p).proposalCount = s.proposalCount := by
  dsimp only [expireProposal]
  split_ifs <;> simp [storeProposal]

theorem decreasePending_pendingCount {programId : Bytes32} (h : 0 < s.pendingCount programId) :
    (decreasePending s programId).pendingCount =
      Function.update s.pendingCount programId (s.pendingCount programId - 1) := by
  rw [decreasePending, if_pos h]
  rfl

end Counts

/-- The tables that the proposals live in. -/
structure Same (s s' : State) : Prop where
  proposal : s'.proposal = s.proposal
  pairIndex : s'.pairIndex = s.pairIndex
  pendingCount : s'.pendingCount = s.pendingCount
  proposalCount : s'.proposalCount = s.proposalCount
  coordAction : s'.coordAction = s.coordAction
  coordActionCount : s'.coordActionCount = s.coordActionCount

/-- At most one action is logged. -/
def Logs (s s' : State) : Option CoordinatorAction → Prop
  | none => s'.coordAction = s.coordAction ∧ s'.coordActionCount = s.coordActionCount
  | some action =>
    Appends s.coordActionCount s.coordAction s'.coordActionCount s'.coordAction action.coordinator action

/-- The old proposal of a pair is out of the way. -/
inductive Retired (env : Env contract) (s : State) (pair : Pair) : State → Prop where
  | clear (closed : ∀ id p, s.pairIndex pair = some id → s.proposal id = some p →
      p.status.isOpen = false) : Retired env s pair s
  | lapse (id : Bytes32) (existing : Proposal) (index : s.pairIndex pair = some id)
      (found : s.proposal id = some existing) (isOpen : existing.status.isOpen = true)
      (expired : existing.expiresAt ≤ env.timestamp) :
      Retired env s pair (expireProposal env s existing)

/-- A new proposal is stored, indexed, counted and logged. -/
structure Created (crypto : Crypto) (env : Env contract) (t s' : State) (c : Creation) (id : Bytes32) :
    Prop where
  fits : t.proposalCount + 1 < 2^64
  hashed : id = crypto.sha256 (idInput crypto (t.proposalCount + 1) env.timestamp c.pair)
  proposalCount : s'.proposalCount = t.proposalCount + 1
  proposal : s'.proposal = Function.update t.proposal id (some (newProposal env id c.pair c.terms c.options))
  pairIndex : s'.pairIndex = Function.update t.pairIndex c.pair (some id)
  room : t.pendingCount c.pair.1 < maxPendingProposalsPerProgram
  pendingCount : s'.pendingCount = Function.update t.pendingCount c.pair.1 (t.pendingCount c.pair.1 + 1)
  log : Logs t s' (c.action id env.timestamp)

/-- What an approval is given on. -/
structure Approvable (env : Env contract) (s : State) (participant : Address) (id : Bytes32)
    (version : Nat) (proposal : Proposal) : Prop where
  found : s.proposal id = some proposal
  side : participant = proposal.mentor ∨ participant = proposal.mentee
  signed : env.signers participant = true
  version : proposal.version = version
  proposed : proposal.status = .proposed
  live : env.timestamp < proposal.expiresAt
  eligible : s.Eligible proposal.mentor proposal.mentee

/-- The store after an approval. -/
def approved (env : Env contract) (s : State) (participant : Address) (proposal : Proposal) : State :=
  let proposal := proposal.approvedBy participant env.timestamp
  if proposal.mentorApproved = true ∧ proposal.menteeApproved = true then
    storeProposal (decreasePending s proposal.programId) { proposal with status := .active }
  else storeProposal s proposal

/-- The row that an approval writes. -/
def Proposal.afterApproval (proposal : Proposal) (participant : Address) (now : Nat) : Proposal :=
  let proposal := proposal.approvedBy participant now
  if proposal.mentorApproved = true ∧ proposal.menteeApproved = true then
    { proposal with status := .active }
  else proposal

/-- A stored proposal is put on new terms. -/
structure Readjusted (env : Env contract) (s s' : State) (coordinator : Address) (id reasonHash : Bytes32)
    (terms : ProposalTerms) (old : Proposal) : Prop where
  found : s.proposal id = some old
  isOpen : old.status.isOpen = true
  proposal : s'.proposal = Function.update s.proposal old.id
    (some (old.adjusted terms coordinator (old.version + 1) env.timestamp))
  pairIndex : s'.pairIndex = s.pairIndex
  proposalCount : s'.proposalCount = s.proposalCount
  room : old.status = .active →
    s.pendingCount old.programId < maxPendingProposalsPerProgram
  pendingCount : s'.pendingCount = Function.update s.pendingCount old.programId
    (s.pendingCount old.programId + if old.status = .active then 1 else 0)
  log : Logs s s' (some
    { coordinator, proposalId := id, kind := .adjusted, reasonHash, version := old.version + 1,
      at_ := env.timestamp })

/-- Everything that an accepted call can do to the proposals. -/
inductive Effect (crypto : Crypto) (env : Env contract) (s : State) :
    Call → Answer → State → Prop where
  | quiet {call : Call} {s' : State} (uncreated : call.creation = none)
      (unadjusted : call.adjusts = none) (same : Same s s') : Effect crypto env s call none s'
  | create {call : Call} {s' : State} (c : Creation) (t : State) (id : Bytes32)
      (creates : call.creation = some c) (unadjusted : call.adjusts = none)
      (retired : Retired env s c.pair t) (created : Created crypto env t s' c id) :
      Effect crypto env s call (some id) s'
  | approve (participant : Address) (id : Bytes32) (version : Nat) (proposal : Proposal)
      (approvable : Approvable env s participant id version proposal) :
      Effect crypto env s (.approveProposal participant id version) none
        (approved env s participant proposal)
  | decline (participant : Address) (id : Bytes32) (reasonCode : Nat) (proposal : Proposal)
      (found : s.proposal id = some proposal) (proposed : proposal.status = .proposed) :
      Effect crypto env s (.declineProposal participant id reasonCode) none
        (storeProposal (decreasePending s proposal.programId) { proposal with
          status := .declined
          updatedAt := env.timestamp })
  | adjust {s' : State} (coordinator : Address) (id : Bytes32) (terms : ProposalTerms)
      (reasonHash : Bytes32) (proposal : Proposal)
      (readjusted : Readjusted env s s' coordinator id reasonHash terms proposal) :
      Effect crypto env s (.adjustProposal coordinator id terms reasonHash) (some id) s'

section Approvals

/-- An approval of one side sets its mark, and changes nothing else of what was offered. -/
theorem approvedBy_offer (p : Proposal) (participant : Address) (now : Nat) :
    (p.approvedBy participant now).id = p.id ∧ (p.approvedBy participant now).pair = p.pair ∧
      (p.approvedBy participant now).terms = p.terms ∧
      (p.approvedBy participant now).version = p.version ∧
      (p.approvedBy participant now).status = p.status := by
  unfold Proposal.approvedBy
  split_ifs <;> exact ⟨rfl, rfl, rfl, rfl, rfl⟩

theorem afterApproval_offer (p : Proposal) (participant : Address) (now : Nat) :
    (p.afterApproval participant now).id = p.id ∧ (p.afterApproval participant now).pair = p.pair ∧
      (p.afterApproval participant now).terms = p.terms ∧
      (p.afterApproval participant now).version = p.version := by
  obtain ⟨hid, hpair, hterms, hversion, _⟩ := approvedBy_offer p participant now
  dsimp only [Proposal.afterApproval]
  split_ifs
  · exact ⟨hid, hpair, hterms, hversion⟩
  · exact ⟨hid, hpair, hterms, hversion⟩

theorem approved_proposal (env : Env contract) (s : State) (participant : Address) (p : Proposal) :
    (approved env s participant p).proposal =
      Function.update s.proposal p.id (some (p.afterApproval participant env.timestamp)) := by
  have hid := (approvedBy_offer p participant env.timestamp).1
  dsimp only [approved, Proposal.afterApproval]
  split_ifs <;> simp [storeProposal, hid]

theorem approved_log (env : Env contract) (s : State) (participant : Address) (p : Proposal) :
    (approved env s participant p).coordAction = s.coordAction ∧
      (approved env s participant p).coordActionCount = s.coordActionCount ∧
      (approved env s participant p).proposalCount = s.proposalCount := by
  dsimp only [approved]
  split_ifs <;> simp [storeProposal]

end Approvals

section Effects

theorem retireExisting_ok {pair : Pair} (h : retireExisting env s pair = .ok t) :
    Retired env s pair t := by
  rcases hindex : s.pairIndex pair with _ | existingId
  · simp only [retireExisting, hindex, pure_eq_ok] at h
    subst h
    refine .clear fun id p hid _ => ?_
    rw [hindex] at hid
    cases hid
  · simp only [retireExisting, hindex, loadProposal, bind_eq_ok, orRefuse_eq_ok] at h
    obtain ⟨existing, hfound, h⟩ := h
    by_cases hopen : existing.status.isOpen = true
    · rw [if_pos hopen] at h
      simp only [bind_eq_ok, refuseIf_eq_ok, exists_unit, pure_eq_ok, not_lt] at h
      obtain ⟨hexpired, rfl⟩ := h
      exact .lapse existingId existing hindex hfound hopen hexpired
    · rw [if_neg hopen, pure_eq_ok] at h
      subst h
      refine .clear fun id p hid hp => ?_
      rw [hindex] at hid
      cases hid
      rw [hfound] at hp
      cases hp
      exact Bool.not_eq_true _ ▸ hopen

theorem recordCoordinatorAction_ok {coordinator : Address} {proposalId reasonHash : Bytes32}
    {kind : CoordinatorActionKind} {version : Nat}
    (h : recordCoordinatorAction env s coordinator proposalId kind reasonHash version = .ok s') :
    Logs s s' (some { coordinator, proposalId, kind, reasonHash, version, at_ := env.timestamp }) ∧
      s'.proposal = s.proposal ∧ s'.pairIndex = s.pairIndex ∧ s'.pendingCount = s.pendingCount ∧
      s'.proposalCount = s.proposalCount := by
  simp only [recordCoordinatorAction, bind_eq_ok, refuseIf_eq_ok, orRefuse_eq_ok, fitsU_eq_some,
    exists_unit, pure_eq_ok] at h
  obtain ⟨_, _, ⟨_, rfl⟩, rfl⟩ := h
  exact ⟨⟨rfl, rfl⟩, rfl, rfl, rfl, rfl⟩

theorem recordReason_ok {c : Creation} (h : recordReason env s c.options id = .ok s') :
    Logs s s' (c.action id env.timestamp) ∧
      s'.proposal = s.proposal ∧ s'.pairIndex = s.pairIndex ∧ s'.pendingCount = s.pendingCount ∧
      s'.proposalCount = s.proposalCount := by
  unfold recordReason at h
  rcases hreason : c.options.reasonHash with _ | reason
  · rw [hreason, pure_eq_ok] at h
    subst h
    rw [Creation.action, hreason]
    exact ⟨⟨rfl, rfl⟩, rfl, rfl, rfl, rfl⟩
  · rw [hreason] at h
    rw [Creation.action, hreason]
    have hrecord : recordCoordinatorAction env (setProposalReason s id reason) c.options.createdBy id
        .proposed reason 1 = .ok s' := h
    have hlogged := recordCoordinatorAction_ok hrecord
    exact hlogged

theorem create_effect {c : Creation}
    (h : create crypto env s c.pair.1 c.pair.2.1 c.pair.2.2 c.terms c.options = .ok (id, s')) :
    ∃ t, Retired env s c.pair t ∧ Created crypto env t s' c id := by
  simp only [create, deriveId, increasePending, bind_eq_ok, refuseIf_eq_ok, orRefuse_eq_ok,
    fitsU_eq_some, exists_unit, pure_eq_ok, Prod.mk.injEq, not_le] at h
  obtain ⟨_, _, _, _, t, hretire, ⟨newId, u⟩, ⟨_, ⟨hfits, rfl⟩, rfl, rfl⟩, _, ⟨hroom, rfl⟩, _, hreason,
    rfl, rfl⟩ := h
  obtain ⟨hlog, hproposal, hpairIndex, hpending, hcount⟩ := recordReason_ok hreason
  refine ⟨t, retireExisting_ok hretire, ?_⟩
  exact
    { fits := hfits
      hashed := rfl
      proposalCount := hcount
      proposal := hproposal
      pairIndex := hpairIndex
      room := hroom
      pendingCount := hpending
      log := hlog }

theorem approveProposal_ok {participant : Address} {version : Nat}
    (h : approveProposal env s participant id version = .ok s') :
    ∃ proposal, Approvable env s participant id version proposal ∧
      s' = approved env s participant proposal := by
  simp only [approveProposal, loadProposal, bind_eq_ok, orRefuse_eq_ok, refuseIf_eq_ok,
    requireAuth_eq_ok, exists_unit, not_not, not_le, not_and_or] at h
  obtain ⟨proposal, hfound, hside, hsigned, hversion, _, hproposed, hlive, heligible, h⟩ := h
  have happrovable : Approvable env s participant id version proposal :=
    ⟨hfound, hside, hsigned, hversion, hproposed, hlive, requireEligible_ok heligible⟩
  refine ⟨proposal, happrovable, ?_⟩
  unfold approved
  dsimp only at h ⊢
  split_ifs at h ⊢ <;> exact (pure_eq_ok.mp h).symm

theorem declineProposal_ok {participant : Address} {reasonCode : Nat}
    (h : declineProposal env s participant id reasonCode = .ok s') :
    s' = s ∨ ∃ proposal, s.proposal id = some proposal ∧ proposal.status = .proposed ∧
      s' = storeProposal (decreasePending s proposal.programId) { proposal with
        status := .declined
        updatedAt := env.timestamp } := by
  simp only [declineProposal, loadProposal, bind_eq_ok, orRefuse_eq_ok, refuseIf_eq_ok,
    exists_unit] at h
  obtain ⟨_, proposal, hfound, _, _, h⟩ := h
  split_ifs at h with hdeclined
  · exact .inl (pure_eq_ok.mp h).symm
  · simp only [bind_eq_ok, refuseIf_eq_ok, exists_unit, pure_eq_ok, not_not] at h
    obtain ⟨hproposed, rfl⟩ := h
    exact .inr ⟨proposal, hfound, hproposed, rfl⟩

theorem reopen_ok {proposal : Proposal} (h : reopen s proposal = .ok t) :
    (proposal.status = .active → s.pendingCount proposal.programId < maxPendingProposalsPerProgram) ∧
      t = setPendingCount s proposal.programId
        (s.pendingCount proposal.programId + if proposal.status = .active then 1 else 0) := by
  unfold reopen at h
  by_cases hactive : proposal.status = .active
  · rw [if_pos hactive] at h ⊢
    simp only [increasePending, bind_eq_ok, refuseIf_eq_ok, exists_unit, pure_eq_ok, not_le] at h
    obtain ⟨hroom, rfl⟩ := h
    exact ⟨fun _ => hroom, rfl⟩
  · rw [if_neg hactive, pure_eq_ok] at h
    rw [if_neg hactive, Nat.add_zero, setPendingCount, Function.update_eq_self]
    exact ⟨fun hyes => absurd hyes hactive, h.symm⟩

theorem adjustProposal_effect {coordinator : Address} {terms : ProposalTerms} {reasonHash out : Bytes32}
    (h : adjustProposal env s coordinator id terms reasonHash = .ok (out, s')) :
    out = id ∧ ∃ proposal, Readjusted env s s' coordinator id reasonHash terms proposal := by
  simp only [adjustProposal, loadProposal, bind_eq_ok, orRefuse_eq_ok, refuseIf_eq_ok, exists_unit,
    fitsU_eq_some, pure_eq_ok, Prod.mk.injEq, Bool.not_eq_false] at h
  obtain ⟨_, _, _, proposal, hfound, hopen, _, _, t, hreopen, _, ⟨_, rfl⟩, _, hlog, rfl, rfl⟩ := h
  obtain ⟨hroom, rfl⟩ := reopen_ok hreopen
  obtain ⟨hlogs, hproposal, hpairIndex, hpending, hcount⟩ := recordCoordinatorAction_ok hlog
  refine ⟨rfl, proposal, ?_⟩
  exact
    { found := hfound
      isOpen := hopen
      proposal := hproposal
      pairIndex := hpairIndex
      proposalCount := hcount
      room := hroom
      pendingCount := hpending
      log := hlogs }

/-- What an accepted call does to the proposals. -/
theorem step_effect {i : Input contract} {o : Answer}
    (h : (machine contract crypto).step s i = .ok (o, s')) : Effect crypto i.env s i.call o s' := by
  obtain ⟨env, call⟩ := i
  cases call with
  | initializeContract =>
    simp only [machine, execute, initializeContract, map_eq_ok, bind_eq_ok, exists_unit, pure_eq_ok,
      Prod.mk.injEq] at h
    obtain ⟨_, ⟨_, _, rfl⟩, rfl, rfl⟩ := h
    exact .quiet rfl rfl ⟨rfl, rfl, rfl, rfl, rfl, rfl⟩
  | setCoordinator =>
    simp only [machine, execute, setCoordinator, map_eq_ok, bind_eq_ok, exists_unit, pure_eq_ok,
      Prod.mk.injEq] at h
    obtain ⟨_, ⟨_, rfl⟩, rfl, rfl⟩ := h
    exact .quiet rfl rfl ⟨rfl, rfl, rfl, rfl, rfl, rfl⟩
  | registerParticipant =>
    simp only [machine, execute, registerParticipant, map_eq_ok, bind_eq_ok, exists_unit, pure_eq_ok,
      Prod.mk.injEq] at h
    obtain ⟨_, ⟨_, _, rfl⟩, rfl, rfl⟩ := h
    exact .quiet rfl rfl ⟨rfl, rfl, rfl, rfl, rfl, rfl⟩
  | setParticipantStatus =>
    simp only [machine, execute, setParticipantStatus, map_eq_ok, bind_eq_ok, exists_unit, pure_eq_ok,
      Prod.mk.injEq] at h
    obtain ⟨_, ⟨_, _, _, rfl⟩, rfl, rfl⟩ := h
    exact .quiet rfl rfl ⟨rfl, rfl, rfl, rfl, rfl, rfl⟩
  | setBlock =>
    simp only [machine, execute, setBlock, map_eq_ok, bind_eq_ok, exists_unit, pure_eq_ok,
      Prod.mk.injEq] at h
    obtain ⟨_, ⟨_, _, rfl⟩, rfl, rfl⟩ := h
    exact .quiet rfl rfl ⟨rfl, rfl, rfl, rfl, rfl, rfl⟩
  | createProposal =>
    simp only [machine, execute, createProposal, map_eq_ok, bind_eq_ok, exists_unit, Prod.mk.injEq] at h
    obtain ⟨⟨id, _⟩, ⟨_, hcreate⟩, rfl, rfl⟩ := h
    obtain ⟨t, hretired, hcreated⟩ := @create_effect _ _ _ _ _ _ ⟨(_, _, _), _, _⟩ hcreate
    exact .create _ t id rfl rfl hretired hcreated
  | proposeAsCoordinator =>
    simp only [machine, execute, proposeAsCoordinator, map_eq_ok, bind_eq_ok, exists_unit,
      Prod.mk.injEq] at h
    obtain ⟨⟨id, _⟩, ⟨_, _, hcreate⟩, rfl, rfl⟩ := h
    obtain ⟨t, hretired, hcreated⟩ := @create_effect _ _ _ _ _ _ ⟨(_, _, _), _, _⟩ hcreate
    exact .create _ t id rfl rfl hretired hcreated
  | approveProposal participant id version =>
    simp only [machine, execute, map_eq_ok, Prod.mk.injEq] at h
    obtain ⟨_, happrove, rfl, rfl⟩ := h
    obtain ⟨proposal, happrovable, rfl⟩ := approveProposal_ok happrove
    exact .approve participant id version proposal happrovable
  | declineProposal participant id reasonCode =>
    simp only [machine, execute, map_eq_ok, Prod.mk.injEq] at h
    obtain ⟨_, hdecline, rfl, rfl⟩ := h
    rcases declineProposal_ok hdecline with rfl | ⟨proposal, hfound, hproposed, rfl⟩
    · exact .quiet rfl rfl ⟨rfl, rfl, rfl, rfl, rfl, rfl⟩
    · exact .decline participant id reasonCode proposal hfound hproposed
  | adjustProposal coordinator id terms reasonHash =>
    simp only [machine, execute, map_eq_ok, Prod.mk.injEq] at h
    obtain ⟨⟨out, _⟩, hadjust, rfl, rfl⟩ := h
    obtain ⟨rfl, proposal, hreadjusted⟩ := adjustProposal_effect hadjust
    exact .adjust coordinator out terms reasonHash proposal hreadjusted

end Effects

end ChainVerse.MentorshipMatching
