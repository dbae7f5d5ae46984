import ChainVerse.Framework.Tables
import ChainVerse.Scheduling.Contract

namespace ChainVerse.MentorshipScheduling

variable {contract : Address} {env : Env contract} {s s' : State} {caller : Address}
  {sessionId proposalId : Bytes32} {slot new : Slot}

/-- An accepted call of a run, with the stores around it. -/
abbrev Step (contract : Address) := Entry State (Input contract) Answer

section Slots

def Slot.endUtc (slot : Slot) : Nat := slot.startUtc + slot.durationMinutes * 60

/-- Two slots have a moment in common. -/
def Slot.Overlaps (a b : Slot) : Prop := a.startUtc < b.endUtc ∧ b.startUtc < a.endUtc

instance (a b : Slot) : Decidable (a.Overlaps b) := inferInstanceAs (Decidable (_ ∧ _))

/-- The slot overlaps no session of the list, apart from `exclude`. -/
def State.FreeBut (s : State) (slot : Slot) (exclude : Bytes32) (ids : List Bytes32) : Prop :=
  ∀ id ∈ ids, id ≠ exclude → ∀ other, s.session id = some other → ¬ slot.Overlaps other.slot

/-- Every stored session ends before time does. -/
def State.Ending (s : State) : Prop :=
  ∀ id session, s.session id = some session → session.slot.endUtc < 2^64

@[simp] theorem sessionEnd_eq_ok {n : Nat} :
    sessionEnd slot = .ok n ↔ slot.endUtc < 2^64 ∧ slot.endUtc = n := by
  simp only [sessionEnd, bind_eq_ok, orRefuse_eq_ok, fitsU_eq_some, Slot.endUtc]
  constructor
  · rintro ⟨_, ⟨_, rfl⟩, hfits, hn⟩
    exact ⟨hfits, hn⟩
  · rintro ⟨hfits, hn⟩
    exact ⟨_, ⟨by omega, rfl⟩, hfits, hn⟩

/-- The check of a booking leaves nothing out. -/
theorem requireFree_ok {ids : List Bytes32} {u : Unit}
    (h : requireFree s slot.startUtc slot.endUtc ids = .ok u) (exclude : Bytes32) :
    s.FreeBut slot exclude ids := by
  induction ids with
  | nil => exact fun id hid => absurd hid List.not_mem_nil
  | cons head rest ih =>
    simp only [requireFree, loadSession, bind_eq_ok, exists_unit, orRefuse_eq_ok, sessionEnd_eq_ok,
      refuseIf_eq_ok] at h
    obtain ⟨other, hother, _, ⟨_, rfl⟩, hclear, hrest⟩ := h
    intro id hid hne found hfound
    rcases List.mem_cons.mp hid with rfl | hlater
    · rw [hother, Option.some.injEq] at hfound
      rw [← hfound]
      exact hclear
    · exact ih hrest id hlater hne found hfound

/-- The check of a move leaves out only the session that moves, as long as every session ends. -/
theorem conflictsWith_free {participant : Address} {exclude : Bytes32} (hs : s.Ending)
    (h : ¬ conflictsWith s participant slot.startUtc slot.endUtc exclude = true) :
    s.FreeBut slot exclude (s.participantSessions participant) := by
  intro id hid hne other hother hoverlap
  apply h
  rw [conflictsWith, List.any_eq_true]
  refine ⟨id, hid, ?_⟩
  have hend : sessionEnd other.slot = .ok other.slot.endUtc :=
    sessionEnd_eq_ok.mpr ⟨hs id other hother, rfl⟩
  simp only [if_neg hne, hother, hend]
  exact decide_eq_true hoverlap

end Slots

section Records

/-- The two participants of a session. -/
def Session.Names (session : Session) (participant : Address) : Prop :=
  participant = session.mentor ∨ participant = session.mentee

instance (session : Session) (participant : Address) : Decidable (session.Names participant) :=
  inferInstanceAs (Decidable (_ ∨ _))

def Session.confirmedAt (session : Session) (participant : Address) : Nat :=
  if participant = session.mentor then session.mentorConfirmedAt else session.menteeConfirmedAt

/-- A session as it is booked. -/
def AgreementAnchor.session (anchor : AgreementAnchor) (agreementId sessionId : Bytes32)
    (slot : Slot) (mode : SessionMode) (locationRef agendaHash : Bytes32) (now : Nat) :
    Session where
  sessionId := sessionId
  agreementId := agreementId
  mentor := anchor.mentor
  mentee := anchor.mentee
  slot := slot
  mode := mode
  locationRef := locationRef
  agendaHash := agendaHash
  status := .booked
  mentorConfirmedAt := 0
  menteeConfirmedAt := 0
  bookedAt := now
  revision := 0
  rescheduleHistory := []

/-- A session that one more participant has confirmed. -/
def Session.confirm (session : Session) (caller : Address) (now : Nat) : Session :=
  let session := if caller = session.mentor then { session with mentorConfirmedAt := now }
    else { session with menteeConfirmedAt := now }
  if session.mentorConfirmedAt ≠ 0 ∧ session.menteeConfirmedAt ≠ 0 then
    { session with status := .confirmed } else session

/-- The proposals, less an open one that a new one of the session replaces. -/
def State.cleared (s : State) (sessionId : Bytes32) : Bytes32 → Option RescheduleProposal :=
  match s.openReschedule sessionId with
  | none => s.reschedule
  | some openId => Function.update s.reschedule openId none

/-- The agreements are between two people. -/
def State.Paired (s : State) : Prop :=
  ∀ id anchor, s.agreement id = some anchor → anchor.mentor ≠ anchor.mentee

/-- The session and the participant of a confirmation. -/
def Call.confirms : Call → Option (Bytes32 × Address)
  | .confirmSession caller sessionId => some (sessionId, caller)
  | _ => none

/-- The calls that set up the contract or an agreement. -/
def Call.configures : Call → Bool
  | .initializeContract .. => true
  | .setRegistrar .. => true
  | .setMinLeadTime .. => true
  | .setReschedulePolicy .. => true
  | .registerAgreement .. => true
  | .setAgreementActive .. => true
  | _ => false

/-- A call that sets something up confirms nothing. -/
theorem Call.quiet_of_configures {call : Call} (h : call.configures = true) : call.confirms = none := by
  cases call with
  | confirmSession => cases h
  | _ => rfl

/-- The time checks of `proposeReschedule`, on a session and its new slot. -/
def timeChecks (env : Env contract) (s : State) (session : Session) (new : Slot) : Outcome Unit := do
  let notice ← orRefuse s.rescheduleNotice (.err .notInitialized)
  let noticed ← orRefuse (fitsU 64 (env.timestamp + notice)) (.err .rescheduleNoticeNotMet)
  refuseIf (session.slot.startUtc < noticed) (.err .rescheduleNoticeNotMet)
  validateSlot env s new

end Records

section Effects

/-- What the calls that set up the contract or an agreement leave: the sessions, the proposals, a
policy that is set, and the two sides of an agreement. -/
structure Configured (s s' : State) : Prop where
  session : s'.session = s.session
  participantSessions : s'.participantSessions = s.participantSessions
  bookingIdem : s'.bookingIdem = s.bookingIdem
  reschedule : s'.reschedule = s.reschedule
  openReschedule : s'.openReschedule = s.openReschedule
  lead : s.minLeadTime ≠ none → s'.minLeadTime ≠ none
  notice : s.rescheduleNotice ≠ none → s'.rescheduleNotice ≠ none
  parties : ∀ id anchor, s.agreement id = some anchor → ∃ later, s'.agreement id = some later ∧
    later.mentor = anchor.mentor ∧ later.mentee = anchor.mentee
  paired : s.Paired → s'.Paired

/-- A call that an earlier one has already done, with the answer that it finds. -/
inductive Replayed (s : State) : Call → Answer → Prop where
  | booking {caller : Address} {agreementId sessionId idempotencyKey locationRef agendaHash id : Bytes32}
      {slot : Slot} {mode : SessionMode} {anchor : AgreementAnchor} {existing : Session}
      (found : s.agreement agreementId = some anchor)
      (party : caller = anchor.mentor ∨ caller = anchor.mentee)
      (known : s.bookingIdem (agreementId, caller, idempotencyKey) = some id)
      (stored : s.session id = some existing)
      (same : existing.slot = slot ∧ existing.mode = mode ∧ existing.locationRef = locationRef ∧
        existing.agendaHash = agendaHash) :
      Replayed s
        (.bookSession caller agreementId sessionId idempotencyKey slot mode locationRef agendaHash)
        (.booked id)
  | proposal {caller : Address} {sessionId proposalId reasonHash : Bytes32} {reason : RescheduleReason}
      {new : Slot} {proposal : RescheduleProposal} (found : s.reschedule proposalId = some proposal) :
      Replayed s (.proposeReschedule caller sessionId proposalId reason reasonHash new)
        (.proposed proposal)
  | approval {caller : Address} {proposalId : Bytes32} {session : Session}
      {proposal : RescheduleProposal} (found : s.reschedule proposalId = some proposal)
      (stored : s.session proposal.sessionId = some session) (applied : proposal.status = .applied) :
      Replayed s (.approveReschedule caller proposalId) (.approved session)
  | refusal {caller : Address} {proposalId : Bytes32} {proposal : RescheduleProposal}
      (found : s.reschedule proposalId = some proposal) (declined : proposal.status = .declined) :
      Replayed s (.declineReschedule caller proposalId) .done

theorem Replayed.quiet {call : Call} {answer : Answer} (h : Replayed s call answer) :
    call.confirms = none := by
  cases h <;> rfl

/-- Everything an accepted call can have done, with its answer. -/
inductive Effect (env : Env contract) (s : State) : Call → Answer → State → Prop where
  | configure {call : Call} {s' : State} (configures : call.configures = true)
      (configured : Configured s s') : Effect env s call .done s'
  | replay {call : Call} {answer : Answer} (replayed : Replayed s call answer) :
      Effect env s call answer s
  | book {caller : Address} {agreementId sessionId idempotencyKey locationRef agendaHash : Bytes32}
      {slot : Slot} {mode : SessionMode} {anchor : AgreementAnchor}
      (found : s.agreement agreementId = some anchor) (vacant : s.session sessionId = none)
      (mentorRoom : (s.participantSessions anchor.mentor).length < maxSessionsPerParticipant)
      (menteeRoom : (s.participantSessions anchor.mentee).length < maxSessionsPerParticipant)
      (fits : slot.endUtc < 2^64)
      (mentorFree : s.FreeBut slot sessionId (s.participantSessions anchor.mentor))
      (menteeFree : s.FreeBut slot sessionId (s.participantSessions anchor.mentee))
      (party : caller = anchor.mentor ∨ caller = anchor.mentee)
      (fresh : s.bookingIdem (agreementId, caller, idempotencyKey) = none) :
      Effect env s
        (.bookSession caller agreementId sessionId idempotencyKey slot mode locationRef agendaHash)
        (.booked sessionId)
        { s with
          session := Function.update s.session sessionId (some (anchor.session agreementId sessionId
            slot mode locationRef agendaHash env.timestamp))
          participantSessions := Function.update
            (Function.update s.participantSessions anchor.mentor
              (s.participantSessions anchor.mentor ++ [sessionId])) anchor.mentee
            (s.participantSessions anchor.mentee ++ [sessionId])
          bookingIdem := Function.update s.bookingIdem (agreementId, caller, idempotencyKey)
            (some sessionId) }
  | reconfirm {caller : Address} {sessionId : Bytes32} {session : Session} {answer : Answer}
      (found : s.session sessionId = some session) (named : session.Names caller)
      (already : session.status = .confirmed ∨ session.confirmedAt caller ≠ 0) :
      Effect env s (.confirmSession caller sessionId) answer s
  | confirm {caller : Address} {sessionId : Bytes32} {session : Session} {both : Bool}
      (found : s.session sessionId = some session) (named : session.Names caller)
      (unconfirmed : session.status ≠ .confirmed) :
      Effect env s (.confirmSession caller sessionId) (.confirmed both)
        (putSession s (session.confirm caller env.timestamp))
  | propose {caller : Address} {sessionId proposalId reasonHash : Bytes32}
      {reason : RescheduleReason} {new : Slot} {session : Session} {proposal : RescheduleProposal}
      (found : s.session sessionId = some session) (named : session.Names caller)
      (signed : env.signers caller = true) (fresh : s.reschedule proposalId = none)
      (id : proposal.proposalId = proposalId) (about : proposal.sessionId = sessionId)
      (proposedBy : proposal.proposedBy = caller) (slot : proposal.new = new)
      (revision : proposal.sessionRevision = session.revision) (status : proposal.status = .proposed)
      (checked : timeChecks env s session new = .ok ()) :
      Effect env s (.proposeReschedule caller sessionId proposalId reason reasonHash new)
        (.proposed proposal)
        { s with
          reschedule := Function.update (s.cleared sessionId) proposalId (some proposal)
          openReschedule := Function.update s.openReschedule sessionId (some proposalId) }
  | apply {caller : Address} {proposalId : Bytes32} {session : Session}
      {proposal : RescheduleProposal} (found : s.reschedule proposalId = some proposal)
      (stored : s.session proposal.sessionId = some session) (named : session.Names caller)
      (counterparty : caller ≠ proposal.proposedBy) (signed : env.signers caller = true)
      (open_ : proposal.status = .proposed) (timely : env.timestamp ≤ proposal.expiresAt)
      (current : session.revision = proposal.sessionRevision)
      (room : session.rescheduleHistory.length < maxReschedulesPerSession)
      (fits : proposal.new.endUtc < 2^64)
      (mentorFree : s.Ending → s.FreeBut proposal.new session.sessionId
        (s.participantSessions session.mentor))
      (menteeFree : s.Ending → s.FreeBut proposal.new session.sessionId
        (s.participantSessions session.mentee)) :
      Effect env s (.approveReschedule caller proposalId)
        (.approved (session.moved proposal proposalId env.timestamp))
        { s with
          session := Function.update s.session session.sessionId
            (some (session.moved proposal proposalId env.timestamp))
          reschedule := Function.update s.reschedule proposal.proposalId (some { proposal with
            status := .applied
            respondedBy := some caller
            respondedAt := env.timestamp
            appliedAt := env.timestamp })
          openReschedule := Function.update s.openReschedule session.sessionId none }
  | decline {caller : Address} {proposalId : Bytes32} {session : Session}
      {proposal : RescheduleProposal} (found : s.reschedule proposalId = some proposal)
      (stored : s.session proposal.sessionId = some session) (open_ : proposal.status = .proposed) :
      Effect env s (.declineReschedule caller proposalId) .done
        { s with
          reschedule := Function.update s.reschedule proposal.proposalId (some { proposal with
            status := .declined
            respondedBy := some caller
            respondedAt := env.timestamp })
          openReschedule := Function.update s.openReschedule session.sessionId none }

end Effects

section Inversion

theorem names_of_not {session : Session} (h : ¬ (caller ≠ session.mentor ∧ caller ≠ session.mentee)) :
    session.Names caller := by
  rwa [not_and_or, not_not, not_not] at h

theorem bookSession_effect {agreementId idempotencyKey locationRef agendaHash answered : Bytes32}
    {mode : SessionMode}
    (h : bookSession env s caller agreementId sessionId idempotencyKey slot mode locationRef
      agendaHash = .ok (answered, s')) :
    Effect env s
      (.bookSession caller agreementId sessionId idempotencyKey slot mode locationRef agendaHash)
      (.booked answered) s' := by
  simp only [bookSession, loadAgreement, loadSession, bind_eq_ok, exists_unit, orRefuse_eq_ok,
    refuseIf_eq_ok] at h
  obtain ⟨anchor, hfound, _, hinside, _, h⟩ := h
  have hparty : caller = anchor.mentor ∨ caller = anchor.mentee := by
    rwa [not_and_or, not_not, not_not] at hinside
  rcases hidem : s.bookingIdem (agreementId, caller, idempotencyKey) with _ | existingId
  · simp only [hidem, bind_eq_ok, exists_unit, refuseIf_eq_ok, sessionEnd_eq_ok, pure_eq_ok,
      Prod.mk.injEq, not_or, not_le, not_not] at h
    obtain ⟨_, hvacant, ⟨hmentorRoom, hmenteeRoom⟩, _, ⟨hfits, rfl⟩, hmentor, hmentee, rfl, rfl⟩ := h
    exact .book hfound hvacant hmentorRoom hmenteeRoom hfits (requireFree_ok hmentor sessionId)
      (requireFree_ok hmentee sessionId) hparty hidem
  · simp only [hidem, bind_eq_ok, exists_unit, orRefuse_eq_ok, refuseIf_eq_ok, pure_eq_ok,
      Prod.mk.injEq, not_not] at h
    obtain ⟨existing, hstored, hsame, rfl, rfl⟩ := h
    exact .replay (.booking hfound hparty hidem hstored hsame)

theorem confirmSession_effect {both : Bool}
    (h : confirmSession env s caller sessionId = .ok (both, s')) :
    Effect env s (.confirmSession caller sessionId) (.confirmed both) s' := by
  simp only [confirmSession, loadSession, bind_eq_ok, exists_unit, orRefuse_eq_ok,
    refuseIf_eq_ok] at h
  obtain ⟨session, hfound, hnamed, _, h⟩ := h
  have hnames := names_of_not hnamed
  by_cases hconfirmed : session.status = .confirmed
  · rw [if_pos hconfirmed, pure_eq_ok, Prod.mk.injEq] at h
    obtain ⟨_, rfl⟩ := h
    exact .reconfirm hfound hnames (.inl hconfirmed)
  rw [if_neg hconfirmed] at h
  by_cases halready : session.confirmedAt caller ≠ 0
  · have hearlier : (if caller = session.mentor then session.mentorConfirmedAt
        else session.menteeConfirmedAt) ≠ 0 := halready
    rw [if_pos hearlier, pure_eq_ok, Prod.mk.injEq] at h
    obtain ⟨_, rfl⟩ := h
    exact .reconfirm hfound hnames (.inr halready)
  · have hearlier : ¬ (if caller = session.mentor then session.mentorConfirmedAt
        else session.menteeConfirmedAt) ≠ 0 := halready
    rw [if_neg hearlier, pure_eq_ok, Prod.mk.injEq] at h
    obtain ⟨_, rfl⟩ := h
    exact .confirm hfound hnames hconfirmed

theorem clearOpen_ok {now : Nat} {t : State} (h : clearOpen now s sessionId = .ok t) :
    t.reschedule = s.cleared sessionId ∧ t = { s with
      reschedule := t.reschedule
      openReschedule := t.openReschedule } ∧
      ∀ row, Function.update t.openReschedule sessionId row =
        Function.update s.openReschedule sessionId row := by
  rcases hopen : s.openReschedule sessionId with _ | openId
  · simp only [clearOpen, hopen, pure_eq_ok] at h
    subst h
    rw [State.cleared, hopen]
    exact ⟨rfl, rfl, fun _ => rfl⟩
  · simp only [clearOpen, hopen, bind_eq_ok, exists_unit, pure_eq_ok] at h
    obtain ⟨_, _, _, rfl⟩ := h
    rw [State.cleared, hopen]
    exact ⟨rfl, rfl, fun row => Function.update_idem _ _ _⟩

theorem timeChecks_eq_ok {session : Session} {u : Unit} :
    timeChecks env s session new = .ok u ↔
      (∃ notice, s.rescheduleNotice = some notice ∧ env.timestamp + notice < 2^64 ∧
        env.timestamp + notice ≤ session.slot.startUtc) ∧ validateSlot env s new = .ok u := by
  simp only [timeChecks, bind_eq_ok, exists_unit, refuseIf_eq_ok, orRefuse_eq_ok, fitsU_eq_some,
    not_lt]
  constructor
  · rintro ⟨notice, hnotice, _, ⟨hfits, rfl⟩, hearly, hvalid⟩
    exact ⟨⟨notice, hnotice, hfits, hearly⟩, hvalid⟩
  · rintro ⟨⟨notice, hnotice, hfits, hearly⟩, hvalid⟩
    exact ⟨notice, hnotice, _, ⟨hfits, rfl⟩, hearly, hvalid⟩

theorem proposeReschedule_effect {reasonHash : Bytes32} {reason : RescheduleReason}
    {proposal : RescheduleProposal}
    (h : proposeReschedule env s caller sessionId proposalId reason reasonHash new =
      .ok (proposal, s')) :
    Effect env s (.proposeReschedule caller sessionId proposalId reason reasonHash new)
      (.proposed proposal) s' := by
  simp only [proposeReschedule, loadSession, bind_eq_ok, exists_unit, orRefuse_eq_ok,
    refuseIf_eq_ok, requireAuth_eq_ok] at h
  obtain ⟨session, hfound, hnamed, hsigned, h⟩ := h
  have hnames := names_of_not hnamed
  rcases hexisting : s.reschedule proposalId with _ | existing
  · simp only [hexisting, bind_eq_ok, exists_unit, orRefuse_eq_ok, fitsU_eq_some, refuseIf_eq_ok,
      pure_eq_ok, Prod.mk.injEq, not_lt] at h
    obtain ⟨_, notice, hnotice, _, ⟨hfits, rfl⟩, hearly, hvalid, _, t, hclear, _, _, _, _, _, _,
      ⟨_, rfl⟩, rfl, rfl⟩ := h
    have hchecked : timeChecks env s session new = .ok () :=
      timeChecks_eq_ok.mpr ⟨⟨notice, hnotice, hfits, hearly⟩, hvalid⟩
    obtain ⟨hcleared, hrest, hopen⟩ := clearOpen_ok hclear
    rw [putReschedule, hopen, hcleared, hrest]
    exact .propose hfound hnames hsigned hexisting rfl rfl rfl rfl rfl rfl hchecked
  · simp only [hexisting, bind_eq_ok, exists_unit, refuseIf_eq_ok, pure_eq_ok, Prod.mk.injEq] at h
    obtain ⟨_, rfl, rfl⟩ := h
    exact .replay (.proposal hexisting)

theorem answering_ok {proposal : RescheduleProposal} {session : Session}
    (h : answering env s caller proposalId = .ok (proposal, session)) :
    s.reschedule proposalId = some proposal ∧ s.session proposal.sessionId = some session ∧
      session.Names caller ∧ caller ≠ proposal.proposedBy ∧ env.signers caller = true := by
  simp only [answering, loadReschedule, loadSession, bind_eq_ok, exists_unit, orRefuse_eq_ok,
    refuseIf_eq_ok, requireAuth_eq_ok, pure_eq_ok, Prod.mk.injEq] at h
  obtain ⟨_, hfound, _, hstored, hnamed, hcounterparty, hsigned, rfl, rfl⟩ := h
  exact ⟨hfound, hstored, names_of_not hnamed, hcounterparty, hsigned⟩

theorem approveReschedule_effect {answered : Session}
    (h : approveReschedule env s caller proposalId = .ok (answered, s')) :
    Effect env s (.approveReschedule caller proposalId) (.approved answered) s' := by
  rw [approveReschedule, bind_eq_ok] at h
  obtain ⟨⟨proposal, session⟩, hanswering, h⟩ := h
  obtain ⟨hfound, hstored, hnamed, hcounterparty, hsigned⟩ := answering_ok hanswering
  dsimp only at h
  by_cases happlied : proposal.status = .applied
  · rw [if_pos happlied, pure_eq_ok, Prod.mk.injEq] at h
    obtain ⟨rfl, rfl⟩ := h
    exact .replay (.approval hfound hstored happlied)
  rw [if_neg happlied] at h
  simp only [bind_eq_ok, exists_unit, refuseIf_eq_ok, sessionEnd_eq_ok, pure_eq_ok, Prod.mk.injEq,
    not_or, not_le, not_lt, not_not] at h
  obtain ⟨hopen, htimely, hcurrent, hroom, _, ⟨hfits, rfl⟩, ⟨hmentor, hmentee⟩, rfl, rfl⟩ := h
  exact .apply hfound hstored hnamed hcounterparty hsigned hopen htimely hcurrent hroom hfits
    (fun hs => conflictsWith_free hs hmentor) (fun hs => conflictsWith_free hs hmentee)

theorem declineReschedule_effect (h : declineReschedule env s caller proposalId = .ok s') :
    Effect env s (.declineReschedule caller proposalId) .done s' := by
  rw [declineReschedule, bind_eq_ok] at h
  obtain ⟨⟨proposal, session⟩, hanswering, h⟩ := h
  obtain ⟨hfound, hstored, _, _, _⟩ := answering_ok hanswering
  dsimp only at h
  by_cases hdeclined : proposal.status = .declined
  · rw [if_pos hdeclined, pure_eq_ok] at h
    rw [← h]
    exact .replay (.refusal hfound hdeclined)
  rw [if_neg hdeclined] at h
  simp only [bind_eq_ok, exists_unit, refuseIf_eq_ok, pure_eq_ok, not_not] at h
  obtain ⟨hopen, rfl⟩ := h
  have heffect : Effect env s (.declineReschedule caller proposalId) .done _ :=
    .decline hfound hstored hopen
  exact heffect

/-- The two sides of the agreements that are not written. -/
theorem parties_same (h : s'.agreement = s.agreement) :
    ∀ id anchor, s.agreement id = some anchor → ∃ later, s'.agreement id = some later ∧
      later.mentor = anchor.mentor ∧ later.mentee = anchor.mentee := by
  intro id anchor hanchor
  exact ⟨anchor, h ▸ hanchor, rfl, rfl⟩

theorem registerAgreement_effect {agreementId : Bytes32} {mentor mentee : Address}
    (h : registerAgreement env s caller agreementId mentor mentee = .ok s') :
    Effect env s (.registerAgreement caller agreementId mentor mentee) .done s' := by
  simp only [registerAgreement, bind_eq_ok, exists_unit, refuseIf_eq_ok, pure_eq_ok, not_not] at h
  obtain ⟨_, hvacant, hdistinct, rfl⟩ := h
  have hpaired (hs : s.Paired) : State.Paired { s with
      agreement := Function.update s.agreement agreementId (some
        { agreementId, mentor, mentee, active := true, registeredAt := env.timestamp }) } :=
    forall_update_row hs rfl hdistinct
  refine .configure rfl ⟨rfl, rfl, rfl, rfl, rfl, id, id, fun id anchor hanchor => ?_, hpaired⟩
  exact ⟨anchor, update_keeps_row hvacant hanchor, rfl, rfl⟩

theorem setAgreementActive_effect {agreementId : Bytes32} {active : Bool}
    (h : setAgreementActive env s caller agreementId active = .ok s') :
    Effect env s (.setAgreementActive caller agreementId active) .done s' := by
  simp only [setAgreementActive, loadAgreement, bind_eq_ok, exists_unit, orRefuse_eq_ok,
    pure_eq_ok] at h
  obtain ⟨_, anchor, hfound, rfl⟩ := h
  have hpaired (hs : s.Paired) : State.Paired { s with
      agreement := Function.update s.agreement agreementId
        (some { anchor with active := active }) } :=
    forall_update_row hs rfl (hs agreementId anchor hfound)
  refine .configure rfl ⟨rfl, rfl, rfl, rfl, rfl, id, id, fun id known hknown => ?_, hpaired⟩
  by_cases hid : id = agreementId
  · rw [hid, hfound, Option.some.injEq] at hknown
    rw [hid, ← hknown]
    exact ⟨_, Function.update_self _ _ _, rfl, rfl⟩
  · exact ⟨known, (Function.update_of_ne hid _ _).trans hknown, rfl, rfl⟩

/-- Every accepted call does one of the effects. -/
theorem step_effect {i : Input contract} {o : Answer}
    (h : (machine contract).step s i = .ok (o, s')) : Effect i.env s i.call o s' := by
  obtain ⟨env, call⟩ := i
  cases call with
  | initializeContract =>
    simp only [machine, execute, map_eq_ok, initializeContract, bind_eq_ok, exists_unit,
      pure_eq_ok, Prod.mk.injEq] at h
    obtain ⟨_, ⟨_, _, _, rfl⟩, rfl, rfl⟩ := h
    exact .configure rfl ⟨rfl, rfl, rfl, rfl, rfl, fun _ => Option.some_ne_none _, fun _ => Option.some_ne_none _,
      parties_same rfl, id⟩
  | setRegistrar =>
    simp only [machine, execute, map_eq_ok, setRegistrar, bind_eq_ok, exists_unit, pure_eq_ok,
      Prod.mk.injEq] at h
    obtain ⟨_, ⟨_, rfl⟩, rfl, rfl⟩ := h
    exact .configure rfl ⟨rfl, rfl, rfl, rfl, rfl, id, id, parties_same rfl, id⟩
  | setMinLeadTime =>
    simp only [machine, execute, map_eq_ok, setMinLeadTime, bind_eq_ok, exists_unit, pure_eq_ok,
      Prod.mk.injEq] at h
    obtain ⟨_, ⟨_, _, rfl⟩, rfl, rfl⟩ := h
    exact .configure rfl ⟨rfl, rfl, rfl, rfl, rfl, fun _ => Option.some_ne_none _, id,
      parties_same rfl, id⟩
  | setReschedulePolicy =>
    simp only [machine, execute, map_eq_ok, setReschedulePolicy, bind_eq_ok, exists_unit,
      pure_eq_ok, Prod.mk.injEq] at h
    obtain ⟨_, ⟨_, _, rfl⟩, rfl, rfl⟩ := h
    exact .configure rfl ⟨rfl, rfl, rfl, rfl, rfl, id, fun _ => Option.some_ne_none _,
      parties_same rfl, id⟩
  | registerAgreement =>
    simp only [machine, execute, map_eq_ok, Prod.mk.injEq] at h
    obtain ⟨_, hregister, rfl, rfl⟩ := h
    exact registerAgreement_effect hregister
  | setAgreementActive =>
    simp only [machine, execute, map_eq_ok, Prod.mk.injEq] at h
    obtain ⟨_, hset, rfl, rfl⟩ := h
    exact setAgreementActive_effect hset
  | bookSession =>
    simp only [machine, execute, map_eq_ok, Prod.map, Prod.mk.injEq, id] at h
    obtain ⟨⟨_, _⟩, hbook, rfl, rfl⟩ := h
    exact bookSession_effect hbook
  | confirmSession =>
    simp only [machine, execute, map_eq_ok, Prod.map, Prod.mk.injEq, id] at h
    obtain ⟨⟨_, _⟩, hconfirm, rfl, rfl⟩ := h
    exact confirmSession_effect hconfirm
  | proposeReschedule =>
    simp only [machine, execute, map_eq_ok, Prod.map, Prod.mk.injEq, id] at h
    obtain ⟨⟨_, _⟩, hpropose, rfl, rfl⟩ := h
    exact proposeReschedule_effect hpropose
  | approveReschedule =>
    simp only [machine, execute, map_eq_ok, Prod.map, Prod.mk.injEq, id] at h
    obtain ⟨⟨_, _⟩, happrove, rfl, rfl⟩ := h
    exact approveReschedule_effect happrove
  | declineReschedule =>
    simp only [machine, execute, map_eq_ok, Prod.mk.injEq] at h
    obtain ⟨_, hdecline, rfl, rfl⟩ := h
    exact declineReschedule_effect hdecline

end Inversion

end ChainVerse.MentorshipScheduling
