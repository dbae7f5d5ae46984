import ChainVerse.Framework.Histories
import ChainVerse.Scheduling.Bookings

namespace ChainVerse.MentorshipScheduling

section Proposing

variable {contract : Address} {env : Env contract} {s s' : State} {es : List (Step contract)}
  {sessionId proposalId : Bytes32}

/-- The call by which a proposal has been made. -/
structure Proposes (e : Step contract) (proposal : RescheduleProposal) : Prop where
  call : ∃ reason reasonHash, e.input.call = .proposeReschedule proposal.proposedBy proposal.sessionId
    proposal.proposalId reason reasonHash proposal.new
  signed : e.input.env.signers proposal.proposedBy = true
  answer : e.output = .proposed proposal
  revision : ∃ session, e.pre.session proposal.sessionId = some session ∧
    session.revision = proposal.sessionRevision

/-- A proposal that still waits for its answer. -/
structure Pending (s : State) (es : List (Step contract)) (id : Bytes32)
    (proposal : RescheduleProposal) : Prop where
  key : proposal.proposalId = id
  pointer : s.openReschedule proposal.sessionId = some id
  made : ∃ e ∈ es, Proposes e proposal
  names : ∃ session, s.session proposal.sessionId = some session ∧
    session.Names proposal.proposedBy

/-- Whatever is stored as proposed waits for its answer. -/
def Offered (s : State) (es : List (Step contract)) : Prop :=
  ∀ id proposal, s.reschedule id = some proposal → proposal.status = .proposed →
    Pending s es id proposal

/-- Every session is still there, with the same two participants. -/
def SameParties (s s' : State) : Prop :=
  ∀ id session, s.session id = some session →
    ∃ later, s'.session id = some later ∧ later.mentor = session.mentor ∧
      later.mentee = session.mentee

section Proposals

theorem sameParties_of_eq (h : s'.session = s.session) : SameParties s s' := by
  intro id session hstored
  rw [h]
  exact ⟨session, hstored, rfl, rfl⟩

/-- Writing one session keeps the participants of all, when it keeps those of the one in its place. -/
theorem sameParties_write {id : Bytes32} {written : Session}
    (h : s'.session = Function.update s.session id (some written))
    (hwritten : ∀ stored, s.session id = some stored →
      written.mentor = stored.mentor ∧ written.mentee = stored.mentee) : SameParties s s' := by
  intro i session hstored
  rw [h]
  by_cases hi : i = id
  · rw [hi] at hstored
    rw [hi, Function.update_self]
    exact ⟨written, rfl, hwritten session hstored⟩
  · rw [Function.update_of_ne hi]
    exact ⟨session, hstored, rfl, rfl⟩

theorem Effect.sameParties {call : Call} {o : Answer} (h : Effect env s call o s')
    (hs : Booked s) : SameParties s s' := by
  cases h with
  | configure _ hconfigured => exact sameParties_of_eq hconfigured.session
  | replay => exact sameParties_of_eq rfl
  | book _ hvacant =>
    apply sameParties_write rfl
    intro stored hstored
    rw [hvacant] at hstored
    cases hstored
  | reconfirm => exact sameParties_of_eq rfl
  | @confirm caller _ session _ hfound =>
    apply sameParties_write rfl
    intro stored hstored
    obtain ⟨hid, hmentor, hmentee, _⟩ := session.confirm_same caller env.timestamp
    rw [hid, hs.key _ session hfound, hfound, Option.some.injEq] at hstored
    rw [← hstored]
    exact ⟨hmentor, hmentee⟩
  | propose => exact sameParties_of_eq rfl
  | @apply _ _ session proposal _ hfound =>
    apply sameParties_write rfl
    intro stored hstored
    rw [hs.key _ session hfound, hfound, Option.some.injEq] at hstored
    rw [← hstored]
    exact ⟨rfl, rfl⟩
  | decline => exact sameParties_of_eq rfl

/-- A proposal goes on waiting while its session points to it. -/
theorem Pending.later {id : Bytes32} {proposal : RescheduleProposal}
    (h : Pending s es id proposal) (hparties : SameParties s s')
    (hpointer : s'.openReschedule proposal.sessionId = s.openReschedule proposal.sessionId)
    (e : Step contract) : Pending s' (es ++ [e]) id proposal where
  key := h.key
  pointer := hpointer.trans h.pointer
  made := by
    obtain ⟨made, hmade, hproposes⟩ := h.made
    exact ⟨made, List.mem_append_left _ hmade, hproposes⟩
  names := by
    obtain ⟨session, hstored, hnamed⟩ := h.names
    obtain ⟨later, hlater, hmentor, hmentee⟩ := hparties _ session hstored
    rw [Session.Names, ← hmentor, ← hmentee] at hnamed
    exact ⟨later, hlater, hnamed⟩

/-- Two proposals of one session do not wait at once. -/
theorem Offered.unique (hs : Offered s es) {i j : Bytes32} {a b : RescheduleProposal}
    (ha : s.reschedule i = some a) (hb : s.reschedule j = some b) (hopen : a.status = .proposed)
    (hopen' : b.status = .proposed) (hsame : a.sessionId = b.sessionId) : i = j := by
  have hi := (hs i a ha hopen).pointer
  rw [hsame, (hs j b hb hopen').pointer, Option.some.injEq] at hi
  exact hi.symm

theorem Offered.same (hs : Offered s es) (hparties : SameParties s s')
    (hreschedule : s'.reschedule = s.reschedule)
    (hpointers : s'.openReschedule = s.openReschedule) (e : Step contract) :
    Offered s' (es ++ [e]) := by
  intro id proposal hstored hopen
  rw [hreschedule] at hstored
  exact (hs id proposal hstored hopen).later hparties (by rw [hpointers]) e

/-- A new proposal takes the place of the one that its session pointed to. -/
theorem Offered.propose (hs : Offered s es) {proposal : RescheduleProposal}
    (hparties : SameParties s s')
    (hreschedule : s'.reschedule =
      Function.update (s.cleared sessionId) proposalId (some proposal))
    (hpointers : s'.openReschedule = Function.update s.openReschedule sessionId (some proposalId))
    {e : Step contract} (hnew : Pending s' (es ++ [e]) proposalId proposal) :
    Offered s' (es ++ [e]) := by
  intro id stored hstored hopen
  rw [hreschedule] at hstored
  rcases update_row_cases hstored with ⟨rfl, rfl⟩ | ⟨_, hstored⟩
  · exact hnew
  have hearlier : s.reschedule id = some stored ∧ s.openReschedule sessionId ≠ some id := by
    rcases hpointer : s.openReschedule sessionId with _ | openId
    · rw [State.cleared, hpointer] at hstored
      exact ⟨hstored, Option.some_ne_none id |>.symm⟩
    · rw [State.cleared, hpointer] at hstored
      dsimp only at hstored
      by_cases hcleared : id = openId
      · rw [hcleared, Function.update_self] at hstored
        cases hstored
      · rw [Function.update_of_ne hcleared] at hstored
        exact ⟨hstored, fun heq => hcleared (Option.some.inj heq).symm⟩
  have hpending := hs id stored hearlier.1 hopen
  have hother : stored.sessionId ≠ sessionId := by
    intro hsame
    rw [← hsame, hpending.pointer] at hearlier
    exact hearlier.2 rfl
  apply hpending.later hparties
  rw [hpointers, Function.update_of_ne hother]

/-- An answered proposal waits no longer, and its session points to none. -/
theorem Offered.answer (hs : Offered s es) (hb : Booked s) {proposal answered : RescheduleProposal}
    {session : Session} (hfound : s.reschedule proposalId = some proposal)
    (hstored : s.session proposal.sessionId = some session) (hopen : proposal.status = .proposed)
    (hparties : SameParties s s') (hanswered : answered.status ≠ .proposed)
    (hreschedule : s'.reschedule = Function.update s.reschedule proposal.proposalId (some answered))
    (hpointers : s'.openReschedule =
      Function.update s.openReschedule session.sessionId none) (e : Step contract) :
    Offered s' (es ++ [e]) := by
  have hkey := (hs proposalId proposal hfound hopen).key
  have hsession := hb.key _ session hstored
  intro id stored hwaiting hstill
  rw [hreschedule, hkey] at hwaiting
  rcases update_row_cases hwaiting with ⟨_, rfl⟩ | ⟨hid, hold⟩
  · exact absurd hstill hanswered
  · have hother : stored.sessionId ≠ session.sessionId := by
      rw [hsession]
      exact fun hsame => hid (hs.unique hold hfound hstill hopen hsame)
    apply (hs id stored hold hstill).later hparties
    rw [hpointers, Function.update_of_ne hother]

theorem Effect.offered {call : Call} {o : Answer} (h : Effect env s call o s') (hb : Booked s)
    (hs : Offered s es) : Offered s' (es ++ [⟨s, ⟨env, call⟩, o, s'⟩]) := by
  have hparties := h.sameParties hb
  cases h with
  | configure _ hconfigured =>
    exact hs.same hparties hconfigured.reschedule hconfigured.openReschedule _
  | replay => exact hs.same hparties rfl rfl _
  | book => exact hs.same hparties rfl rfl _
  | reconfirm => exact hs.same hparties rfl rfl _
  | confirm => exact hs.same hparties rfl rfl _
  | propose hfound hnamed hsigned _ hid habout hproposedBy hslot hrevision =>
    apply hs.propose hparties rfl rfl
    subst hid habout hproposedBy hslot
    exact {
      key := rfl
      pointer := Function.update_self _ _ _
      made := ⟨_, List.mem_concat_self, ⟨_, _, rfl⟩, hsigned, rfl, _,
        hfound, hrevision.symm⟩
      names := ⟨_, hfound, hnamed⟩ }
  | apply hfound hstored _ _ _ hopen =>
    refine hs.answer hb hfound hstored hopen hparties ?_ rfl rfl _
    intro hstill
    cases hstill
  | decline hfound hstored hopen =>
    refine hs.answer hb hfound hstored hopen hparties ?_ rfl rfl _
    intro hstill
    cases hstill

end Proposals

end Proposing

variable {contract : Address} {env : Env contract} {s s' : State} {es : List (Step contract)}
  {e : Step contract} {id : Bytes32} {session : Session}

/-- The session has been booked at the slot. -/
def BookedAt (es : List (Step contract)) (id : Bytes32) (slot : Slot) : Prop :=
  ∃ e ∈ es, e.pre.session id = none ∧
    ∃ caller agreementId idempotencyKey mode locationRef agendaHash, e.input.call =
      .bookSession caller agreementId id idempotencyKey slot mode locationRef agendaHash

/-- The call by which a proposal has been approved in time, at the revision for which it was made, and
has become the change. -/
structure Approves (e : Step contract) (approver : Address) (proposal : RescheduleProposal)
    (change : ScheduleChange) : Prop where
  call : e.input.call = .approveReschedule approver proposal.proposalId
  signed : e.input.env.signers approver = true
  stored : e.pre.reschedule proposal.proposalId = some proposal
  timely : e.input.env.timestamp ≤ proposal.expiresAt
  changes : ∃ session moved, e.pre.session proposal.sessionId = some session ∧
    session.revision = proposal.sessionRevision ∧
    e.post.session proposal.sessionId = some moved ∧
    moved.rescheduleHistory = session.rescheduleHistory ++ [change]

/-- One participant has proposed the change of revision `k`, and then the other has approved it. -/
def Consented (es : List (Step contract)) (session : Session) (k : Nat) (change : ScheduleChange) :
    Prop :=
  ∃ proposal approver, proposal.sessionId = session.sessionId ∧ proposal.sessionRevision = k ∧
    proposal.proposalId = change.proposalId ∧ proposal.new = change.new ∧
    session.Names proposal.proposedBy ∧ session.Names approver ∧ approver ≠ proposal.proposedBy ∧
    ∃ earlier e later, es = earlier ++ e :: later ∧ (∃ e' ∈ earlier, Proposes e' proposal) ∧
      Approves e approver proposal change

/-- The participant confirms the session. -/
def Confirms (id : Bytes32) (participant : Address) (e : Step contract) : Prop :=
  e.input.call = .confirmSession participant id

/-- The call writes the history of the session: it books the session or applies a change. -/
def Moves (id : Bytes32) (e : Step contract) : Prop :=
  (e.post.session id).map Session.rescheduleHistory ≠
    (e.pre.session id).map Session.rescheduleHistory

/-- What the calls so far have made of a session. -/
structure Traced (es : List (Step contract)) (id : Bytes32) (session : Session) : Prop where
  trail : ∃ booked, BookedAt es id booked ∧
    Trail ScheduleChange.previous ScheduleChange.new booked session.rescheduleHistory session.slot
  revision : session.revision = session.rescheduleHistory.length
  bounded : session.rescheduleHistory.length ≤ maxReschedulesPerSession
  consent : ∀ k change, session.rescheduleHistory[k]? = some change → Consented es session k change
  status : session.status = .confirmed ↔
    session.mentorConfirmedAt ≠ 0 ∧ session.menteeConfirmedAt ≠ 0
  confirmations : ∀ p, session.Names p →
    (session.confirmedAt p ≠ 0 ↔ Since (Confirms id p) (Moves id) es)

section Evidence

theorem BookedAt.later {slot : Slot} (h : BookedAt es id slot) (e : Step contract) :
    BookedAt (es ++ [e]) id slot := by
  obtain ⟨booking, hbooking, hbooked⟩ := h
  exact ⟨booking, List.mem_append_left _ hbooking, hbooked⟩

theorem Consented.later {k : Nat} {change : ScheduleChange} (h : Consented es session k change)
    (e : Step contract) : Consented (es ++ [e]) session k change := by
  obtain ⟨proposal, approver, habout, hrevision, hid, hnew, hproposer, happrover, hother, earlier,
    approval, later, rfl, hproposed, happroves⟩ := h
  exact ⟨proposal, approver, habout, hrevision, hid, hnew, hproposer, happrover, hother, earlier,
    approval, later ++ [e], List.append_assoc _ _ _, hproposed, happroves⟩

theorem Consented.same {k : Nat} {change : ScheduleChange} {other : Session}
    (h : Consented es session k change) (hid : other.sessionId = session.sessionId)
    (hmentor : other.mentor = session.mentor) (hmentee : other.mentee = session.mentee) :
    Consented es other k change := by
  unfold Consented Session.Names at h ⊢
  rwa [hid, hmentor, hmentee]

theorem Traced.status_iff (h : Traced es id session) (hdistinct : session.mentor ≠ session.mentee) :
    session.status = .confirmed ↔ ∀ p, session.Names p → session.confirmedAt p ≠ 0 := by
  have hmentor : session.confirmedAt session.mentor = session.mentorConfirmedAt := if_pos rfl
  have hmentee : session.confirmedAt session.mentee = session.menteeConfirmedAt :=
    if_neg hdistinct.symm
  rw [h.status, ← hmentor, ← hmentee]
  constructor
  · intro hboth p hp
    rcases hp with rfl | rfl
    · exact hboth.1
    · exact hboth.2
  · exact fun hall => ⟨hall _ (.inl rfl), hall _ (.inr rfl)⟩

/-- A session is confirmed when both participants have confirmed it since its last change. -/
theorem Traced.confirmed_iff (h : Traced es id session) (hdistinct : session.mentor ≠ session.mentee) :
    session.status = .confirmed ↔
      ∀ p, session.Names p → Since (Confirms id p) (Moves id) es := by
  rw [h.status_iff hdistinct]
  exact forall₂_congr h.confirmations

/-- A call that leaves a session as it is: whoever confirms has confirmed it before. -/
theorem Traced.later (h : Traced es id session) (hkept : e.post.session id = e.pre.session id)
    (hquiet : ∀ p, Confirms id p e → session.confirmedAt p ≠ 0) : Traced (es ++ [e]) id session where
  trail := by
    obtain ⟨booked, hbooked, htrail⟩ := h.trail
    exact ⟨booked, hbooked.later e, htrail⟩
  revision := h.revision
  bounded := h.bounded
  consent k change hchange := (h.consent k change hchange).later e
  status := h.status
  confirmations := by
    intro p hp
    have hstill : ¬ Moves id e := by
      rw [Moves, hkept]
      exact fun hmoved => hmoved rfl
    rw [since_snoc, ← h.confirmations p hp]
    constructor
    · exact fun hconfirmed => .inr ⟨hconfirmed, hstill⟩
    · intro hsince
      rcases hsince with hnow | ⟨hconfirmed, _⟩
      · exact hquiet p hnow
      · exact hconfirmed

end Evidence

section Writes

/-- A booked session: its history starts with the call. -/
theorem traced_book {caller : Address} {agreementId idempotencyKey locationRef agendaHash : Bytes32}
    {slot : Slot} {mode : SessionMode} {anchor : AgreementAnchor} {now : Nat}
    (hcall : e.input.call =
      .bookSession caller agreementId id idempotencyKey slot mode locationRef agendaHash)
    (hvacant : e.pre.session id = none) (hpost : e.post.session id = some session)
    (hsession : session = anchor.session agreementId id slot mode locationRef agendaHash now) :
    Traced (es ++ [e]) id session where
  trail := by
    rw [hsession]
    exact ⟨slot, ⟨e, List.mem_concat_self, hvacant, _, _, _, _, _, _,
      hcall⟩, trail_nil⟩
  revision := by rw [hsession]; rfl
  bounded := by rw [hsession]; exact Nat.zero_le _
  consent k change hchange := by rw [hsession] at hchange; cases hchange
  status := by
    rw [hsession]
    exact iff_of_false nofun fun hboth => hboth.1 rfl
  confirmations := by
    intro p _
    have hmoves : Moves id e := by
      rw [Moves, hvacant, hpost]
      exact Option.some_ne_none _
    have hnot : ¬ Confirms id p e := by
      rw [Confirms, hcall]
      exact nofun
    have hunconfirmed : session.confirmedAt p = 0 := by
      rw [hsession]
      exact ite_self 0
    rw [since_snoc, hunconfirmed]
    exact iff_of_false (fun h => h rfl) fun h => h.elim hnot fun hearlier => hearlier.2 hmoves

/-- A moved session: one more change, to be confirmed anew. -/
theorem Traced.move (h : Traced es id session) {approver : Address} {proposal : RescheduleProposal}
    {proposalId : Bytes32} {now : Nat} {moved : Session}
    (hmoved : moved = session.moved proposal proposalId now)
    (hcall : e.input.call = .approveReschedule approver proposalId)
    (hpre : e.pre.session id = some session) (hpost : e.post.session id = some moved)
    (hroom : session.rescheduleHistory.length < maxReschedulesPerSession)
    (hconsent : Consented (es ++ [e]) session session.revision
      ⟨proposalId, session.slot, proposal.new, now⟩) : Traced (es ++ [e]) id moved where
  trail := by
    obtain ⟨booked, hbooked, htrail⟩ := h.trail
    rw [hmoved]
    exact ⟨booked, hbooked.later e, htrail.snoc rfl⟩
  revision := by
    have hrevision := h.revision
    rw [hmoved]
    simp only [Session.moved, List.length_append, List.length_singleton]
    unfold maxReschedulesPerSession at hroom
    omega
  bounded := by
    rw [hmoved]
    simp only [Session.moved, List.length_append, List.length_singleton]
    exact hroom
  consent := by
    intro k change hchange
    have hsame : Consented (es ++ [e]) session k change := by
      rw [hmoved] at hchange
      simp only [Session.moved] at hchange
      rcases Nat.lt_trichotomy k session.rescheduleHistory.length with hold | hlast | hbeyond
      · rw [List.getElem?_append_left hold] at hchange
        exact (h.consent k change hchange).later e
      · rw [hlast, List.getElem?_concat_length, Option.some.injEq] at hchange
        rw [← hchange, hlast, ← h.revision]
        exact hconsent
      · rw [List.getElem?_eq_none] at hchange
        · cases hchange
        · rw [List.length_append]
          exact hbeyond
    rw [hmoved]
    exact hsame.same rfl rfl rfl
  status := by
    rw [hmoved]
    exact iff_of_false nofun fun hboth => hboth.1 rfl
  confirmations := by
    intro p _
    have hmoves : Moves id e := by
      rw [Moves, hpre, hpost, hmoved]
      intro hsame
      have hlengths := congrArg List.length (Option.some.inj hsame)
      simp [Session.moved] at hlengths
    have hnot : ¬ Confirms id p e := by
      rw [Confirms, hcall]
      exact nofun
    have hunconfirmed : moved.confirmedAt p = 0 := by
      rw [hmoved]
      exact ite_self 0
    rw [since_snoc, hunconfirmed]
    exact iff_of_false (fun h => h rfl) fun h => h.elim hnot fun hearlier => hearlier.2 hmoves

theorem Session.confirm_times (session : Session) (caller : Address) (now : Nat) :
    (session.confirm caller now).mentorConfirmedAt =
        (if caller = session.mentor then now else session.mentorConfirmedAt) ∧
      (session.confirm caller now).menteeConfirmedAt =
        if caller = session.mentor then session.menteeConfirmedAt else now := by
  unfold Session.confirm
  dsimp only
  split_ifs <;> exact ⟨rfl, rfl⟩

/-- A confirmation sets the time of its caller alone. -/
theorem Session.confirm_confirmedAt {caller : Address} {now : Nat} (hnamed : session.Names caller)
    (hdistinct : session.mentor ≠ session.mentee) {p : Address} (hp : session.Names p) :
    (session.confirm caller now).confirmedAt p =
      if p = caller then now else session.confirmedAt p := by
  obtain ⟨_, hmentor, _⟩ := session.confirm_same caller now
  obtain ⟨hfirst, hsecond⟩ := session.confirm_times caller now
  rw [Session.confirmedAt, Session.confirmedAt, hmentor, hfirst, hsecond]
  by_cases hcaller : caller = session.mentor
  · rw [if_pos hcaller, if_pos hcaller, hcaller]
    split_ifs <;> rfl
  · have hmentee : caller = session.mentee := hnamed.resolve_left hcaller
    rw [if_neg hcaller, if_neg hcaller, hmentee]
    rcases hp with rfl | rfl
    · rw [if_pos rfl, if_neg hdistinct]
      exact (if_pos rfl).symm
    · rw [if_neg hdistinct.symm, if_pos rfl]

/-- A session that was not confirmed is so once both times are there. -/
theorem Session.confirm_status {caller : Address} {now : Nat} (hstatus : session.status ≠ .confirmed) :
    (session.confirm caller now).status = .confirmed ↔
      (session.confirm caller now).mentorConfirmedAt ≠ 0 ∧
        (session.confirm caller now).menteeConfirmedAt ≠ 0 := by
  have hsettles (t : Session) (ht : t.status ≠ .confirmed) :
      ((if t.mentorConfirmedAt ≠ 0 ∧ t.menteeConfirmedAt ≠ 0 then
        { t with status := .confirmed } else t) : Session).status = .confirmed ↔
          t.mentorConfirmedAt ≠ 0 ∧ t.menteeConfirmedAt ≠ 0 := by
    by_cases hboth : t.mentorConfirmedAt ≠ 0 ∧ t.menteeConfirmedAt ≠ 0
    · rw [if_pos hboth]
      exact iff_of_true rfl hboth
    · rw [if_neg hboth]
      exact iff_of_false ht hboth
  obtain ⟨hmentor, hmentee⟩ := session.confirm_times caller now
  rw [hmentor, hmentee]
  by_cases hcaller : caller = session.mentor
  · rw [Session.confirm, if_pos hcaller, if_pos hcaller, if_pos hcaller]
    exact hsettles { session with mentorConfirmedAt := now } hstatus
  · rw [Session.confirm, if_neg hcaller, if_neg hcaller, if_neg hcaller]
    exact hsettles { session with menteeConfirmedAt := now } hstatus

/-- A confirmed session: the participant has confirmed since the last change. -/
theorem Traced.confirm (h : Traced es id session) {caller : Address} {now : Nat}
    {confirmed : Session} (hconfirmed : confirmed = session.confirm caller now)
    (hcall : e.input.call = .confirmSession caller id) (hpre : e.pre.session id = some session)
    (hpost : e.post.session id = some confirmed) (hnamed : session.Names caller)
    (hdistinct : session.mentor ≠ session.mentee) (hstatus : session.status ≠ .confirmed)
    (hnow : 0 < now) : Traced (es ++ [e]) id confirmed := by
  obtain ⟨hid, hmentor, hmentee, hslot, hrevision, hhistory⟩ := session.confirm_same caller now
  rw [← hconfirmed] at hid hmentor hmentee hslot hrevision hhistory
  refine ⟨?_, ?_, ?_, ?_, ?_, ?_⟩
  · obtain ⟨booked, hbooked, htrail⟩ := h.trail
    rw [hslot, hhistory]
    exact ⟨booked, hbooked.later e, htrail⟩
  · rw [hrevision, hhistory]
    exact h.revision
  · rw [hhistory]
    exact h.bounded
  · intro k change hchange
    rw [hhistory] at hchange
    exact ((h.consent k change hchange).later e).same hid hmentor hmentee
  · rw [hconfirmed]
    exact Session.confirm_status hstatus
  · intro p hp
    rw [Session.Names, hmentor, hmentee] at hp
    have hstill : ¬ Moves id e := by
      rw [Moves, hpre, hpost, Option.map_some, Option.map_some, hhistory]
      exact fun hmoved => hmoved rfl
    have hconfirms : Confirms id p e ↔ p = caller := by
      rw [Confirms, hcall]
      constructor
      · intro hsame
        cases hsame
        rfl
      · exact fun hsame => hsame ▸ rfl
    rw [hconfirmed, Session.confirm_confirmedAt hnamed hdistinct hp, since_snoc, hconfirms,
      ← h.confirmations p hp]
    by_cases hcaller : p = caller
    · rw [if_pos hcaller]
      exact iff_of_true (Nat.ne_of_gt hnow) (.inl hcaller)
    · rw [if_neg hcaller]
      simp only [hcaller, hstill, not_false_eq_true, and_true, false_or]

end Writes

end ChainVerse.MentorshipScheduling
