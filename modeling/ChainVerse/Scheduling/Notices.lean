import ChainVerse.Scheduling.Bookings

namespace ChainVerse.MentorshipScheduling

variable {contract : Address} {env : Env contract} {s s' : State} {caller : Address}
  {sessionId proposalId : Bytes32} {slot new : Slot} {session : Session}

section Checks

/-- A slot of an accepted length, shown at an accepted offset. -/
structure ValidTerms (slot : Slot) : Prop where
  duration : minDurationMinutes ≤ slot.durationMinutes ∧ slot.durationMinutes ≤ maxDurationMinutes
  offset : minOffsetMinutes ≤ slot.localOffsetMinutes ∧ slot.localOffsetMinutes ≤ maxOffsetMinutes

theorem validateSlot_eq_ok {u : Unit} :
    validateSlot env s slot = .ok u ↔ ValidTerms slot ∧ env.timestamp < slot.startUtc ∧
      ∃ lead, s.minLeadTime = some lead ∧ env.timestamp + lead < 2^64 ∧
        env.timestamp + lead ≤ slot.startUtc := by
  simp only [validateSlot, bind_eq_ok, exists_unit, refuseIf_eq_ok, orRefuse_eq_ok, fitsU_eq_some,
    not_or, not_lt, not_le]
  constructor
  · rintro ⟨hduration, hoffset, hfuture, lead, hlead, _, ⟨hfits, rfl⟩, hlate⟩
    exact ⟨⟨hduration, hoffset⟩, hfuture, lead, hlead, hfits, hlate⟩
  · rintro ⟨⟨hduration, hoffset⟩, hfuture, lead, hlead, hfits, hlate⟩
    exact ⟨hduration, hoffset, hfuture, lead, hlead, _, ⟨hfits, rfl⟩, hlate⟩

end Checks

section Proposals

/-- Every stored proposal is of a valid slot, and the policy that it was checked against is set. -/
def Proposable (s : State) : Prop :=
  ∀ id proposal, s.reschedule id = some proposal → ValidTerms proposal.new ∧
    (∃ lead, s.minLeadTime = some lead) ∧ ∃ notice, s.rescheduleNotice = some notice

/-- What is left of the proposals when a session's open one is cleared. -/
theorem of_cleared {id : Bytes32} {proposal : RescheduleProposal}
    (h : s.cleared sessionId id = some proposal) : s.reschedule id = some proposal := by
  rcases hopen : s.openReschedule sessionId with _ | openId
  · rwa [State.cleared, hopen] at h
  · rw [State.cleared, hopen] at h
    dsimp only at h
    by_cases hid : id = openId
    · rw [hid, Function.update_self] at h
      cases h
    · rwa [Function.update_of_ne hid] at h

/-- Proposals of valid slots stay so while the policy stays set. -/
theorem Proposable.same (hs : Proposable s) (hreschedule : s'.reschedule = s.reschedule)
    (hlead : s.minLeadTime ≠ none → s'.minLeadTime ≠ none)
    (hnotice : s.rescheduleNotice ≠ none → s'.rescheduleNotice ≠ none) : Proposable s' := by
  intro id proposal hstored
  rw [hreschedule] at hstored
  obtain ⟨hterms, ⟨lead, hset⟩, notice, hset'⟩ := hs id proposal hstored
  refine ⟨hterms, Option.ne_none_iff_exists'.mp (hlead ?_),
    Option.ne_none_iff_exists'.mp (hnotice ?_)⟩
  · rw [hset]
    exact Option.some_ne_none lead
  · rw [hset']
    exact Option.some_ne_none notice

/-- An answer keeps the slot of its proposal. -/
theorem Proposable.answer (hs : Proposable s) {t : State} {id : Bytes32}
    {proposal answered : RescheduleProposal} (hfound : s.reschedule proposalId = some proposal)
    (hrows : t.reschedule = Function.update s.reschedule id (some answered))
    (hslot : answered.new = proposal.new) (hlead : t.minLeadTime = s.minLeadTime)
    (hnotice : t.rescheduleNotice = s.rescheduleNotice) : Proposable t := by
  have hterms := hs proposalId proposal hfound
  rw [← hslot, ← hlead, ← hnotice] at hterms
  unfold Proposable at hs ⊢
  rw [← hlead, ← hnotice] at hs
  exact forall_update_row hs hrows hterms

theorem Effect.proposable {call : Call} {o : Answer} (h : Effect env s call o s')
    (hs : Proposable s) : Proposable s' := by
  cases h with
  | configure _ hconfigured =>
    exact hs.same hconfigured.reschedule hconfigured.lead hconfigured.notice
  | replay => exact hs
  | book => exact hs.same rfl id id
  | reconfirm => exact hs
  | confirm => exact hs.same rfl id id
  | propose _ _ _ _ _ _ _ hslot _ _ hchecked =>
    obtain ⟨⟨notice, hset, _, _⟩, hvalid⟩ := timeChecks_eq_ok.mp hchecked
    obtain ⟨hterms, _, lead, hset', _, _⟩ := validateSlot_eq_ok.mp hvalid
    rw [← hslot] at hterms
    exact forall_update_row (fun id stored hstored => hs id stored (of_cleared hstored)) rfl
      ⟨hterms, ⟨lead, hset'⟩, notice, hset⟩
  | apply hfound =>
    exact hs.answer hfound rfl rfl rfl rfl
  | decline hfound =>
    exact hs.answer hfound rfl rfl rfl rfl

theorem run_proposable (is : List (Input contract)) :
    Proposable ((machine contract).run State.empty is) :=
  Machine.run_invariant (fun _ _ h => nomatch h)
    (fun _ _ _ _ hs h => (step_effect h).proposable hs) is

end Proposals

section Approvals

variable {e : Step contract} {change : ScheduleChange}

/-- An approval that gives a session a new slot and records the change. -/
structure Applies (e : Step contract) (session : Session) (change : ScheduleChange) : Prop where
  approves : ∃ caller proposalId, e.input.call = .approveReschedule caller proposalId
  changes : ∃ id moved, e.pre.session id = some session ∧ e.post.session id = some moved ∧
    moved.slot = change.new ∧ moved.rescheduleHistory = session.rescheduleHistory ++ [change]

/-- The open proposal that an approval finds under its id, and its session. -/
structure Finds (e : Step contract) (proposalId : Bytes32) (proposal : RescheduleProposal)
    (session : Session) : Prop where
  approves : ∃ caller, e.input.call = .approveReschedule caller proposalId
  found : e.pre.reschedule proposalId = some proposal
  stored : e.pre.session proposal.sessionId = some session
  opened : proposal.status = .proposed

/-- An accepted approval of an open proposal gives the session the proposed slot. -/
theorem Finds.moves {proposal : RescheduleProposal} (h : Finds e proposalId proposal session)
    (hs : Booked e.pre)
    (hstep : (machine contract).step e.pre e.input = .ok (e.output, e.post)) :
    proposal.new.endUtc < 2^64 ∧ e.post.session = Function.update e.pre.session proposal.sessionId
      (some (session.moved proposal proposalId e.input.env.timestamp)) := by
  obtain ⟨s, ⟨env, call⟩, o, s'⟩ := e
  obtain ⟨⟨caller, hcall⟩, hfound, hstored, hopened⟩ := h
  dsimp only at hs hstep hcall hfound hstored
  subst hcall
  cases step_effect hstep with
  | configure hconfigures => cases hconfigures
  | replay hreplayed =>
    cases hreplayed with
    | approval hfound' _ happlied =>
      rw [hfound, Option.some.injEq] at hfound'
      rw [← hfound', hopened] at happlied
      cases happlied
  | apply hfound' hstored' _ _ _ _ _ _ _ hfits =>
    obtain rfl := Option.some.inj (hfound'.symm.trans hfound)
    obtain rfl := Option.some.inj (hstored'.symm.trans hstored)
    refine ⟨hfits, ?_⟩
    rw [← hs.key _ _ hstored]

/-- An approval that writes the sessions has found an open proposal. -/
theorem exists_finds (hcall : e.input.call = .approveReschedule caller proposalId)
    (hgrown : e.post.session ≠ e.pre.session)
    (hstep : (machine contract).step e.pre e.input = .ok (e.output, e.post)) :
    ∃ proposal session, Finds e proposalId proposal session := by
  obtain ⟨s, ⟨env, call⟩, o, s'⟩ := e
  dsimp only at hcall hgrown hstep
  subst hcall
  cases step_effect hstep with
  | configure hconfigures => cases hconfigures
  | replay => exact absurd rfl hgrown
  | apply hfound hstored _ _ _ hopen => exact ⟨_, _, ⟨caller, rfl⟩, hfound, hstored, hopen⟩

/-- What an approval applies is the open proposal that it finds, whatever the time has become. -/
theorem applies_iff (hs : Booked e.pre)
    (hstep : (machine contract).step e.pre e.input = .ok (e.output, e.post)) :
    Applies e session change ↔ ∃ proposalId proposal, Finds e proposalId proposal session ∧
      change = ⟨proposalId, session.slot, proposal.new, e.input.env.timestamp⟩ := by
  constructor
  · rintro ⟨⟨caller, proposalId, hcall⟩, key, moved, hbefore, hafter, hslot, hhistory⟩
    have hgrown : e.post.session ≠ e.pre.session := by
      intro hsame
      rw [hsame, hbefore, Option.some.injEq] at hafter
      rw [hafter] at hhistory
      exact List.cons_ne_nil _ _ (List.self_eq_append_right.mp hhistory)
    obtain ⟨proposal, stored, hfinds⟩ := exists_finds hcall hgrown hstep
    rw [(hfinds.moves hs hstep).2] at hafter
    rcases update_row_cases hafter with ⟨rfl, rfl⟩ | ⟨_, hold⟩
    · obtain rfl : stored = session := Option.some.inj (hfinds.stored.symm.trans hbefore)
      refine ⟨proposalId, proposal, hfinds, ?_⟩
      exact (List.cons.inj (List.append_cancel_left hhistory)).1.symm
    · rw [hbefore, Option.some.injEq] at hold
      rw [hold] at hhistory
      exact absurd (List.self_eq_append_right.mp hhistory) (List.cons_ne_nil _ _)
  · rintro ⟨proposalId, proposal, hfinds, rfl⟩
    obtain ⟨caller, hcall⟩ := hfinds.approves
    refine ⟨⟨caller, proposalId, hcall⟩, proposal.sessionId,
      session.moved proposal proposalId e.input.env.timestamp, hfinds.stored, ?_, rfl, rfl⟩
    rw [(hfinds.moves hs hstep).2]
    exact Function.update_self _ _ _

/-- A change that an approval applies moves no session into the past or inside the lead time, and none
that is already inside the notice window. -/
def Noticed (e : Step contract) : Prop :=
  ∀ session change, Applies e session change →
    ∃ lead notice, e.pre.minLeadTime = some lead ∧ e.pre.rescheduleNotice = some notice ∧
      e.input.env.timestamp < change.new.startUtc ∧
      e.input.env.timestamp + lead ≤ change.new.startUtc ∧
      e.input.env.timestamp + notice ≤ session.slot.startUtc

/-- The open proposal that an approval finds would still pass the time checks of a proposal. -/
def Rechecked (e : Step contract) : Prop :=
  ∀ proposalId proposal session, Finds e proposalId proposal session →
    timeChecks e.input.env e.pre session proposal.new = .ok ()

theorem noticed_iff (hs : Booked e.pre) (hproposable : Proposable e.pre)
    (hstep : (machine contract).step e.pre e.input = .ok (e.output, e.post)) :
    Noticed e ↔ Rechecked e := by
  constructor
  · intro hnoticed proposalId proposal session hfinds
    obtain ⟨lead, notice, hlead, hnotice, hfuture, hlate, hearly⟩ := hnoticed session _
      ((applies_iff hs hstep).mpr ⟨proposalId, proposal, hfinds, rfl⟩)
    obtain ⟨hterms, _, _⟩ := hproposable proposalId proposal hfinds.found
    have hfits : proposal.new.startUtc < 2^64 := by
      have hend := (hfinds.moves hs hstep).1
      unfold Slot.endUtc at hend
      omega
    have hstart : session.slot.startUtc < 2^64 := by
      have hend := hs.ending _ session hfinds.stored
      unfold Slot.endUtc at hend
      omega
    dsimp only at hfuture hlate
    exact timeChecks_eq_ok.mpr ⟨⟨notice, hnotice, by omega, hearly⟩,
      validateSlot_eq_ok.mpr ⟨hterms, hfuture, lead, hlead, by omega, hlate⟩⟩
  · intro hrechecked session change happlies
    obtain ⟨proposalId, proposal, hfinds, rfl⟩ := (applies_iff hs hstep).mp happlies
    obtain ⟨⟨notice, hnotice, _, hearly⟩, hvalid⟩ :=
      timeChecks_eq_ok.mp (hrechecked proposalId proposal session hfinds)
    obtain ⟨_, hfuture, lead, hlead, _, hlate⟩ := validateSlot_eq_ok.mp hvalid
    exact ⟨lead, notice, hlead, hnotice, hfuture, hlate, hearly⟩

/-- In every run, no meeting is moved into the past, inside the lead time or inside the notice window
exactly when each approval finds a proposal that would still pass the time checks of a proposal. -/
theorem run_noticed (is : List (Input contract)) :
    (∀ e ∈ (machine contract).journal State.empty is, Noticed e) ↔
      ∀ e ∈ (machine contract).journal State.empty is, Rechecked e := by
  refine forall₂_congr fun e he => ?_
  exact noticed_iff (Machine.journal_found run_booked he) (Machine.journal_found run_proposable he)
    (Machine.journal_step he).1

/-- A session is to be moved forward: the change is proposed at 10, well before the new start. -/
def sampleEarlier : List (Input ⟨0⟩) :=
  [⟨.sample, .initializeContract ⟨1⟩ 60⟩, ⟨.sample, .registerAgreement ⟨1⟩ 7 ⟨2⟩ ⟨3⟩⟩,
    ⟨.sample, .bookSession ⟨2⟩ 7 8 9 ⟨200000, 0, 60⟩ .video 0 0⟩,
    ⟨.sample, .proposeReschedule ⟨2⟩ 8 5 .personal 0 ⟨1000, 0, 60⟩⟩]

/-- It is approved at 5000, after the new start at 1000. -/
theorem sampleEarlier_past :
    ¬ ∀ is : List (Input ⟨0⟩), ∀ e ∈ (machine ⟨0⟩).journal State.empty is, Noticed e := by
  intro hnoticed
  have hstep : ((machine ⟨0⟩).step ((machine ⟨0⟩).run State.empty sampleEarlier)
      ⟨.signedByAll ⟨0⟩ 5000 (by decide), .approveReschedule ⟨3⟩ 5⟩).toOption.isSome = true := by
    decide +kernel
  obtain ⟨⟨o, s'⟩, hsome⟩ := Option.isSome_iff_exists.mp hstep
  have haccepted := toOption_eq_some.mp hsome
  have hproposal : ((machine ⟨0⟩).run State.empty sampleEarlier).reschedule 5 =
      some ⟨5, 8, ⟨2⟩, .personal, 0, ⟨1000, 0, 60⟩, ⟨60, 60, 0, false⟩, 10, 200000, 0, .proposed, none,
        0, 0⟩ := by decide +kernel
  have hsession : ((machine ⟨0⟩).run State.empty sampleEarlier).session 8 =
      some ⟨8, 7, ⟨2⟩, ⟨3⟩, ⟨200000, 0, 60⟩, .video, 0, 0, .booked, 0, 0, 10, 0, []⟩ := by
    decide +kernel
  have hline := hnoticed _ _ (@Machine.mem_journal _ _ _ _ _ _ _ sampleEarlier [] _ _ haccepted)
  obtain ⟨_, _, _, _, hfuture, _⟩ := hline _ _ ((applies_iff (run_booked sampleEarlier) haccepted).mpr
    ⟨5, _, ⟨⟨⟨3⟩, rfl⟩, hproposal, hsession, rfl⟩, rfl⟩)
  have hbefore : 5000 < 1000 := hfuture
  omega

end Approvals

end ChainVerse.MentorshipScheduling
