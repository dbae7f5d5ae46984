import ChainVerse.Scheduling.History
import ChainVerse.Scheduling.Notices

namespace ChainVerse.MentorshipScheduling

section Rescheduling

variable {contract : Address} {env : Env contract} {s s' : State} {es : List (Step contract)}
  {e : Step contract} {id : Bytes32} {session : Session}

/-- What holds after every run, of the store and of the calls that have led to it. -/
structure Kept (s : State) (es : List (Step contract)) : Prop where
  booked : Booked s
  offered : Offered s es
  traced : ∀ id session, s.session id = some session → Traced es id session

section Steps

theorem not_confirms (h : e.input.call.confirms = none) (p : Address) : ¬ Confirms id p e := by
  intro hconfirms
  rw [hconfirms] at h
  cases h

/-- The call leaves every session: whoever confirms one has confirmed it before. -/
theorem Kept.traced_same (hk : Kept s es) (hpre : e.pre = s) (hpost : e.post.session = s.session)
    (hquiet : ∀ id session p, s.session id = some session → Confirms id p e →
      session.confirmedAt p ≠ 0) :
    ∀ id session, e.post.session id = some session → Traced (es ++ [e]) id session := by
  intro id session hstored
  have hkept : e.post.session id = e.pre.session id := by rw [hpost, hpre]
  rw [hpost] at hstored
  exact (hk.traced id session hstored).later hkept fun p => hquiet id session p hstored

theorem Kept.traced_quiet (hk : Kept s es) (hpre : e.pre = s) (hpost : e.post.session = s.session)
    (hquiet : e.input.call.confirms = none) :
    ∀ id session, e.post.session id = some session → Traced (es ++ [e]) id session :=
  hk.traced_same hpre hpost fun _ _ p _ hp => absurd hp (not_confirms hquiet p)

/-- The call writes one session: the others stay as they are. -/
theorem Kept.traced_write (hk : Kept s es) {written : Session} (hpre : e.pre = s)
    (hpost : e.post.session = Function.update s.session id (some written))
    (hwritten : Traced (es ++ [e]) id written) (hquiet : ∀ i p, i ≠ id → ¬ Confirms i p e) :
    ∀ i session, e.post.session i = some session → Traced (es ++ [e]) i session := by
  intro i session hstored
  rw [hpost] at hstored
  rcases update_row_cases hstored with ⟨rfl, rfl⟩ | ⟨hi, hold⟩
  · exact hwritten
  · have hkept : e.post.session i = e.pre.session i := by
      rw [hpost, hpre, Function.update_of_ne hi]
    exact (hk.traced i session hold).later hkept fun p hp => absurd hp (hquiet i p hi)

/-- An approval finds the consent of both: the proposal still waits and was made at this revision. -/
theorem Kept.consented (hk : Kept s es) {caller : Address} {proposal : RescheduleProposal}
    {proposalId : Bytes32} {change : ScheduleChange}
    (hfound : s.reschedule proposalId = some proposal)
    (hstored : s.session proposal.sessionId = some session) (hnamed : session.Names caller)
    (hcounterparty : caller ≠ proposal.proposedBy) (hopen : proposal.status = .proposed)
    (hcurrent : session.revision = proposal.sessionRevision)
    (hid : change.proposalId = proposalId) (hnew : change.new = proposal.new)
    (happroves : Approves e caller proposal change) :
    Consented (es ++ [e]) session session.revision change := by
  have hpending := hk.offered proposalId proposal hfound hopen
  obtain ⟨named, hnames, hproposer⟩ := hpending.names
  rw [hstored, Option.some.injEq] at hnames
  rw [← hnames] at hproposer
  exact ⟨proposal, caller, (hk.booked.key _ session hstored).symm, hcurrent.symm,
    hpending.key.trans hid.symm, hnew.symm, hproposer, hnamed, hcounterparty, es, e, [], rfl,
    hpending.made, happroves⟩

theorem Effect.traced {call : Call} {o : Answer} (h : Effect env s call o s') (hk : Kept s es)
    (hnow : 0 < env.timestamp) : ∀ id session, s'.session id = some session →
      Traced (es ++ [⟨s, ⟨env, call⟩, o, s'⟩]) id session := by
  cases h with
  | configure hconfigures hconfigured =>
    exact hk.traced_quiet (e := ⟨s, ⟨env, _⟩, _, s'⟩) rfl hconfigured.session
      (Call.quiet_of_configures hconfigures)
  | replay hreplayed =>
    exact hk.traced_quiet (e := ⟨s, ⟨env, _⟩, _, s⟩) rfl rfl hreplayed.quiet
  | book _ hvacant =>
    refine hk.traced_write (e := ⟨s, ⟨env, _⟩, _, _⟩) rfl rfl ?_ ?_
    · exact traced_book rfl hvacant (Function.update_self _ _ _) rfl
    · exact fun _ p _ => not_confirms rfl p
  | @reconfirm caller sessionId session answer hfound hnamed halready =>
    apply hk.traced_same (e := ⟨s, ⟨env, _⟩, _, s⟩) rfl rfl
    intro id stored p hstored hp
    cases hp
    rw [hfound, Option.some.injEq] at hstored
    rw [← hstored]
    rcases halready with hconfirmed | hearlier
    · have hdistinct := hk.booked.distinct _ _ hfound
      exact ((hk.traced _ _ hfound).status_iff hdistinct).mp hconfirmed _ hnamed
    · exact hearlier
  | @confirm caller sessionId session both hfound hnamed hunconfirmed =>
    have hid : (session.confirm caller env.timestamp).sessionId = sessionId :=
      (session.confirm_same caller env.timestamp).1.trans (hk.booked.key _ _ hfound)
    have hpost : (putSession s (session.confirm caller env.timestamp)).session =
        Function.update s.session sessionId (some (session.confirm caller env.timestamp)) := by
      rw [putSession, hid]
    refine hk.traced_write (e := ⟨s, ⟨env, _⟩, _, _⟩) rfl hpost ?_ ?_
    · apply (hk.traced _ _ hfound).confirm rfl rfl hfound _ hnamed (hk.booked.distinct _ _ hfound)
        hunconfirmed hnow
      exact (congrFun hpost sessionId).trans (Function.update_self _ _ _)
    · intro i p hi hp
      cases hp
      exact hi rfl
  | propose => exact hk.traced_quiet (e := ⟨s, ⟨env, _⟩, _, _⟩) rfl rfl rfl
  | @apply caller proposalId session proposal hfound hstored hnamed hcounterparty hsigned hopen htimely
      hcurrent hroom =>
    have hid := hk.booked.key _ session hstored
    have hwrite : Function.update s.session session.sessionId
        (some (session.moved proposal proposalId env.timestamp)) =
          Function.update s.session proposal.sessionId
            (some (session.moved proposal proposalId env.timestamp)) := by
      rw [hid]
    have hpost := (congrFun hwrite proposal.sessionId).trans (Function.update_self _ _ _)
    have hkey := (hk.offered _ proposal hfound hopen).key
    refine hk.traced_write (e := ⟨s, ⟨env, _⟩, _, _⟩) rfl hwrite ?_ ?_
    · refine (hk.traced _ _ hstored).move rfl rfl hstored hpost hroom ?_
      apply hk.consented hfound hstored hnamed hcounterparty hopen hcurrent rfl rfl
      refine ⟨?_, hsigned, ?_, htimely, session, _, hstored, hcurrent, hpost, rfl⟩
      · rw [hkey]
      · rw [hkey]
        exact hfound
    · exact fun _ p _ => not_confirms rfl p
  | decline => exact hk.traced_quiet (e := ⟨s, ⟨env, _⟩, _, _⟩) rfl rfl rfl

theorem kept_empty : Kept State.empty ([] : List (Step contract)) where
  booked := booked_empty
  offered _ _ h := nomatch h
  traced _ _ h := nomatch h

end Steps

/-- After every run with positive ledger times, a session's revision counts its changes, of which
there are at most 16 and which lead from the slot that was booked to the slot that it has. Each was
proposed by one participant and approved in time by the other, at one and the same revision. A session
is confirmed when both participants have confirmed it since its last change, and two proposals of one
session never wait at once. -/
theorem run_reschedules (is : List (Input contract)) (hclock : ∀ i ∈ is, 0 < i.env.timestamp) :
    let s := (machine contract).run State.empty is
    let es := (machine contract).journal State.empty is
    (∀ id session, s.session id = some session →
      session.revision = session.rescheduleHistory.length ∧
      session.rescheduleHistory.length ≤ 16 ∧
      (∃ booked, BookedAt es id booked ∧
        Trail ScheduleChange.previous ScheduleChange.new booked session.rescheduleHistory
          session.slot) ∧
      (∀ k change, session.rescheduleHistory[k]? = some change → Consented es session k change) ∧
      (session.status = .confirmed ↔
        ∀ p, p = session.mentor ∨ p = session.mentee → Since (Confirms id p) (Moves id) es)) ∧
    ∀ i j a b, s.reschedule i = some a → s.reschedule j = some b → a.status = .proposed →
      b.status = .proposed → a.sessionId = b.sessionId → i = j := by
  intro s es
  have hpositive : ∀ e ∈ es, 0 < e.input.env.timestamp := by
    intro e he
    obtain ⟨_, _, hstart, _⟩ := Machine.journal_prefix he
    exact hclock _ (hstart.subset List.mem_concat_self)
  have hkept : (∀ e ∈ es, 0 < e.input.env.timestamp) → Kept s es := by
    apply @Machine.run_journal_invariant _ _ _ _ (machine contract)
      (fun s es => (∀ e ∈ es, 0 < e.input.env.timestamp) → Kept s es) _ fun _ => kept_empty
    intro es s i o s' hk h hall
    have hs : Kept s es := hk fun e he => hall e (List.mem_append_left _ he)
    have hnow := hall _ List.mem_concat_self
    have heffect := step_effect h
    exact ⟨heffect.booked hs.booked, heffect.offered hs.booked hs.offered, heffect.traced hs hnow⟩
  have hk := hkept hpositive
  constructor
  · intro id session hstored
    have htraced := hk.traced id session hstored
    exact ⟨htraced.revision, htraced.bounded, htraced.trail, htraced.consent,
      htraced.confirmed_iff (hk.booked.distinct id session hstored)⟩
  · exact fun i j a b ha hb hopen hopen' hsame => hk.offered.unique ha hb hopen hopen' hsame

section Samples

def sampleBooked : Slot := ⟨1000000, 0, 60⟩
def sampleMoved : Slot := ⟨2000000, 120, 45⟩

/-- A session is booked, moved by one participant with the consent of the other, and confirmed. -/
def sampleCalls : List (Input ⟨0⟩) :=
  [⟨.sample, .initializeContract ⟨1⟩ 0⟩, ⟨.sample, .registerAgreement ⟨1⟩ 7 ⟨2⟩ ⟨3⟩⟩,
    ⟨.sample, .bookSession ⟨2⟩ 7 8 9 sampleBooked .video 0 0⟩,
    ⟨.sample, .confirmSession ⟨3⟩ 8⟩,
    ⟨.sample, .proposeReschedule ⟨2⟩ 8 5 .personal 0 sampleMoved⟩,
    ⟨.sampleLater, .approveReschedule ⟨3⟩ 5⟩, ⟨.sampleLater, .confirmSession ⟨2⟩ 8⟩,
    ⟨.sampleLater, .confirmSession ⟨3⟩ 8⟩]

def sampleSession : Session :=
  ⟨8, 7, ⟨2⟩, ⟨3⟩, sampleMoved, .video, 0, 0, .confirmed, 20, 20, 10, 1,
    [⟨5, sampleBooked, sampleMoved, 20⟩]⟩

theorem run_reschedules_sample :
    let es := (machine ⟨0⟩).journal State.empty sampleCalls
    Consented es sampleSession 0 ⟨5, sampleBooked, sampleMoved, 20⟩ ∧
      Since (Confirms 8 ⟨2⟩) (Moves 8) es ∧ Since (Confirms 8 ⟨3⟩) (Moves 8) es := by
  have hstored : ((machine ⟨0⟩).run State.empty sampleCalls).session 8 = some sampleSession := by
    decide
  have hsession := (run_reschedules sampleCalls (by decide)).1 8 sampleSession hstored
  obtain ⟨_, _, _, hconsent, hconfirmed⟩ := hsession
  have hboth := hconfirmed.mp rfl
  exact ⟨hconsent 0 _ rfl, hboth ⟨2⟩ (.inl rfl), hboth ⟨3⟩ (.inr rfl)⟩

end Samples

end Rescheduling

variable {contract : Address} {env env' : Env contract} {s s' t : State} {caller : Address}
  {agreementId sessionId idempotencyKey locationRef agendaHash id : Bytes32} {slot : Slot}
  {mode : SessionMode} {session : Session}

section Frame

/-- The fields of a booking that nothing rewrites once it is made. -/
structure Session.Alike (later session : Session) : Prop where
  mode : later.mode = session.mode
  locationRef : later.locationRef = session.locationRef
  agendaHash : later.agendaHash = session.agendaHash

theorem Session.Alike.refl (session : Session) : session.Alike session := ⟨rfl, rfl, rfl⟩

theorem Session.Alike.trans {a b c : Session} (hab : b.Alike a) (hbc : c.Alike b) : c.Alike a :=
  ⟨hbc.mode.trans hab.mode, hbc.locationRef.trans hab.locationRef,
    hbc.agendaHash.trans hab.agendaHash⟩

theorem Session.confirm_alike (session : Session) (caller : Address) (now : Nat) :
    (session.confirm caller now).Alike session := by
  unfold Session.confirm
  dsimp only
  split_ifs <;> exact ⟨rfl, rfl, rfl⟩

theorem Session.moved_alike (session : Session) (proposal : RescheduleProposal) (proposalId : Bytes32)
    (now : Nat) : (session.moved proposal proposalId now).Alike session :=
  ⟨rfl, rfl, rfl⟩

/-- What a retry is recognised by, from one store to a later one: the two sides of an agreement, the
session under an idempotency key, and the fields of a session that stay. -/
structure Keeps (s s' : State) : Prop where
  parties : ∀ id anchor, s.agreement id = some anchor → ∃ later, s'.agreement id = some later ∧
    later.mentor = anchor.mentor ∧ later.mentee = anchor.mentee
  keys : ∀ key id, s.bookingIdem key = some id → s'.bookingIdem key = some id
  payloads : ∀ id session, s.session id = some session → ∃ later, s'.session id = some later ∧
    later.Alike session

theorem Keeps.refl (s : State) : Keeps s s where
  parties _ anchor hanchor := ⟨anchor, hanchor, rfl, rfl⟩
  keys _ _ hkey := hkey
  payloads _ session hsession := ⟨session, hsession, .refl session⟩

theorem Keeps.trans {a b c : State} (hab : Keeps a b) (hbc : Keeps b c) : Keeps a c where
  parties := by
    intro id anchor hanchor
    obtain ⟨later, hlater, hmentor, hmentee⟩ := hab.parties id anchor hanchor
    obtain ⟨last, hlast, hmentor', hmentee'⟩ := hbc.parties id later hlater
    exact ⟨last, hlast, hmentor'.trans hmentor, hmentee'.trans hmentee⟩
  keys key id hkey := hbc.keys key id (hab.keys key id hkey)
  payloads := by
    intro id session hsession
    obtain ⟨later, hlater, halike⟩ := hab.payloads id session hsession
    obtain ⟨last, hlast, halike'⟩ := hbc.payloads id later hlater
    exact ⟨last, hlast, halike.trans halike'⟩

/-- The bookings are not written. -/
theorem Keeps.same (hparties : ∀ id anchor, s.agreement id = some anchor →
      ∃ later, s'.agreement id = some later ∧ later.mentor = anchor.mentor ∧ later.mentee = anchor.mentee)
    (hkeys : s'.bookingIdem = s.bookingIdem) (hsession : s'.session = s.session) : Keeps s s' := by
  refine ⟨hparties, ?_, ?_⟩
  · rw [hkeys]
    exact (Keeps.refl s).keys
  · rw [hsession]
    exact (Keeps.refl s).payloads

/-- Only one session is written, in the place of one like it. -/
theorem Keeps.rewrite {stored : Session} (hstored : s.session id = some stored)
    (halike : session.Alike stored) (hagreement : s'.agreement = s.agreement)
    (hkeys : s'.bookingIdem = s.bookingIdem)
    (hsession : s'.session = Function.update s.session id (some session)) : Keeps s s' where
  parties := parties_same hagreement
  keys := by
    rw [hkeys]
    exact (Keeps.refl s).keys
  payloads := by
    intro i known hknown
    rw [hsession]
    by_cases hi : i = id
    · rw [hi, hstored, Option.some.injEq] at hknown
      rw [hi, Function.update_self]
      exact ⟨session, rfl, hknown ▸ halike⟩
    · rw [Function.update_of_ne hi]
      exact ⟨known, hknown, .refl known⟩

end Frame

section Steps

theorem Effect.keeps {call : Call} {o : Answer} (h : Effect env s call o s') (hs : Booked s) :
    Keeps s s' := by
  cases h with
  | configure _ hconfigured =>
    exact .same hconfigured.parties hconfigured.bookingIdem hconfigured.session
  | replay => exact .refl _
  | book _ hvacant _ _ _ _ _ _ hfresh =>
    refine ⟨(Keeps.refl s).parties, fun key id hkey => update_keeps_row hfresh hkey, ?_⟩
    intro id session hsession
    exact ⟨session, update_keeps_row hvacant hsession, .refl session⟩
  | reconfirm => exact .refl _
  | @confirm caller sessionId session _ hfound =>
    have hid : (session.confirm caller env.timestamp).sessionId = sessionId :=
      (session.confirm_same caller env.timestamp).1.trans (hs.key sessionId session hfound)
    refine .rewrite hfound (session.confirm_alike caller env.timestamp) rfl rfl ?_
    rw [putSession, hid]
  | propose => exact .same (parties_same rfl) rfl rfl
  | @apply _ proposalId session proposal _ hstored =>
    refine .rewrite hstored (session.moved_alike proposal proposalId env.timestamp) rfl rfl ?_
    rw [← hs.key _ session hstored]
  | decline => exact .same (parties_same rfl) rfl rfl

theorem run_keeps (hs : Booked s) (js : List (Input contract)) :
    Keeps s ((machine contract).run s js) :=
  Machine.run_relation Keeps.refl (fun _ _ _ => Keeps.trans) hs
    (fun _ _ _ _ hs h => (step_effect h).booked hs) (fun _ _ _ _ hs h => (step_effect h).keeps hs) js

end Steps

section Retries

/-- A session that was booked by a call, with what the call's retry is compared with but the slot. -/
structure Remembers (s : State) (caller : Address)
    (agreementId idempotencyKey locationRef agendaHash id : Bytes32) (mode : SessionMode) : Prop where
  party : ∃ anchor, s.agreement agreementId = some anchor ∧
    (caller = anchor.mentor ∨ caller = anchor.mentee)
  key : s.bookingIdem (agreementId, caller, idempotencyKey) = some id
  stored : ∃ session, s.session id = some session ∧ session.mode = mode ∧
    session.locationRef = locationRef ∧ session.agendaHash = agendaHash

theorem remembers_booked
    (h : bookSession env s caller agreementId sessionId idempotencyKey slot mode locationRef
      agendaHash = .ok (id, s')) :
    Remembers s' caller agreementId idempotencyKey locationRef agendaHash id mode := by
  cases bookSession_effect h with
  | replay hreplayed =>
    cases hreplayed with
    | booking hfound hparty hkey hstored hsame =>
      exact ⟨⟨_, hfound, hparty⟩, hkey, _, hstored, hsame.2⟩
  | book hfound _ _ _ _ _ _ hparty =>
    refine ⟨⟨_, hfound, hparty⟩, Function.update_self _ _ _, _, Function.update_self _ _ _, ?_⟩
    exact ⟨rfl, rfl, rfl⟩

/-- A booking that is accepted under a known key finds its session at the slot of the call. -/
theorem bookSession_again {answered : Bytes32}
    (hkey : s.bookingIdem (agreementId, caller, idempotencyKey) = some id)
    (h : bookSession env s caller agreementId sessionId idempotencyKey slot mode locationRef
      agendaHash = .ok (answered, s')) :
    ∃ session, s.session id = some session ∧ session.slot = slot := by
  cases bookSession_effect h with
  | replay hreplayed =>
    cases hreplayed with
    | booking _ _ hknown hstored hsame =>
      obtain rfl := Option.some.inj (hknown.symm.trans hkey)
      exact ⟨_, hstored, hsame.1⟩
  | book _ _ _ _ _ _ _ _ hfresh =>
    rw [hkey] at hfresh
    cases hfresh

theorem Remembers.later (hs : Keeps s t)
    (h : Remembers s caller agreementId idempotencyKey locationRef agendaHash id mode) :
    Remembers t caller agreementId idempotencyKey locationRef agendaHash id mode := by
  obtain ⟨⟨anchor, hanchor, hparty⟩, hkey, session, hsession, hmode, hlocation, hagenda⟩ := h
  obtain ⟨now, hnow, hmentor, hmentee⟩ := hs.parties _ anchor hanchor
  obtain ⟨stored, hstored, halike⟩ := hs.payloads _ session hsession
  refine ⟨⟨now, hnow, ?_⟩, hs.keys _ _ hkey, stored, hstored, halike.mode.trans hmode,
    halike.locationRef.trans hlocation, halike.agendaHash.trans hagenda⟩
  rwa [hmentor, hmentee]

/-- A retry is recognised exactly while the session keeps the slot of the call. -/
theorem Remembers.retry_iff {anchor : AgreementAnchor}
    (h : Remembers s caller agreementId idempotencyKey locationRef agendaHash id mode)
    (hfound : s.agreement agreementId = some anchor) (hactive : anchor.active = true)
    (hsigned : env.signers caller = true) :
    bookSession env s caller agreementId sessionId idempotencyKey slot mode locationRef agendaHash =
        .ok (id, s) ↔ ∃ session, s.session id = some session ∧ session.slot = slot := by
  constructor
  · exact bookSession_again h.key
  · rintro ⟨session, hsession, hslot⟩
    obtain ⟨⟨named, hnamed, hparty⟩, hkey, stored, hstored, hsame⟩ := h
    obtain rfl : named = anchor := Option.some.inj (hnamed.symm.trans hfound)
    obtain rfl : stored = session := Option.some.inj (hstored.symm.trans hsession)
    have houtside : ¬ (caller ≠ named.mentor ∧ caller ≠ named.mentee) := by
      rwa [not_and_or, not_not, not_not]
    simp only [bookSession, loadAgreement, loadSession, bind_eq_ok, exists_unit, orRefuse_eq_ok,
      refuseIf_eq_ok]
    refine ⟨named, hnamed, ?_, houtside, ?_, ?_⟩
    · rw [hactive]
      exact Bool.noConfusion
    · exact requireAuth_eq_ok.mpr hsigned
    · simp only [hkey, bind_eq_ok, exists_unit, orRefuse_eq_ok, refuseIf_eq_ok, pure_eq_ok, not_not]
      exact ⟨stored, hstored, ⟨hslot, hsame⟩, trivial⟩

/-- After every run, the retry of a booking under its agreement, still active, returns the session that
was booked and leaves the store, whatever calls came in between, exactly when that session has the slot
of the call. -/
theorem run_retries {anchor : AgreementAnchor} (is js : List (Input contract))
    (hbooked : bookSession env ((machine contract).run State.empty is) caller agreementId sessionId
      idempotencyKey slot mode locationRef agendaHash = .ok (id, s))
    (hfound : ((machine contract).run s js).agreement agreementId = some anchor)
    (hactive : anchor.active = true) (hsigned : env'.signers caller = true) :
    bookSession env' ((machine contract).run s js) caller agreementId sessionId idempotencyKey slot
        mode locationRef agendaHash = .ok (id, (machine contract).run s js) ↔
      ∃ session, ((machine contract).run s js).session id = some session ∧ session.slot = slot := by
  have hs : Booked s := by
    have hstep : (machine contract).step ((machine contract).run State.empty is)
        ⟨env, .bookSession caller agreementId sessionId idempotencyKey slot mode locationRef
          agendaHash⟩ = .ok (.booked id, s) := by
      simp only [machine, execute, map_eq_ok]
      exact ⟨_, hbooked, rfl⟩
    exact (step_effect hstep).booked (run_booked is)
  exact ((remembers_booked hbooked).later (run_keeps hs js)).retry_iff hfound hactive hsigned

/-- A confirmed session has the slot that it was booked in: the retry returns it. -/
theorem run_retries_sample :
    bookSession .sampleLater ((machine ⟨0⟩).run State.empty (sampleCalls.take 4)) ⟨2⟩ 7 8 9 sampleBooked
      .video 0 0 = .ok (8, (machine ⟨0⟩).run State.empty (sampleCalls.take 4)) := by
  have hbooked : bookSession .sample ((machine ⟨0⟩).run State.empty (sampleCalls.take 2)) ⟨2⟩ 7 8 9
      sampleBooked .video 0 0 = .ok (8, (machine ⟨0⟩).run State.empty (sampleCalls.take 3)) := rfl
  have hfound : ((machine ⟨0⟩).run State.empty (sampleCalls.take 4)).agreement 7 =
      some ⟨7, ⟨2⟩, ⟨3⟩, true, 10⟩ := rfl
  apply (run_retries (sampleCalls.take 2) [⟨.sample, .confirmSession ⟨3⟩ 8⟩] hbooked hfound rfl rfl).mpr
  exact ⟨⟨8, 7, ⟨2⟩, ⟨3⟩, sampleBooked, .video, 0, 0, .booked, 0, 10, 10, 0, []⟩, rfl, rfl⟩

/-- A moved session no longer has it: the retry of its booking is refused. -/
theorem sampleCalls_refused :
    ¬ ∀ (is js : List (Input ⟨0⟩)) (env env' : Env ⟨0⟩) (caller : Address)
      (agreementId sessionId idempotencyKey locationRef agendaHash id : Bytes32) (slot : Slot)
      (mode : SessionMode) (s : State) (anchor : AgreementAnchor),
      bookSession env ((machine ⟨0⟩).run State.empty is) caller agreementId sessionId idempotencyKey slot
        mode locationRef agendaHash = .ok (id, s) →
      ((machine ⟨0⟩).run s js).agreement agreementId = some anchor → anchor.active = true →
      env'.signers caller = true →
      bookSession env' ((machine ⟨0⟩).run s js) caller agreementId sessionId idempotencyKey slot mode
        locationRef agendaHash = .ok (id, (machine ⟨0⟩).run s js) := by
  intro hidempotent
  have hretry : bookSession .sampleLater ((machine ⟨0⟩).run State.empty sampleCalls) ⟨2⟩ 7 8 9
      sampleBooked .video 0 0 = .ok (8, (machine ⟨0⟩).run State.empty sampleCalls) :=
    hidempotent (sampleCalls.take 2) (sampleCalls.drop 3) .sample .sampleLater ⟨2⟩ 7 8 9 0 0 8
      sampleBooked .video ((machine ⟨0⟩).run State.empty (sampleCalls.take 3)) ⟨7, ⟨2⟩, ⟨3⟩, true, 10⟩ rfl
      rfl rfl rfl
  have hrefused : bookSession .sampleLater ((machine ⟨0⟩).run State.empty sampleCalls) ⟨2⟩ 7 8 9
      sampleBooked .video 0 0 = .error (.err .idempotencyConflict) := rfl
  rw [hrefused] at hretry
  cases hretry

end Retries

end ChainVerse.MentorshipScheduling
