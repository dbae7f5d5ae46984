import ChainVerse.Slots.Contract

namespace ChainVerse.MentorshipSlots

open MentorshipAvailability (AvailabilitySummary AvailableRange)

variable {contract : Address} {env : Env contract} {peers : Peers} {s s' : State}

def Booking.Involves (b : Booking) (p : Address) : Prop := b.mentor = p ∨ b.mentee = p

instance (b : Booking) (p : Address) : Decidable (b.Involves p) :=
  inferInstanceAs (Decidable (_ ∨ _))

def Booking.Shares (b b' : Booking) : Prop := ∃ p, b.Involves p ∧ b'.Involves p

/-- The state with one more booking, listed for both participants. -/
def State.withBooking (s : State) (id : Bytes32) (b : Booking) : State :=
  { s with
    booking := Function.update s.booking id (some b)
    bookingIds := fun p => if b.Involves p then s.bookingIds p ++ [id] else s.bookingIds p }

section Specs

theorem validateParticipantSlot_eq_ok {summary : AvailabilitySummary} {bookings : List Booking}
    {startTs endTs : Nat} {ranges : List AvailableRange} {blackouts : List Blackout}
    {programId : Bytes32} {maxSessions : Nat} {u : Unit} :
    validateParticipantSlot summary bookings startTs endTs ranges blackouts programId maxSessions
        = .ok u ↔
      summary.enabled = true ∧ rangesCover ranges startTs endTs = true ∧
      blackoutOverlaps blackouts programId startTs endTs = false ∧
      bookingsConflict bookings startTs endTs summary.bufferBeforeSeconds
        summary.bufferAfterSeconds = false ∧
      ∃ sessions, sessionsOnDay bookings startTs = .ok sessions ∧ sessions < maxSessions := by
  simp [validateParticipantSlot]

/-- The lead times and the booking horizons of both participants allow the session. -/
def Timely (env : Env contract) (mentor mentee : AvailabilitySummary) (policy : ProgramPolicy)
    (startTs endTs : Nat) : Prop :=
  endTs = startTs + policy.durationSeconds ∧ endTs < 2^64 ∧
  env.timestamp + max mentor.leadTimeSeconds mentee.leadTimeSeconds ≤ startTs ∧
  mentor.bookingHorizonDays * secondsPerDay < 2^64 ∧
  mentee.bookingHorizonDays * secondsPerDay < 2^64 ∧
  env.timestamp + min (mentor.bookingHorizonDays * secondsPerDay)
    (mentee.bookingHorizonDays * secondsPerDay) < 2^64 ∧
  endTs ≤ env.timestamp + min (mentor.bookingHorizonDays * secondsPerDay)
    (mentee.bookingHorizonDays * secondsPerDay)

/-- One participant is available for the session and free of other sessions. -/
def Takes (peers : Peers) (s : State) (p : Address) (summary : AvailabilitySummary)
    (policy : ProgramPolicy) (startTs endTs : Nat) : Prop :=
  ∃ ranges, readRanges peers s p startTs endTs = .ok ranges ∧
    validateParticipantSlot summary (participantBookings s p) startTs endTs ranges
      (loadBlackouts s) policy.programId policy.maxSessionsPerDay = .ok ()

theorem validateSlot_eq_ok {mentor mentee : Address} {policy : ProgramPolicy}
    {startTs endTs : Nat} :
    validateSlot env peers s mentor mentee policy startTs = .ok endTs ↔
      ∃ mentorSummary menteeSummary, readSummary peers s mentor = .ok mentorSummary ∧
        readSummary peers s mentee = .ok menteeSummary ∧
        Timely env mentorSummary menteeSummary policy startTs endTs ∧
        Takes peers s mentor mentorSummary policy startTs endTs ∧
        Takes peers s mentee menteeSummary policy startTs endTs := by
  simp only [validateSlot, bind_eq_ok, orRefuse_eq_ok, fitsU_eq_some, refuseIf_eq_ok, exists_unit,
    not_lt, pure_eq_ok, Timely, Takes]
  constructor
  · rintro ⟨sm, hsm, sn, hsn, _, ⟨hends, rfl⟩, _, ⟨_, rfl⟩, hlead, _, ⟨hh, rfl⟩, _, ⟨hh', rfl⟩, _,
      ⟨hlatest, rfl⟩, hhorizon, rs, hrs, qs, hqs, hm, hn, rfl⟩
    exact ⟨sm, sn, hsm, hsn, ⟨rfl, hends, hlead, hh, hh', hlatest, hhorizon⟩, ⟨rs, hrs, hm⟩,
      ⟨qs, hqs, hn⟩⟩
  · rintro ⟨sm, sn, hsm, hsn, ⟨rfl, hends, hlead, hh, hh', hlatest, hhorizon⟩, ⟨rs, hrs, hm⟩,
      ⟨qs, hqs, hn⟩⟩
    exact ⟨sm, hsm, sn, hsn, _, ⟨hends, rfl⟩, _, ⟨by omega, rfl⟩, hlead, _, ⟨hh, rfl⟩, _,
      ⟨hh', rfl⟩, _, ⟨hlatest, rfl⟩, hhorizon, rs, hrs, qs, hqs, hm, hn, rfl⟩

theorem appendBookingId_eq_ok {p : Address} {id : Bytes32} :
    appendBookingId s p id = .ok s' ↔
      (s.bookingIds p).length < maxBookingsPerParticipant ∧
        { s with bookingIds :=
          Function.update s.bookingIds p (s.bookingIds p ++ [id]) } = s' := by
  simp [appendBookingId]

/-- Who may book, whatever the slot. -/
def MayBook (env : Env contract) (s : State) (caller mentor mentee : Address) (id : Bytes32) :
    Prop :=
  (caller = mentor ∨ caller = mentee) ∧ mentor ≠ mentee ∧ id ≠ 0 ∧
    env.signers mentor = true ∧ env.signers mentee = true ∧
    (s.bookingIds mentor).length < maxBookingsPerParticipant ∧
    (s.bookingIds mentee).length < maxBookingsPerParticipant

/-- The record of a new session. -/
def newRecord (env : Env contract) (id : Bytes32) (mentor mentee : Address) (programId : Bytes32)
    (startTs endTs : Nat) : Booking :=
  ⟨id, mentor, mentee, programId, startTs, endTs, .active, env.timestamp⟩

theorem newBooking_eq_ok {id programId : Bytes32} {mentor mentee : Address}
    {policy : ProgramPolicy} {startTs endTs : Nat} (hparties : mentor ≠ mentee) :
    newBooking env peers s id mentor mentee policy programId startTs = .ok (endTs, s') ↔
      env.signers mentor = true ∧ env.signers mentee = true ∧
      validateSlot env peers s mentor mentee policy startTs = .ok endTs ∧
      (s.bookingIds mentor).length < maxBookingsPerParticipant ∧
      (s.bookingIds mentee).length < maxBookingsPerParticipant ∧
      s' = s.withBooking id (newRecord env id mentor mentee programId startTs endTs) := by
  have hids : Function.update (Function.update s.bookingIds mentor (s.bookingIds mentor ++ [id]))
      mentee (s.bookingIds mentee ++ [id]) = fun p =>
        if mentor = p ∨ mentee = p then s.bookingIds p ++ [id] else s.bookingIds p := by
    funext p
    rcases eq_or_ne p mentee with rfl | hmentee
    · simp
    · rcases eq_or_ne p mentor with rfl | hmentor
      · simp [hmentee]
      · simp [hmentee, hmentor, hmentor.symm, hmentee.symm]
  simp only [newBooking, bind_eq_ok, requireAuth_eq_ok, exists_unit, pure_eq_ok, Prod.mk.injEq,
    appendBookingId_eq_ok, State.withBooking, newRecord, Booking.Involves]
  constructor
  · rintro ⟨hm, hn, _, hvalid, _, ⟨hlen, rfl⟩, _, ⟨hlen', rfl⟩, rfl, rfl⟩
    simp only [Function.update_of_ne hparties.symm] at hlen' ⊢
    exact ⟨hm, hn, hvalid, hlen, hlen', by rw [hids]; rfl⟩
  · rintro ⟨hm, hn, hvalid, hlen, hlen', rfl⟩
    refine ⟨hm, hn, endTs, hvalid, _, ⟨hlen, rfl⟩, _, ⟨?_, rfl⟩, rfl, ?_⟩
    · simpa only [Function.update_of_ne hparties.symm] using hlen'
    · simp only [Function.update_of_ne hparties.symm, hids]
      rfl

/-- Booking under a new id: who may, under which policy, on which validated slot. -/
theorem bookSlot_eq_ok {caller mentor mentee : Address} {id programId : Bytes32}
    {startTs endTs : Nat} (hfresh : s.booking id = none) :
    bookSlot env peers s caller id mentor mentee programId startTs = .ok (endTs, s') ↔
      MayBook env s caller mentor mentee id ∧ ∃ policy, s.policy programId = some policy ∧
        validateSlot env peers s mentor mentee policy startTs = .ok endTs ∧
        s' = s.withBooking id (newRecord env id mentor mentee programId startTs endTs) := by
  simp only [bookSlot, hfresh, bind_eq_ok, refuseIf_eq_ok, exists_unit, loadPolicy, orRefuse_eq_ok,
    MayBook]
  constructor
  · rintro ⟨hcaller, hparties, hid, policy, hpolicy, h⟩
    obtain ⟨hm, hn, hvalid, hlen, hlen', rfl⟩ := (newBooking_eq_ok hparties).mp h
    exact ⟨⟨by tauto, hparties, hid, hm, hn, hlen, hlen'⟩, policy, hpolicy, hvalid, rfl⟩
  · rintro ⟨⟨hcaller, hparties, hid, hm, hn, hlen, hlen'⟩, policy, hpolicy, hvalid, rfl⟩
    exact ⟨by tauto, hparties, hid, policy, hpolicy,
      (newBooking_eq_ok hparties).mpr ⟨hm, hn, hvalid, hlen, hlen', rfl⟩⟩

end Specs

/-- What an accepted call can have done to the bookings. -/
inductive Effect (s : State) : State → Prop where
  | same {s' : State} (bookings : s'.booking = s.booking) (ids : s'.bookingIds = s.bookingIds) :
      Effect s s'
  | booked {id : Bytes32} {b : Booking} (fresh : s.booking id = none) (ends : b.endTs < 2^64)
      (parties : b.mentor ≠ b.mentee)
      (clear : ∀ p, b.Involves p → ∃ before after,
        bookingsConflict (participantBookings s p) b.startTs b.endTs before after = false) :
      Effect s (s.withBooking id b)
  | cancelled {id : Bytes32} {b : Booking} (stored : s.booking id = some b)
      (active : b.state = .active) : Effect s
        { s with booking := Function.update s.booking id (some { b with state := .cancelled }) }

section Effects

theorem bookSlot_effect {caller mentor mentee : Address} {id programId : Bytes32}
    {startTs endTs : Nat}
    (h : bookSlot env peers s caller id mentor mentee programId startTs = .ok (endTs, s')) :
    Effect s s' := by
  rcases hrow : s.booking id with _ | existing
  · obtain ⟨⟨_, hparties, _⟩, policy, _, hvalid, rfl⟩ := (bookSlot_eq_ok hrow).mp h
    obtain ⟨sm, sn, _, _, htimely, ⟨_, _, hm⟩, ⟨_, _, hn⟩⟩ := validateSlot_eq_ok.mp hvalid
    refine .booked hrow htimely.2.1 hparties ?_
    rintro p (rfl | rfl)
    · exact ⟨_, _, (validateParticipantSlot_eq_ok.mp hm).2.2.2.1⟩
    · exact ⟨_, _, (validateParticipantSlot_eq_ok.mp hn).2.2.2.1⟩
  · simp only [bookSlot, hrow, bind_eq_ok, pure_eq_ok, Prod.mk.injEq] at h
    obtain ⟨_, _, _, _, _, _, _, _, _, _, _, rfl⟩ := h
    exact .same rfl rfl

/-- What an accepted entry point has done to the bookings. -/
theorem execute_effect {call : Call} {o : Option Nat}
    (h : execute env peers s call = .ok (o, s')) : Effect s s' := by
  cases call with
  | bookSlot caller id mentor mentee programId startTs =>
    simp only [execute, bind_eq_ok, Prod.exists, pure_eq_ok, Prod.mk.injEq] at h
    obtain ⟨endTs, _, hbook, _, rfl⟩ := h
    exact bookSlot_effect hbook
  | cancelBooking caller id =>
    simp only [execute, cancelBooking, map_eq_ok, bind_eq_ok, orRefuse_eq_ok, refuseIf_eq_ok,
      exists_unit, not_not, pure_eq_ok, Prod.mk.injEq] at h
    obtain ⟨_, ⟨_, b, hrow, _, hactive, rfl⟩, _, rfl⟩ := h
    exact .cancelled hrow hactive
  | setProgramPolicy admin programId duration granularity maxSessions =>
    simp only [execute, setProgramPolicy, map_eq_ok, bind_eq_ok, exists_unit, Prod.mk.injEq] at h
    obtain ⟨_, ⟨_, h⟩, _, rfl⟩ := h
    split at h
    · simp only [bind_eq_ok, refuseIf_eq_ok, exists_unit, pure_eq_ok] at h
      obtain ⟨_, _, _, rfl⟩ := h
      exact .same rfl rfl
    · simp at h
  | initializeContract admin availability =>
    simp only [execute, initializeContract, map_eq_ok, bind_eq_ok, exists_unit, pure_eq_ok,
      Prod.mk.injEq] at h
    obtain ⟨_, ⟨_, _, rfl⟩, _, rfl⟩ := h
    exact .same rfl rfl
  | setAvailabilityContract admin availability =>
    simp only [execute, setAvailabilityContract, map_eq_ok, bind_eq_ok, exists_unit, pure_eq_ok,
      Prod.mk.injEq] at h
    obtain ⟨_, ⟨_, rfl⟩, _, rfl⟩ := h
    exact .same rfl rfl
  | setBlackout admin id programId fromTs untilTs =>
    simp only [execute, setBlackout, map_eq_ok, bind_eq_ok, exists_unit, pure_eq_ok,
      Prod.mk.injEq] at h
    obtain ⟨_, ⟨_, _, _, _, _, rfl⟩, _, rfl⟩ := h
    exact .same rfl rfl
  | removeBlackout admin id =>
    simp only [execute, removeBlackout, map_eq_ok, bind_eq_ok, exists_unit, pure_eq_ok,
      Prod.mk.injEq] at h
    obtain ⟨_, ⟨_, _, rfl⟩, _, rfl⟩ := h
    exact .same rfl rfl

end Effects

/-- Every booking is in the lists of its two participants, every listed id is a booking, and
active bookings that share a participant do not overlap. -/
structure Consistent (s : State) : Prop where
  parties : ∀ id b, s.booking id = some b → b.mentor ≠ b.mentee
  ends : ∀ id b, s.booking id = some b → b.endTs < 2^64
  listed : ∀ id b p, s.booking id = some b → b.Involves p → id ∈ s.bookingIds p
  stored : ∀ id p, id ∈ s.bookingIds p → s.booking id ≠ none
  apart : ∀ id b id' b', s.booking id = some b → s.booking id' = some b' → id ≠ id' →
    b.state = .active → b'.state = .active → b.Shares b' →
    b.endTs ≤ b'.startTs ∨ b'.endTs ≤ b.startTs

section Invariant

/-- A candidate without a conflict is over before, or starts after, each active booking of the
participant. -/
theorem apart_of_clear {p : Address} {id : Bytes32} {b : Booking}
    {startTs endTs before after : Nat}
    (hclear : bookingsConflict (participantBookings s p) startTs endTs before after = false)
    (hrow : s.booking id = some b) (hid : id ∈ s.bookingIds p) (hactive : b.state = .active)
    (hends : b.endTs < 2^64) : endTs ≤ b.startTs ∨ b.endTs ≤ startTs := by
  have hmem : b ∈ participantBookings s p := List.mem_filterMap.mpr ⟨id, hid, hrow⟩
  have hguard := List.any_eq_false.mp hclear b hmem
  simp only [hactive, saturatingAdd, true_and, decide_eq_true_eq, not_and, not_lt] at hguard
  by_cases hbefore : b.startTs - before < endTs
  · have := hguard hbefore
    omega
  · omega

theorem withBooking_consistent {id : Bytes32} {b : Booking} (hs : Consistent s)
    (hfresh : s.booking id = none) (hends : b.endTs < 2^64) (hparties : b.mentor ≠ b.mentee)
    (hclear : ∀ p, b.Involves p → ∃ before after,
      bookingsConflict (participantBookings s p) b.startTs b.endTs before after = false) :
    Consistent (s.withBooking id b) := by
  have hnew : (s.withBooking id b).booking id = some b := Function.update_self ..
  have hold {x : Bytes32} (hx : x ≠ id) : (s.withBooking id b).booking x = s.booking x :=
    Function.update_of_ne hx ..
  -- the new session against one that was there before
  have hagainst {x : Bytes32} {c : Booking} (hrow : s.booking x = some c)
      (hactive : c.state = .active) (hshare : b.Shares c) :
      b.endTs ≤ c.startTs ∨ c.endTs ≤ b.startTs := by
    obtain ⟨p, hb, hc⟩ := hshare
    obtain ⟨before, after, hp⟩ := hclear p hb
    exact apart_of_clear hp hrow (hs.listed x c p hrow hc) hactive (hs.ends x c hrow)
  constructor
  · intro x c hrow
    rcases eq_or_ne x id with rfl | hx
    · exact Option.some.inj (hnew.symm.trans hrow) ▸ hparties
    · exact hs.parties x c (hold hx ▸ hrow)
  · intro x c hrow
    rcases eq_or_ne x id with rfl | hx
    · exact Option.some.inj (hnew.symm.trans hrow) ▸ hends
    · exact hs.ends x c (hold hx ▸ hrow)
  · intro x c p hrow hp
    dsimp only [State.withBooking]
    rcases eq_or_ne x id with rfl | hx
    · obtain rfl := Option.some.inj (hnew.symm.trans hrow)
      rw [if_pos hp]
      exact List.mem_append_cons_self
    · have hmem := hs.listed x c p (hold hx ▸ hrow) hp
      split_ifs
      · exact List.mem_append_left _ hmem
      · exact hmem
  · intro x p hmem
    rcases eq_or_ne x id with rfl | hx
    · rw [hnew]
      exact Option.some_ne_none b
    · rw [hold hx]
      dsimp only [State.withBooking] at hmem
      split_ifs at hmem
      · rcases List.mem_append.mp hmem with hmem | hmem
        · exact hs.stored x p hmem
        · exact absurd (List.mem_singleton.mp hmem) hx
      · exact hs.stored x p hmem
  · intro x c y d hx hy hne hcactive hdactive hshare
    rcases eq_or_ne x id with rfl | hxid
    · obtain rfl := Option.some.inj (hnew.symm.trans hx)
      exact hagainst (hold hne.symm ▸ hy) hdactive hshare
    · rcases eq_or_ne y id with rfl | hyid
      · obtain rfl := Option.some.inj (hnew.symm.trans hy)
        obtain ⟨p, hc, hd⟩ := hshare
        exact (hagainst (hold hxid ▸ hx) hcactive ⟨p, hd, hc⟩).symm
      · exact hs.apart x c y d (hold hxid ▸ hx) (hold hyid ▸ hy) hne hcactive hdactive hshare

/-- A record may change its state as long as it does not become active. -/
theorem cancelled_consistent {id : Bytes32} {b : Booking} (hs : Consistent s)
    (hrow : s.booking id = some b) : Consistent
      { s with booking := Function.update s.booking id (some { b with state := .cancelled }) } := by
  -- each row of the new table has an old row with the same parties and times
  have hback : ∀ x c, Function.update s.booking id (some { b with state := .cancelled }) x = some c →
      ∃ c₀, s.booking x = some c₀ ∧ c₀.mentor = c.mentor ∧ c₀.mentee = c.mentee ∧
        c₀.startTs = c.startTs ∧ c₀.endTs = c.endTs ∧ (c.state = .active → c₀ = c) := by
    intro x c hx
    rcases eq_or_ne x id with rfl | hne
    · rw [Function.update_self, Option.some.injEq] at hx
      subst hx
      exact ⟨b, hrow, rfl, rfl, rfl, rfl, by simp⟩
    · rw [Function.update_of_ne hne] at hx
      exact ⟨c, hx, rfl, rfl, rfl, rfl, fun _ => rfl⟩
  constructor
  · intro x c hx
    obtain ⟨c₀, hx₀, hmentor, hmentee, _⟩ := hback x c hx
    exact hmentor ▸ hmentee ▸ hs.parties x c₀ hx₀
  · intro x c hx
    obtain ⟨c₀, hx₀, _, _, _, hend, _⟩ := hback x c hx
    exact hend ▸ hs.ends x c₀ hx₀
  · intro x c p hx hp
    obtain ⟨c₀, hx₀, hmentor, hmentee, _⟩ := hback x c hx
    refine hs.listed x c₀ p hx₀ ?_
    unfold Booking.Involves at hp ⊢
    rwa [hmentor, hmentee]
  · intro x p hmem
    dsimp only
    rcases eq_or_ne x id with rfl | hne
    · simp
    · rw [Function.update_of_ne hne]
      exact hs.stored x p hmem
  · intro x c y d hx hy hne hcactive hdactive hshare
    obtain ⟨c₀, hx₀, _, _, _, _, hc⟩ := hback x c hx
    obtain ⟨d₀, hy₀, _, _, _, _, hd⟩ := hback y d hy
    obtain rfl := hc hcactive
    obtain rfl := hd hdactive
    exact hs.apart x c₀ y d₀ hx₀ hy₀ hne hcactive hdactive hshare

theorem Effect.consistent (h : Effect s s') (hs : Consistent s) : Consistent s' := by
  cases h with
  | same hbookings hids =>
    constructor
    · rw [hbookings]; exact hs.parties
    · rw [hbookings]; exact hs.ends
    · rw [hbookings, hids]; exact hs.listed
    · rw [hbookings, hids]; exact hs.stored
    · rw [hbookings]; exact hs.apart
  | booked hfresh hends hparties hclear =>
    exact withBooking_consistent hs hfresh hends hparties hclear
  | cancelled hrow _ => exact cancelled_consistent hs hrow

theorem empty_consistent : Consistent State.empty := by
  constructor <;> simp [State.empty]

theorem run_consistent (is : List (Input contract)) :
    Consistent ((machine contract).run State.empty is) :=
  Machine.run_invariant empty_consistent
    (fun _ _ _ _ hs h => (execute_effect h).consistent hs) is

end Invariant

/-- No participant is ever in two active sessions at once. -/
theorem run_no_double_booking (is : List (Input contract)) {id id' : Bytes32} {b b' : Booking}
    (hrow : ((machine contract).run State.empty is).booking id = some b)
    (hrow' : ((machine contract).run State.empty is).booking id' = some b') (hne : id ≠ id')
    (hactive : b.state = .active) (hactive' : b'.state = .active) {p : Address}
    (hp : b.Involves p) (hp' : b'.Involves p) (t : Nat) :
    ¬ ((b.startTs ≤ t ∧ t < b.endTs) ∧ (b'.startTs ≤ t ∧ t < b'.endTs)) := by
  have hapart := (run_consistent is).apart id b id' b' hrow hrow' hne hactive hactive' ⟨p, hp, hp'⟩
  omega

/-- Participant `⟨1⟩` mentors one session at 3600 and attends another at 5700. -/
def sampleBookings : List (Input ⟨0⟩) :=
  sampleSetup ++ [.bookSlot ⟨1⟩ 10 ⟨1⟩ ⟨2⟩ 1 3600, .bookSlot ⟨1⟩ 11 ⟨3⟩ ⟨1⟩ 1 5700].map sampleCall

theorem run_no_double_booking_sample :
    let s := (machine ⟨0⟩).run State.empty sampleBookings
    s.booking 10 = some ⟨10, ⟨1⟩, ⟨2⟩, 1, 3600, 5400, .active, 10⟩ ∧
      s.booking 11 = some ⟨11, ⟨3⟩, ⟨1⟩, 1, 5700, 7500, .active, 10⟩ ∧
      ¬ ((3600 ≤ 5000 ∧ 5000 < 5400) ∧ (5700 ≤ 5000 ∧ 5000 < 7500)) := by
  intro s
  have hfirst : s.booking 10 = some ⟨10, ⟨1⟩, ⟨2⟩, 1, 3600, 5400, .active, 10⟩ := by
    decide +kernel
  have hsecond : s.booking 11 = some ⟨11, ⟨3⟩, ⟨1⟩, 1, 5700, 7500, .active, 10⟩ := by
    decide +kernel
  refine ⟨hfirst, hsecond, ?_⟩
  apply run_no_double_booking sampleBookings hfirst hsecond (by decide) rfl rfl (p := ⟨1⟩)
  · exact .inl rfl
  · exact .inr rfl

end ChainVerse.MentorshipSlots
