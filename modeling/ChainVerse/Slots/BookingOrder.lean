import ChainVerse.Slots.Bookings

namespace ChainVerse.MentorshipSlots

open MentorshipAvailability (AvailabilitySummary AvailableRange)

variable {contract : Address} {env : Env contract} {peers : Peers} {s : State}

/-- A booking request under one program. -/
structure Request where
  caller : Address
  id : Bytes32
  mentor : Address
  mentee : Address
  startTs : Nat
  deriving DecidableEq, Repr

def Request.Involves (r : Request) (p : Address) : Prop := r.mentor = p ∨ r.mentee = p

instance (r : Request) (p : Address) : Decidable (r.Involves p) :=
  inferInstanceAs (Decidable (_ ∨ _))

def book (env : Env contract) (peers : Peers) (programId : Bytes32) (s : State) (r : Request) :
    Outcome (Nat × State) :=
  bookSlot env peers s r.caller r.id r.mentor r.mentee programId r.startTs

def Bookable (env : Env contract) (peers : Peers) (programId : Bytes32) (s : State)
    (r : Request) : Prop :=
  ∃ out, book env peers programId s r = .ok out

/-- Booking `a` and then `b`. -/
def BookableInTurn (env : Env contract) (peers : Peers) (programId : Bytes32) (s : State)
    (a b : Request) : Prop :=
  ∃ out, book env peers programId s a = .ok out ∧ Bookable env peers programId out.2 b

instance (programId : Bytes32) (r : Request) :
    Decidable (Bookable env peers programId s r) := by
  unfold Bookable
  infer_instance

instance (programId : Bytes32) (a b : Request) :
    Decidable (BookableInTurn env peers programId s a b) := by
  unfold BookableInTurn
  infer_instance

/-- The active sessions that start on the day of `instant`. -/
def daySessions (bookings : List Booking) (instant : Nat) : Nat :=
  bookings.countP fun b => b.state = .active ∧ b.startTs / secondsPerDay = instant / secondsPerDay

/-- Every shared participant may hold both sessions: the list has two places left, and the day
too when both are on one day. -/
def RoomForTwo (s : State) (policy : ProgramPolicy) (a b : Request) : Prop :=
  ∀ p, a.Involves p → b.Involves p →
    (s.bookingIds p).length + 1 < maxBookingsPerParticipant ∧
    (a.startTs / secondsPerDay = b.startTs / secondsPerDay →
      daySessions (participantBookings s p) a.startTs + 1 < policy.maxSessionsPerDay)

/-- A bound on one of the buffers of every shared participant. -/
def SharedBuffers (peers : Peers) (s : State) (a b : Request)
    (bound : AvailabilitySummary → Prop) : Prop :=
  ∀ p summary, a.Involves p → b.Involves p → readSummary peers s p = .ok summary → bound summary

section Second

variable {id : Bytes32} {c : Booking}

theorem sessionsOnDay_eq_ok {bookings : List Booking} {instant n : Nat} :
    sessionsOnDay bookings instant = .ok n ↔
      instant / secondsPerDay * secondsPerDay + secondsPerDay < 2^64 ∧
        daySessions bookings instant = n := by
  have hday : ∀ x : Nat, (instant / secondsPerDay * secondsPerDay ≤ x ∧
      x < instant / secondsPerDay * secondsPerDay + secondsPerDay) ↔
      x / secondsPerDay = instant / secondsPerDay := by
    intro x
    unfold secondsPerDay
    omega
  simp only [sessionsOnDay, bind_eq_ok, orRefuse_eq_ok, fitsU_eq_some, pure_eq_ok, daySessions]
  constructor
  · rintro ⟨_, ⟨hfits, rfl⟩, rfl⟩
    exact ⟨hfits, by simp only [hday]⟩
  · rintro ⟨hfits, rfl⟩
    exact ⟨_, ⟨hfits, rfl⟩, by simp only [hday]⟩

/-- A new booking shows up in the lists of its two participants and nowhere else. -/
theorem participantBookings_withBooking (hs : Consistent s) (hfresh : s.booking id = none)
    (p : Address) : participantBookings (s.withBooking id c) p =
      if c.Involves p then participantBookings s p ++ [c] else participantBookings s p := by
  have hold : (s.bookingIds p).filterMap (Function.update s.booking id (some c)) =
      (s.bookingIds p).filterMap s.booking := by
    refine List.filterMap_congr fun x hx => ?_
    rw [Function.update_of_ne]
    rintro rfl
    exact hs.stored x p hx hfresh
  simp only [participantBookings, State.withBooking]
  split_ifs
  · rw [List.filterMap_append, hold]
    simp
  · exact hold

/-- What a session `c` that was just booked adds to the checks on a further one. -/
theorem takes_withBooking (hs : Consistent s) (hfresh : s.booking id = none)
    (hactive : c.state = .active) {p : Address} {summary : AvailabilitySummary}
    {policy : ProgramPolicy} {startTs endTs : Nat}
    (h : Takes peers s p summary policy startTs endTs) :
    Takes peers (s.withBooking id c) p summary policy startTs endTs ↔ (c.Involves p →
      ¬ (c.startTs - summary.bufferBeforeSeconds < endTs ∧
        startTs < saturatingAdd c.endTs summary.bufferAfterSeconds) ∧
      daySessions (participantBookings s p) startTs +
        (if c.startTs / secondsPerDay = startTs / secondsPerDay then 1 else 0) <
          policy.maxSessionsPerDay) := by
  obtain ⟨ranges, hranges, hvalid⟩ := h
  obtain ⟨henabled, hcover, hblackout, hclear, n, hcount, hcap⟩ :=
    validateParticipantSlot_eq_ok.mp hvalid
  have hranges' : readRanges peers (s.withBooking id c) p startTs endTs = .ok ranges := hranges
  have hstart := (sessionsOnDay_eq_ok.mp hcount).1
  have hn := (sessionsOnDay_eq_ok.mp hcount).2
  have hblackouts : loadBlackouts (s.withBooking id c) = loadBlackouts s := rfl
  unfold Takes
  simp only [hranges', Except.ok.injEq, exists_eq_left', validateParticipantSlot_eq_ok, henabled,
    hcover, hblackouts, hblackout, true_and, participantBookings_withBooking hs hfresh]
  by_cases hinvolved : c.Involves p
  · have hconflict : bookingsConflict (participantBookings s p ++ [c]) startTs endTs
        summary.bufferBeforeSeconds summary.bufferAfterSeconds = false ↔
        ¬ (c.startTs - summary.bufferBeforeSeconds < endTs ∧
          startTs < saturatingAdd c.endTs summary.bufferAfterSeconds) := by
      unfold bookingsConflict at hclear ⊢
      rw [List.any_append, hclear]
      simp [hactive]
    have hsessions : daySessions (participantBookings s p ++ [c]) startTs =
        daySessions (participantBookings s p) startTs +
          if c.startTs / secondsPerDay = startTs / secondsPerDay then 1 else 0 := by
      simp [daySessions, List.countP_append, List.countP_singleton, hactive]
    simp only [hinvolved, if_true, hconflict, sessionsOnDay_eq_ok, hstart, true_and,
      exists_eq_left', hsessions, forall_const]
  · simp only [hinvolved, if_false, hclear, true_and, IsEmpty.forall_iff, iff_true]
    exact ⟨n, hcount, hcap⟩

/-- After `a` is booked, `b` is accepted exactly when every shared participant has room for it
and is clear of the session of `a`. -/
theorem bookable_after (hs : Consistent s) {programId : Bytes32} {policy : ProgramPolicy}
    {a b : Request} {endA endB : Nat} {sA sB : State} (hfreshA : s.booking a.id = none)
    (hfreshB : s.booking b.id = none) (hne : a.id ≠ b.id)
    (hpolicy : s.policy programId = some policy)
    (hA : book env peers programId s a = .ok (endA, sA))
    (hB : book env peers programId s b = .ok (endB, sB)) :
    Bookable env peers programId sA b ↔ ∀ p summary, a.Involves p → b.Involves p →
      readSummary peers s p = .ok summary →
      (s.bookingIds p).length + 1 < maxBookingsPerParticipant ∧
      ¬ (a.startTs - summary.bufferBeforeSeconds < endB ∧
        b.startTs < saturatingAdd endA summary.bufferAfterSeconds) ∧
      daySessions (participantBookings s p) b.startTs +
        (if a.startTs / secondsPerDay = b.startTs / secondsPerDay then 1 else 0) <
          policy.maxSessionsPerDay := by
  obtain ⟨_, _, _, _, rfl⟩ := (bookSlot_eq_ok hfreshA).mp hA
  obtain ⟨⟨hcaller, hparties, hid, hm, hn, hlenM, hlenN⟩, policy', hpolicy', hvalid, _⟩ :=
    (bookSlot_eq_ok hfreshB).mp hB
  obtain rfl : policy = policy' := Option.some.inj (hpolicy.symm.trans hpolicy')
  obtain ⟨sm, sn, hsm, hsn, htimely, htakesM, htakesN⟩ := validateSlot_eq_ok.mp hvalid
  set c := newRecord env a.id a.mentor a.mentee programId a.startTs endA
  have hactive : c.state = .active := rfl
  have hfresh' : (s.withBooking a.id c).booking b.id = none := by
    simp only [State.withBooking, Function.update_of_ne hne.symm, hfreshB]
  have hlength : ∀ p, (s.bookingIds p).length < maxBookingsPerParticipant →
      (((s.withBooking a.id c).bookingIds p).length < maxBookingsPerParticipant ↔
        (a.Involves p → (s.bookingIds p).length + 1 < maxBookingsPerParticipant)) := by
    intro p hlen
    have hlist : (s.withBooking a.id c).bookingIds p =
        if a.Involves p then s.bookingIds p ++ [a.id] else s.bookingIds p := rfl
    rw [hlist]
    split_ifs with hp <;> simp [hp, hlen]
  have hM := takes_withBooking hs hfreshA hactive htakesM
  have hN := takes_withBooking hs hfreshA hactive htakesN
  constructor
  · rintro ⟨⟨endB', sB'⟩, hbook⟩ p summary hpA hpB hsummary
    obtain ⟨⟨_, _, _, _, _, hlenM', hlenN'⟩, policy', hpolicy'', hvalid', _⟩ :=
      (bookSlot_eq_ok hfresh').mp hbook
    obtain rfl : policy = policy' := Option.some.inj (hpolicy.symm.trans hpolicy'')
    obtain ⟨sm', sn', hsm', hsn', htimely', htakesM', htakesN'⟩ := validateSlot_eq_ok.mp hvalid'
    obtain rfl : sm = sm' := Except.ok.inj (hsm.symm.trans hsm')
    obtain rfl : sn = sn' := Except.ok.inj (hsn.symm.trans hsn')
    obtain rfl : endB = endB' := htimely.1.trans htimely'.1.symm
    rcases hpB with rfl | rfl
    · obtain rfl : sm = summary := Except.ok.inj (hsm.symm.trans hsummary)
      exact ⟨(hlength _ hlenM).mp hlenM' hpA, hM.mp htakesM' hpA⟩
    · obtain rfl : sn = summary := Except.ok.inj (hsn.symm.trans hsummary)
      exact ⟨(hlength _ hlenN).mp hlenN' hpA, hN.mp htakesN' hpA⟩
  · intro h
    refine ⟨(endB, _), (bookSlot_eq_ok hfresh').mpr ⟨⟨hcaller, hparties, hid, hm, hn, ?_, ?_⟩,
      policy, hpolicy, validateSlot_eq_ok.mpr ⟨sm, sn, hsm, hsn, htimely, ?_, ?_⟩, rfl⟩⟩
    · exact (hlength _ hlenM).mpr fun hp => (h _ sm hp (.inl rfl) hsm).1
    · exact (hlength _ hlenN).mpr fun hp => (h _ sn hp (.inr rfl) hsn).1
    · exact hM.mpr fun hp => (h _ sm hp (.inl rfl) hsm).2
    · exact hN.mpr fun hp => (h _ sn hp (.inr rfl) hsn).2

end Second

section Order

variable {programId : Bytes32} {policy : ProgramPolicy} {a b : Request}

theorem RoomForTwo.symm (h : RoomForTwo s policy a b) : RoomForTwo s policy b a := by
  intro p hb ha
  obtain ⟨hlist, hday⟩ := h p ha hb
  refine ⟨hlist, fun hsame => ?_⟩
  have hcount : daySessions (participantBookings s p) b.startTs =
      daySessions (participantBookings s p) a.startTs := by unfold daySessions; rw [hsame]
  rw [hcount]
  exact hday hsame.symm

theorem SharedBuffers.comm {bound : AvailabilitySummary → Prop} :
    SharedBuffers peers s a b bound ↔ SharedBuffers peers s b a bound :=
  ⟨fun h p summary hb ha => h p summary ha hb, fun h p summary ha hb => h p summary hb ha⟩

/-- What is known of a slot that is bookable on its own. -/
theorem book_alone {endB : Nat} {sB : State} (hfresh : s.booking b.id = none)
    (hpolicy : s.policy programId = some policy)
    (hB : book env peers programId s b = .ok (endB, sB)) :
    endB = b.startTs + policy.durationSeconds ∧ endB < 2^64 ∧ ∀ p, b.Involves p →
      ∃ summary, readSummary peers s p = .ok summary ∧
        daySessions (participantBookings s p) b.startTs < policy.maxSessionsPerDay := by
  obtain ⟨_, policy', hpolicy', hvalid, _⟩ := (bookSlot_eq_ok hfresh).mp hB
  obtain rfl : policy = policy' := Option.some.inj (hpolicy.symm.trans hpolicy')
  obtain ⟨sm, sn, hsm, hsn, htimely, ⟨_, _, hM⟩, ⟨_, _, hN⟩⟩ := validateSlot_eq_ok.mp hvalid
  refine ⟨htimely.1, htimely.2.1, ?_⟩
  rintro p (rfl | rfl)
  · obtain ⟨_, _, _, _, n, hcount, hcap⟩ := validateParticipantSlot_eq_ok.mp hM
    exact ⟨sm, hsm, (sessionsOnDay_eq_ok.mp hcount).2 ▸ hcap⟩
  · obtain ⟨_, _, _, _, n, hcount, hcap⟩ := validateParticipantSlot_eq_ok.mp hN
    exact ⟨sn, hsn, (sessionsOnDay_eq_ok.mp hcount).2 ▸ hcap⟩

/-- Booking `a` and then `b`: room for both, and `b` clear of `a` with the buffers put around
`a`. -/
theorem bookableInTurn_iff (hs : Consistent s) {endA endB : Nat} {sA sB : State}
    (hfreshA : s.booking a.id = none) (hfreshB : s.booking b.id = none) (hne : a.id ≠ b.id)
    (hpolicy : s.policy programId = some policy)
    (hA : book env peers programId s a = .ok (endA, sA))
    (hB : book env peers programId s b = .ok (endB, sB)) :
    BookableInTurn env peers programId s a b ↔ RoomForTwo s policy a b ∧
      SharedBuffers peers s a b fun summary =>
        ¬ (a.startTs - summary.bufferBeforeSeconds < endB ∧
          b.startTs < saturatingAdd endA summary.bufferAfterSeconds) := by
  have hafter := bookable_after hs hfreshA hfreshB hne hpolicy hA hB
  obtain ⟨_, _, haloneB⟩ := book_alone hfreshB hpolicy hB
  have hturn : BookableInTurn env peers programId s a b ↔ Bookable env peers programId sA b := by
    simp [BookableInTurn, hA]
  rw [hturn, hafter]
  constructor
  · intro h
    refine ⟨fun p ha hb => ?_, fun p summary ha hb hsummary => (h p summary ha hb hsummary).2.1⟩
    obtain ⟨summary, hsummary, _⟩ := haloneB p hb
    obtain ⟨hlist, _, hcap⟩ := h p summary ha hb hsummary
    refine ⟨hlist, fun hsame => ?_⟩
    have hcount : daySessions (participantBookings s p) a.startTs =
        daySessions (participantBookings s p) b.startTs := by unfold daySessions; rw [hsame]
    rwa [if_pos hsame, ← hcount] at hcap
  · rintro ⟨hroom, hclear⟩ p summary ha hb hsummary
    obtain ⟨hlist, hday⟩ := hroom p ha hb
    refine ⟨hlist, hclear p summary ha hb hsummary, ?_⟩
    obtain ⟨_, _, hcap⟩ := haloneB p hb
    by_cases hsame : a.startTs / secondsPerDay = b.startTs / secondsPerDay
    · have hcount : daySessions (participantBookings s p) a.startTs =
          daySessions (participantBookings s p) b.startTs := by unfold daySessions; rw [hsame]
      rw [if_pos hsame, ← hcount]
      exact hday hsame
    · rwa [if_neg hsame]

/-- Two sessions of one length are clear of each other when the gap between them is at least the
buffer that the session booked first has on that side. -/
theorem clear_iff_gap {startA startB duration before after : Nat} (hduration : 0 < duration)
    (hB : startB + duration < 2^64) :
    ¬ (startA - before < startB + duration ∧
        startB < saturatingAdd (startA + duration) after) ↔
      (startA + duration ≤ startB ∧ after ≤ startB - (startA + duration)) ∨
        (startB + duration ≤ startA ∧ before ≤ startA - (startB + duration)) := by
  unfold saturatingAdd
  omega

/-- The time between the end of the earlier session and the start of the later one. -/
def gap (duration : Nat) (a b : Request) : Nat :=
  max a.startTs b.startTs - (min a.startTs b.startTs + duration)

theorem gap_of_le {duration : Nat} (h : a.startTs + duration ≤ b.startTs) :
    gap duration a b = b.startTs - (a.startTs + duration) ∧
      gap duration b a = b.startTs - (a.startTs + duration) := by
  unfold gap
  omega

/-- When `a` is over before `b` starts, booking `a` first is a matter of the buffers after a
session and booking `b` first one of the buffers before it. -/
theorem orders_of_le (hs : Consistent s) (hfreshA : s.booking a.id = none)
    (hfreshB : s.booking b.id = none) (hne : a.id ≠ b.id)
    (hpolicy : s.policy programId = some policy)
    (hA : Bookable env peers programId s a) (hB : Bookable env peers programId s b)
    (hle : a.startTs + policy.durationSeconds ≤ b.startTs) :
    (BookableInTurn env peers programId s a b ↔ RoomForTwo s policy a b ∧
      SharedBuffers peers s a b (·.bufferAfterSeconds ≤ gap policy.durationSeconds a b)) ∧
    (BookableInTurn env peers programId s b a ↔ RoomForTwo s policy a b ∧
      SharedBuffers peers s a b (·.bufferBeforeSeconds ≤ gap policy.durationSeconds a b)) := by
  obtain ⟨⟨endA, sA⟩, hA⟩ := hA
  obtain ⟨⟨endB, sB⟩, hB⟩ := hB
  obtain ⟨rfl, hltA, _⟩ := book_alone hfreshA hpolicy hA
  obtain ⟨rfl, hltB, _⟩ := book_alone hfreshB hpolicy hB
  have hduration : 0 < policy.durationSeconds := by
    have := policy.session_valid.1.1
    unfold minSessionSeconds at this
    omega
  have hgap := (gap_of_le hle).1
  rw [bookableInTurn_iff hs hfreshA hfreshB hne hpolicy hA hB,
    bookableInTurn_iff hs hfreshB hfreshA hne.symm hpolicy hB hA, SharedBuffers.comm (a := b)]
  have hafter : ∀ summary : AvailabilitySummary,
      ¬ (a.startTs - summary.bufferBeforeSeconds < b.startTs + policy.durationSeconds ∧
        b.startTs < saturatingAdd (a.startTs + policy.durationSeconds)
          summary.bufferAfterSeconds) ↔
      summary.bufferAfterSeconds ≤ gap policy.durationSeconds a b := by
    intro summary
    rw [clear_iff_gap hduration hltB, hgap]
    omega
  have hbefore : ∀ summary : AvailabilitySummary,
      ¬ (b.startTs - summary.bufferBeforeSeconds < a.startTs + policy.durationSeconds ∧
        a.startTs < saturatingAdd (b.startTs + policy.durationSeconds)
          summary.bufferAfterSeconds) ↔
      summary.bufferBeforeSeconds ≤ gap policy.durationSeconds a b := by
    intro summary
    rw [clear_iff_gap hduration hltA, hgap]
    omega
  simp only [hafter, hbefore]
  exact ⟨trivial, and_congr_left fun _ => ⟨RoomForTwo.symm, RoomForTwo.symm⟩⟩

/-- Overlapping sessions of a shared participant exclude each other. -/
theorem not_inTurn_of_overlap (hs : Consistent s) (hfreshA : s.booking a.id = none)
    (hfreshB : s.booking b.id = none) (hne : a.id ≠ b.id)
    (hshare : ∃ p, a.Involves p ∧ b.Involves p) (hpolicy : s.policy programId = some policy)
    (hA : Bookable env peers programId s a) (hB : Bookable env peers programId s b)
    (hoverlap : a.startTs < b.startTs + policy.durationSeconds ∧
      b.startTs < a.startTs + policy.durationSeconds) :
    ¬ BookableInTurn env peers programId s a b := by
  obtain ⟨⟨endA, sA⟩, hA⟩ := hA
  obtain ⟨⟨endB, sB⟩, hB⟩ := hB
  obtain ⟨rfl, hltA, _⟩ := book_alone hfreshA hpolicy hA
  obtain ⟨rfl, hltB, haloneB⟩ := book_alone hfreshB hpolicy hB
  obtain ⟨p, ha, hb⟩ := hshare
  obtain ⟨summary, hsummary, _⟩ := haloneB p hb
  rw [bookableInTurn_iff hs hfreshA hfreshB hne hpolicy hA hB]
  rintro ⟨_, hclear⟩
  have hguard := (clear_iff_gap (by omega) hltB).mp (hclear p summary ha hb hsummary)
  omega

theorem and_iff_and_iff {r p q : Prop} : (r ∧ p ↔ r ∧ q) ↔ ¬ r ∨ (p ↔ q) := by
  tauto

/-- Two slots of one program that share a participant and are each bookable alone can be booked in
both orders or in neither exactly when they overlap, or a shared participant has no room for both,
or the gap between them meets the buffers after a session as well as the buffers before one. -/
theorem booking_order_iff (is : List (Input contract))
    (hreached : s = (machine contract).run State.empty is) (hfreshA : s.booking a.id = none)
    (hfreshB : s.booking b.id = none) (hne : a.id ≠ b.id)
    (hshare : ∃ p, a.Involves p ∧ b.Involves p) (hpolicy : s.policy programId = some policy)
    (hA : Bookable env peers programId s a) (hB : Bookable env peers programId s b) :
    (BookableInTurn env peers programId s a b ↔ BookableInTurn env peers programId s b a) ↔
      (a.startTs < b.startTs + policy.durationSeconds ∧
        b.startTs < a.startTs + policy.durationSeconds) ∨
      ¬ RoomForTwo s policy a b ∨
      (SharedBuffers peers s a b (·.bufferAfterSeconds ≤ gap policy.durationSeconds a b) ↔
        SharedBuffers peers s a b (·.bufferBeforeSeconds ≤ gap policy.durationSeconds a b)) := by
  have hs : Consistent s := hreached ▸ run_consistent is
  by_cases hoverlap : a.startTs < b.startTs + policy.durationSeconds ∧
      b.startTs < a.startTs + policy.durationSeconds
  · have hAB := not_inTurn_of_overlap hs hfreshA hfreshB hne hshare hpolicy hA hB hoverlap
    obtain ⟨p, ha, hb⟩ := hshare
    have hBA := not_inTurn_of_overlap hs hfreshB hfreshA hne.symm ⟨p, hb, ha⟩ hpolicy hB hA
      hoverlap.symm
    simp only [hAB, hBA, hoverlap, true_or, and_self]
  · rcases le_or_gt (a.startTs + policy.durationSeconds) b.startTs with hle | hgt
    · obtain ⟨hAB, hBA⟩ := orders_of_le hs hfreshA hfreshB hne hpolicy hA hB hle
      rw [hAB, hBA, and_iff_and_iff, or_iff_right hoverlap]
    · have hle : b.startTs + policy.durationSeconds ≤ a.startTs := by omega
      obtain ⟨hBA, hAB⟩ := orders_of_le hs hfreshB hfreshA hne.symm hpolicy hB hA hle
      have hgap : gap policy.durationSeconds b a = gap policy.durationSeconds a b :=
        (gap_of_le hle).1.trans (gap_of_le hle).2.symm
      have hroom : RoomForTwo s policy b a ↔ RoomForTwo s policy a b :=
        ⟨RoomForTwo.symm, RoomForTwo.symm⟩
      rw [hAB, hBA, hgap, hroom, SharedBuffers.comm (a := b), SharedBuffers.comm (a := b),
        and_iff_and_iff, or_iff_right hoverlap]
      exact or_congr_right iff_comm

/-- Two sessions of participant `⟨1⟩`, five minutes apart. -/
def sampleEarlier : Request := ⟨⟨1⟩, 10, ⟨1⟩, ⟨2⟩, 3600⟩
def sampleLater : Request := ⟨⟨1⟩, 11, ⟨1⟩, ⟨3⟩, 5700⟩

/-- Ten minutes before a session are kept free when the later session is booked first only. -/
theorem booking_order_matters :
    let s := (machine ⟨0⟩).run State.empty sampleSetup
    Bookable sampleEnv (samplePeers 600 0) 1 s sampleEarlier ∧
      Bookable sampleEnv (samplePeers 600 0) 1 s sampleLater ∧
      BookableInTurn sampleEnv (samplePeers 600 0) 1 s sampleEarlier sampleLater ∧
      ¬ BookableInTurn sampleEnv (samplePeers 600 0) 1 s sampleLater sampleEarlier := by
  decide +kernel

theorem booking_order_sample :
    let s := (machine ⟨0⟩).run State.empty sampleSetup
    (BookableInTurn sampleEnv (samplePeers 600 600) 1 s sampleEarlier sampleLater ↔
        BookableInTurn sampleEnv (samplePeers 600 600) 1 s sampleLater sampleEarlier) ↔
      ((3600 : Nat) < 5700 + 1800 ∧ 5700 < 3600 + 1800) ∨
      ¬ RoomForTwo s samplePolicy sampleEarlier sampleLater ∨
      (SharedBuffers (samplePeers 600 600) s sampleEarlier sampleLater
          (·.bufferAfterSeconds ≤ gap 1800 sampleEarlier sampleLater) ↔
        SharedBuffers (samplePeers 600 600) s sampleEarlier sampleLater
          (·.bufferBeforeSeconds ≤ gap 1800 sampleEarlier sampleLater)) :=
  @booking_order_iff ⟨0⟩ sampleEnv (samplePeers 600 600) _ 1 samplePolicy sampleEarlier sampleLater
    sampleSetup rfl (by decide +kernel) (by decide +kernel) (by decide)
    ⟨⟨1⟩, .inl rfl, .inl rfl⟩ (by decide +kernel) (by decide +kernel) (by decide +kernel)

end Order

end ChainVerse.MentorshipSlots
