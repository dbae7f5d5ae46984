import ChainVerse.Slots.BookingOrder

namespace ChainVerse.MentorshipSlots

open MentorshipAvailability (AvailabilitySummary)

variable {contract : Address} {env : Env contract} {peers : Peers} {s : State} {id id' : Bytes32}
  {c : Booking}

/-- Cancelling a session right after it was booked leaves its record, as a cancelled one. -/
theorem cancelBooking_withBooking {canceller : Address} (hparty : c.Involves canceller)
    (hsigned : env.signers canceller = true) (hactive : c.state = .active) :
    cancelBooking env (s.withBooking id c) canceller id =
      .ok (s.withBooking id { c with state := .cancelled }) := by
  have hstored : (s.withBooking id c).booking id = some c := Function.update_self _ _ _
  have hnotparty : ¬(canceller ≠ c.mentor ∧ canceller ≠ c.mentee) := by
    rcases hparty with h | h
    · exact fun hne => hne.1 h.symm
    · exact fun hne => hne.2 h.symm
  have htwice : Function.update (s.withBooking id c).booking id (some { c with state := .cancelled }) =
      Function.update s.booking id (some { c with state := .cancelled }) :=
    Function.update_idem _ _ _
  simp only [cancelBooking, requireAuth, hsigned, refuseIf, hstored, orRefuse, ok_bind, hnotparty,
    hactive, ne_eq, not_true_eq_false, reduceCtorEq, if_false, htwice]
  rfl

/-- A cancelled session in the list of a participant takes nothing from it. -/
theorem takes_withCancelled (hs : Consistent s) (hfresh : s.booking id = none)
    (hcancelled : c.state = .cancelled) {p : Address} {summary : AvailabilitySummary}
    {policy : ProgramPolicy} {startTs endTs : Nat} (h : Takes peers s p summary policy startTs endTs) :
    Takes peers (s.withBooking id c) p summary policy startTs endTs := by
  obtain ⟨ranges, hranges, hvalid⟩ := h
  obtain ⟨henabled, hcover, hblackout, hclear, n, hcount, hcap⟩ :=
    validateParticipantSlot_eq_ok.mp hvalid
  refine ⟨ranges, hranges, ?_⟩
  rw [participantBookings_withBooking hs hfresh]
  split_ifs with hinvolved
  · refine validateParticipantSlot_eq_ok.mpr ⟨henabled, hcover, hblackout, ?_, n, ?_, hcap⟩
    · unfold bookingsConflict at hclear ⊢
      rw [List.any_append, hclear]
      simp [hcancelled]
    · obtain ⟨hfits, hday⟩ := sessionsOnDay_eq_ok.mp hcount
      refine sessionsOnDay_eq_ok.mpr ⟨hfits, ?_⟩
      rw [← hday]
      simp [daySessions, hcancelled]
  · exact hvalid

/-- After a booking and its cancellation the slot is as valid as before. -/
theorem validateSlot_withCancelled (hs : Consistent s) (hfresh : s.booking id = none)
    (hcancelled : c.state = .cancelled) {mentor mentee : Address} {policy : ProgramPolicy}
    {startTs endTs : Nat} (h : validateSlot env peers s mentor mentee policy startTs = .ok endTs) :
    validateSlot env peers (s.withBooking id c) mentor mentee policy startTs = .ok endTs := by
  obtain ⟨sm, sn, hsm, hsn, htimely, hm, hn⟩ := validateSlot_eq_ok.mp h
  exact validateSlot_eq_ok.mpr ⟨sm, sn, hsm, hsn, htimely, takes_withCancelled hs hfresh hcancelled hm,
    takes_withCancelled hs hfresh hcancelled hn⟩

section Again

variable {caller canceller mentor mentee : Address} {programId : Bytes32} {startTs endTs : Nat}
  {sA : State}

/-- What booking and cancelling leave, and when the same slot can be booked again. -/
theorem book_cancel_book (hs : Consistent s) (hfresh : s.booking id = none)
    (hbook : bookSlot env peers s caller id mentor mentee programId startTs = .ok (endTs, sA))
    (hcanceller : canceller = mentor ∨ canceller = mentee) (hfresh' : s.booking id' = none)
    (hne : id' ≠ id) (hid' : id' ≠ 0) :
    ∃ sC, cancelBooking env sA canceller id = .ok sC ∧
      (sC.bookingIds mentor = s.bookingIds mentor ++ [id] ∧
        sC.bookingIds mentee = s.bookingIds mentee ++ [id] ∧
        ∀ x, x ≠ id → sC.booking x = s.booking x) ∧
      ((∃ out, bookSlot env peers sC caller id' mentor mentee programId startTs = .ok out) ↔
        (s.bookingIds mentor).length + 1 < maxBookingsPerParticipant ∧
          (s.bookingIds mentee).length + 1 < maxBookingsPerParticipant) := by
  obtain ⟨⟨hcaller, hparties, hid, hm, hn, hlenM, hlenN⟩, policy, hpolicy, hvalid, rfl⟩ :=
    (bookSlot_eq_ok hfresh).mp hbook
  let c := newRecord env id mentor mentee programId startTs endTs
  have hinvolved : c.Involves canceller := by
    rcases hcanceller with rfl | rfl
    · exact .inl rfl
    · exact .inr rfl
  have hsigned : env.signers canceller = true := by
    rcases hcanceller with rfl | rfl
    · exact hm
    · exact hn
  have hlistM : (s.withBooking id { c with state := .cancelled }).bookingIds mentor =
      s.bookingIds mentor ++ [id] := if_pos (.inl rfl)
  have hlistN : (s.withBooking id { c with state := .cancelled }).bookingIds mentee =
      s.bookingIds mentee ++ [id] := if_pos (.inr rfl)
  have hrest : ∀ x, x ≠ id →
      (s.withBooking id { c with state := .cancelled }).booking x = s.booking x :=
    fun x hx => Function.update_of_ne hx _ _
  refine ⟨_, cancelBooking_withBooking hinvolved hsigned rfl, ⟨hlistM, hlistN, hrest⟩, ?_⟩
  have hnew : (s.withBooking id { c with state := .cancelled }).booking id' = none :=
    (hrest id' hne).trans hfresh'
  have hvalid' := validateSlot_withCancelled (c := { c with state := .cancelled }) hs hfresh rfl hvalid
  constructor
  · rintro ⟨⟨endTs', sB⟩, hagain⟩
    obtain ⟨⟨_, _, _, _, _, hlenM', hlenN'⟩, _⟩ := (bookSlot_eq_ok hnew).mp hagain
    rw [hlistM, List.length_append, List.length_singleton] at hlenM'
    rw [hlistN, List.length_append, List.length_singleton] at hlenN'
    exact ⟨hlenM', hlenN'⟩
  · rintro ⟨hroomM, hroomN⟩
    refine ⟨(endTs, _), (bookSlot_eq_ok hnew).mpr ⟨⟨hcaller, hparties, hid', hm, hn, ?_, ?_⟩, policy,
      hpolicy, hvalid', rfl⟩⟩
    · rw [hlistM, List.length_append, List.length_singleton]
      exact hroomM
    · rw [hlistN, List.length_append, List.length_singleton]
      exact hroomN

/-- After any history, a slot that was booked and cancelled can be booked again under a new id exactly
when the list of either participant had room for both ids. -/
theorem cancelled_slot_bookable_iff (is : List (Input contract)) (env : Env contract) (peers : Peers)
    (hfresh : ((machine contract).run State.empty is).booking id = none)
    (hbook : bookSlot env peers ((machine contract).run State.empty is) caller id mentor mentee
      programId startTs = .ok (endTs, sA)) (hcanceller : canceller = mentor ∨ canceller = mentee)
    (hfresh' : ((machine contract).run State.empty is).booking id' = none) (hne : id' ≠ id)
    (hid' : id' ≠ 0) :
    let s := (machine contract).run State.empty is
    ∃ sC, cancelBooking env sA canceller id = .ok sC ∧
      ((∃ out, bookSlot env peers sC caller id' mentor mentee programId startTs = .ok out) ↔
        (s.bookingIds mentor).length + 1 < maxBookingsPerParticipant ∧
          (s.bookingIds mentee).length + 1 < maxBookingsPerParticipant) := by
  intro s
  obtain ⟨sC, hcancel, _, hagain⟩ :=
    book_cancel_book (run_consistent is) hfresh hbook hcanceller hfresh' hne hid'
  exact ⟨sC, hcancel, hagain⟩

end Again

section Rounds

theorem step_bookSlot {caller mentor mentee : Address} {programId : Bytes32} {startTs endTs : Nat}
    {s' : State}
    (h : bookSlot env peers s caller id mentor mentee programId startTs = .ok (endTs, s')) :
    (machine contract).step s ⟨env, peers, .bookSlot caller id mentor mentee programId startTs⟩ =
      .ok (some endTs, s') := by
  simp only [machine, execute, h]
  rfl

/-- The participants `⟨1⟩` and `⟨2⟩` book the slot at 3600 and cancel it, under the id `k + 1`. -/
def sampleRound (k : Nat) : List (Input ⟨0⟩) :=
  [.bookSlot ⟨1⟩ (BitVec.ofNat 256 (k + 1)) ⟨1⟩ ⟨2⟩ 1 3600,
    .cancelBooking ⟨1⟩ (BitVec.ofNat 256 (k + 1))].map sampleCall

/-- The setup and `n` such rounds. -/
def sampleRounds (n : Nat) : List (Input ⟨0⟩) := sampleSetup ++ (List.range n).flatMap sampleRound

/-- Of a slot that has been booked and cancelled `n` times. -/
structure Rounded (n : Nat) (s : State) : Prop where
  mentor : (s.bookingIds ⟨1⟩).length = n
  mentee : (s.bookingIds ⟨2⟩).length = n
  fresh : ∀ k, n < k → k < 2^256 → s.booking (BitVec.ofNat 256 k) = none
  bookable : ∃ endTs sA, bookSlot sampleEnv (samplePeers 600 0) s ⟨1⟩ (BitVec.ofNat 256 (n + 1)) ⟨1⟩ ⟨2⟩
    1 3600 = .ok (endTs, sA)

theorem ofNat_ne {j k : Nat} (hj : j < 2^256) (hk : k < 2^256) (hne : j ≠ k) :
    BitVec.ofNat 256 j ≠ BitVec.ofNat 256 k := by
  intro h
  have hvalue := congrArg BitVec.toNat h
  rw [BitVec.toNat_ofNat, BitVec.toNat_ofNat, Nat.mod_eq_of_lt hj, Nat.mod_eq_of_lt hk] at hvalue
  exact hne hvalue

/-- One round more, as long as the lists have room. -/
theorem Rounded.next {n : Nat} (h : Rounded n ((machine ⟨0⟩).run State.empty (sampleRounds n)))
    (hn : n + 1 < maxBookingsPerParticipant) :
    Rounded (n + 1) ((machine ⟨0⟩).run State.empty (sampleRounds (n + 1))) := by
  have hroom : n + 1 < 128 := hn
  have hnonzero : BitVec.ofNat 256 (n + 2) ≠ 0 := ofNat_ne (k := 0) (by omega) (by omega) (by omega)
  obtain ⟨endTs, sA, hbook⟩ := h.bookable
  obtain ⟨sC, hcancel, ⟨hM, hN, hrest⟩, hagain⟩ := book_cancel_book (run_consistent (sampleRounds n))
    (h.fresh (n + 1) (by omega) (by omega)) hbook (.inl rfl) (h.fresh (n + 2) (by omega) (by omega))
    (ofNat_ne (by omega) (by omega) (by omega)) hnonzero
  have hrun : (machine ⟨0⟩).run State.empty (sampleRounds (n + 1)) = sC := by
    have hbooked : (machine ⟨0⟩).step ((machine ⟨0⟩).run State.empty (sampleRounds n))
        (sampleCall (.bookSlot ⟨1⟩ (BitVec.ofNat 256 (n + 1)) ⟨1⟩ ⟨2⟩ 1 3600)) = .ok (some endTs, sA) := by
      exact step_bookSlot hbook
    have hcancelled : (machine ⟨0⟩).step sA
        (sampleCall (.cancelBooking ⟨1⟩ (BitVec.ofNat 256 (n + 1)))) = .ok (none, sC) := by
      exact map_eq_ok.mpr ⟨sC, hcancel, rfl⟩
    have hinputs : sampleRounds (n + 1) = sampleRounds n ++ sampleRound n := by
      rw [sampleRounds, sampleRounds, List.range_succ, List.flatMap_append, List.flatMap_singleton,
        List.append_assoc]
    rw [hinputs, Machine.run_append, sampleRound, List.map_cons, List.map_cons, List.map_nil,
      Machine.run_cons, Machine.next_ok _ hbooked, Machine.run_cons, Machine.next_ok _ hcancelled,
      Machine.run_nil]
  rw [hrun]
  refine ⟨?_, ?_, ?_, ?_⟩
  · rw [hM, List.length_append, h.mentor, List.length_singleton]
  · rw [hN, List.length_append, h.mentee, List.length_singleton]
  · intro k hk hsmall
    rw [hrest _ (ofNat_ne hsmall (by omega) (by omega))]
    exact h.fresh k (by omega) hsmall
  · rw [h.mentor, h.mentee] at hagain
    obtain ⟨⟨endTs', sB⟩, hbook'⟩ := hagain.mpr ⟨hn, hn⟩
    exact ⟨endTs', sB, hbook'⟩

theorem rounded (n : Nat) (hn : n < maxBookingsPerParticipant) :
    Rounded n ((machine ⟨0⟩).run State.empty (sampleRounds n)) := by
  induction n with
  | zero =>
    have hfirst : ∃ out, bookSlot sampleEnv (samplePeers 600 0)
        ((machine ⟨0⟩).run State.empty (sampleRounds 0)) ⟨1⟩ (BitVec.ofNat 256 1) ⟨1⟩ ⟨2⟩ 1 3600 =
          .ok out := by decide +kernel
    obtain ⟨⟨endTs, sA⟩, hbook⟩ := hfirst
    exact ⟨rfl, rfl, fun _ _ _ => rfl, endTs, sA, hbook⟩
  | succ n ih => exact (ih (by omega)).next hn

/-- After 127 rounds there is room for one booking more, which is not given back. -/
theorem Rounded.full {s : State} (hs : Rounded 127 s) (hconsistent : Consistent s) :
    s.booking 128 = none ∧ s.booking 129 = none ∧
      ∃ endTs sA sC, bookSlot sampleEnv (samplePeers 600 0) s ⟨1⟩ 128 ⟨1⟩ ⟨2⟩ 1 3600 = .ok (endTs, sA) ∧
        cancelBooking sampleEnv sA ⟨1⟩ 128 = .ok sC ∧
        ¬∃ out, bookSlot sampleEnv (samplePeers 600 0) sC ⟨1⟩ 129 ⟨1⟩ ⟨2⟩ 1 3600 = .ok out := by
  have hfresh : s.booking 128 = none := hs.fresh 128 (by decide) (by decide)
  have hfresh' : s.booking 129 = none := hs.fresh 129 (by decide) (by decide)
  obtain ⟨endTs, sA, hbook⟩ := hs.bookable
  obtain ⟨sC, hcancel, _, hagain⟩ := book_cancel_book hconsistent hfresh hbook (.inl rfl) hfresh'
    (by decide) (by decide)
  refine ⟨hfresh, hfresh', endTs, sA, sC, hbook, hcancel, ?_⟩
  intro hout
  have hroom := (hagain.mp hout).1
  rw [hs.mentor] at hroom
  exact absurd hroom (Nat.lt_irrefl 128)

/-- After 127 cancelled bookings the slot can be booked once more, and then not again, although that
booking is cancelled too. -/
theorem cancelled_bookings_fill_list :
    let s := (machine ⟨0⟩).run State.empty (sampleRounds 127)
    s.booking 128 = none ∧ s.booking 129 = none ∧
      ∃ endTs sA sC, bookSlot sampleEnv (samplePeers 600 0) s ⟨1⟩ 128 ⟨1⟩ ⟨2⟩ 1 3600 = .ok (endTs, sA) ∧
        cancelBooking sampleEnv sA ⟨1⟩ 128 = .ok sC ∧
        ¬∃ out, bookSlot sampleEnv (samplePeers 600 0) sC ⟨1⟩ 129 ⟨1⟩ ⟨2⟩ 1 3600 = .ok out := by
  exact (rounded 127 (by decide)).full (run_consistent (sampleRounds 127))

theorem sampleSetup_rebooked :
    let s := (machine ⟨0⟩).run State.empty sampleSetup
    ∃ sA sC, bookSlot sampleEnv (samplePeers 600 0) s ⟨1⟩ 10 ⟨1⟩ ⟨2⟩ 1 3600 = .ok (5400, sA) ∧
      cancelBooking sampleEnv sA ⟨2⟩ 10 = .ok sC ∧
      ∃ out, bookSlot sampleEnv (samplePeers 600 0) sC ⟨1⟩ 11 ⟨1⟩ ⟨2⟩ 1 3600 = .ok out := by
  intro s
  have hfirst : ∃ out, bookSlot sampleEnv (samplePeers 600 0) s ⟨1⟩ 10 ⟨1⟩ ⟨2⟩ 1 3600 = .ok out ∧
      out.1 = 5400 := by decide +kernel
  obtain ⟨⟨_, sA⟩, hbook, rfl⟩ := hfirst
  have hmentee : (⟨2⟩ : Address) = ⟨1⟩ ∨ (⟨2⟩ : Address) = ⟨2⟩ := .inr rfl
  have hfresh' : s.booking 11 = none := rfl
  obtain ⟨sC, hcancel, hagain⟩ := cancelled_slot_bookable_iff sampleSetup sampleEnv (samplePeers 600 0)
    rfl hbook hmentee hfresh' (by decide) (by decide)
  exact ⟨sA, sC, hbook, hcancel, hagain.mpr (by decide +kernel)⟩

end Rounds

end ChainVerse.MentorshipSlots
