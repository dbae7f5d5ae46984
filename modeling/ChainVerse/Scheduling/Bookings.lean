import ChainVerse.Scheduling.Steps
import Mathlib.Order.CompletePartialOrder
import Mathlib.Order.Interval.Set.Disjoint

namespace ChainVerse.MentorshipScheduling

variable {contract : Address} {env : Env contract} {s s' : State} {id : Bytes32} {session : Session}

/-- Sessions with a participant in common do not overlap. -/
def Apart (stored : Bytes32 → Option Session) : Prop :=
  ∀ i j a b, i ≠ j → stored i = some a → stored j = some b → (∃ p, a.Names p ∧ b.Names p) →
    ¬ a.slot.Overlaps b.slot

/-- What holds of the sessions and of their lists after every run. -/
structure Booked (s : State) : Prop where
  paired : s.Paired
  key : ∀ id session, s.session id = some session → session.sessionId = id
  distinct : ∀ id session, s.session id = some session → session.mentor ≠ session.mentee
  ending : s.Ending
  listed : ∀ p id, id ∈ s.participantSessions p ↔
    ∃ session, s.session id = some session ∧ session.Names p
  once : ∀ p, (s.participantSessions p).Nodup
  bounded : ∀ p, (s.participantSessions p).length ≤ maxSessionsPerParticipant
  apart : Apart s.session

section Overlaps

variable {a b : Slot}

theorem Slot.Overlaps.symm (h : a.Overlaps b) : b.Overlaps a := ⟨h.2, h.1⟩

/-- Slots without a moment in common are disjoint intervals. -/
theorem Slot.disjoint_of_not_overlaps (h : ¬ a.Overlaps b) :
    Disjoint (Set.Ico a.startUtc (a.startUtc + 60 * a.durationMinutes))
      (Set.Ico b.startUtc (b.startUtc + 60 * b.durationMinutes)) := by
  rw [Set.Ico_disjoint_Ico]
  unfold Slot.Overlaps Slot.endUtc at h
  omega

/-- The slot overlaps no other session of either participant. -/
def Session.Free (session : Session) (s : State) : Prop :=
  s.FreeBut session.slot session.sessionId (s.participantSessions session.mentor) ∧
    s.FreeBut session.slot session.sessionId (s.participantSessions session.mentee)

end Overlaps

section Writes

/-- No other session of one of the participants overlaps a free one. -/
theorem Booked.free_of_shared (hs : Booked s) (hfree : session.Free s) {other : Session}
    (hother : s.session id = some other) (hne : id ≠ session.sessionId) {p : Address}
    (hp : session.Names p) (hp' : other.Names p) : ¬ session.slot.Overlaps other.slot := by
  have hlisted : id ∈ s.participantSessions p := (hs.listed p id).mpr ⟨other, hother, hp'⟩
  rcases hp with rfl | rfl
  · exact hfree.1 id hlisted hne other hother
  · exact hfree.2 id hlisted hne other hother

/-- A session in a free slot is written: it overlaps none of the others. -/
theorem Booked.apart_write (hs : Booked s) (hfree : session.Free s) :
    Apart (Function.update s.session session.sessionId (some session)) := by
  intro i j a b hij ha hb hshared
  obtain ⟨p, hpa, hpb⟩ := hshared
  rcases update_row_cases ha with ⟨hi, rfl⟩ | ⟨hi, holda⟩
  · have hj : j ≠ session.sessionId := fun hj => hij (hi.trans hj.symm)
    rw [Function.update_of_ne hj] at hb
    exact hs.free_of_shared hfree hb hj hpa hpb
  · rcases update_row_cases hb with ⟨_, rfl⟩ | ⟨_, holdb⟩
    · intro hoverlaps
      exact hs.free_of_shared hfree holda hi hpb hpa hoverlaps.symm
    · exact hs.apart i j a b hij holda holdb ⟨p, hpa, hpb⟩

/-- A session takes the place of one of the same participants, in a slot that is free for it. -/
theorem Booked.rewrite (hs : Booked s) {stored : Session} (hstored : s.session id = some stored)
    (hid : session.sessionId = id) (hmentor : session.mentor = stored.mentor)
    (hmentee : session.mentee = stored.mentee) (hends : session.slot.endUtc < 2^64)
    (hfree : session.Free s) (hpaired : s'.Paired)
    (hsession : s'.session = Function.update s.session session.sessionId (some session))
    (hlists : s'.participantSessions = s.participantSessions) : Booked s' where
  paired := hpaired
  key := forall_update_row hs.key hsession rfl
  distinct := by
    apply forall_update_row hs.distinct hsession
    rw [hmentor, hmentee]
    exact hs.distinct id stored hstored
  ending := forall_update_row hs.ending hsession hends
  listed := by
    intro p i
    rw [hlists, hsession, hs.listed, hid]
    by_cases hi : i = id
    · rw [hi, Function.update_self, hstored]
      simp only [Option.some.injEq, exists_eq_left', Session.Names, hmentor, hmentee]
    · rw [Function.update_of_ne hi]
  once := by
    rw [hlists]
    exact hs.once
  bounded := by
    rw [hlists]
    exact hs.bounded
  apart := by
    rw [hsession]
    exact hs.apart_write hfree

/-- A new session is listed for its participants and for nobody else. -/
theorem lists_book (lists : Address → List Bytes32) (session : Session) (p : Address) :
    Function.update (Function.update lists session.mentor
        (lists session.mentor ++ [session.sessionId])) session.mentee
        (lists session.mentee ++ [session.sessionId]) p =
      lists p ++ if session.Names p then [session.sessionId] else [] := by
  by_cases hmentee : p = session.mentee
  · rw [hmentee, Function.update_self, if_pos (.inr rfl)]
  rw [Function.update_of_ne hmentee]
  by_cases hmentor : p = session.mentor
  · rw [hmentor, Function.update_self, if_pos (.inl rfl)]
  · have hnot : ¬ session.Names p := not_or.mpr ⟨hmentor, hmentee⟩
    rw [Function.update_of_ne hmentor, if_neg hnot, List.append_nil]

/-- A session is added under a new id, in a slot that is free for it. -/
theorem Booked.add (hs : Booked s) (hvacant : s.session session.sessionId = none)
    (hdistinct : session.mentor ≠ session.mentee) (hends : session.slot.endUtc < 2^64)
    (hroom : ∀ p, session.Names p → (s.participantSessions p).length < maxSessionsPerParticipant)
    (hfree : session.Free s) (hpaired : s'.Paired)
    (hsession : s'.session = Function.update s.session session.sessionId (some session))
    (hlists : ∀ p, s'.participantSessions p =
      s.participantSessions p ++ if session.Names p then [session.sessionId] else []) :
    Booked s' where
  paired := hpaired
  key := forall_update_row hs.key hsession rfl
  distinct := forall_update_row hs.distinct hsession hdistinct
  ending := forall_update_row hs.ending hsession hends
  listed := by
    intro p i
    rw [hlists, List.mem_append, hs.listed, hsession]
    by_cases hi : i = session.sessionId
    · rw [hi, Function.update_self, hvacant]
      by_cases hp : session.Names p <;> simp [hp]
    · rw [Function.update_of_ne hi]
      by_cases hp : session.Names p <;> simp [hp, hi]
  once := by
    intro p
    rw [hlists]
    split_ifs
    · have hnew : session.sessionId ∉ s.participantSessions p := by
        intro hlisted
        obtain ⟨stored, hstored, _⟩ := (hs.listed p _).mp hlisted
        rw [hvacant] at hstored
        cases hstored
      exact (hs.once p).append (List.nodup_singleton _) (List.disjoint_singleton.mpr hnew)
    · rw [List.append_nil]
      exact hs.once p
  bounded := by
    intro p
    rw [hlists, List.length_append]
    by_cases hp : session.Names p
    · rw [if_pos hp]
      exact hroom p hp
    · rw [if_neg hp]
      exact hs.bounded p
  apart := by
    rw [hsession]
    exact hs.apart_write hfree

/-- The sessions and their lists stay as they were. -/
theorem Booked.same (hs : Booked s) (hpaired : s'.Paired) (hsession : s'.session = s.session)
    (hlists : s'.participantSessions = s.participantSessions) : Booked s' where
  paired := hpaired
  key := by
    rw [hsession]
    exact hs.key
  distinct := by
    rw [hsession]
    exact hs.distinct
  ending := by
    rw [State.Ending, hsession]
    exact hs.ending
  listed := by
    rw [hlists, hsession]
    exact hs.listed
  once := by
    rw [hlists]
    exact hs.once
  bounded := by
    rw [hlists]
    exact hs.bounded
  apart := by
    rw [hsession]
    exact hs.apart

end Writes

section Runs

theorem booked_empty : Booked State.empty where
  paired _ _ h := nomatch h
  key _ _ h := nomatch h
  distinct _ _ h := nomatch h
  ending _ _ h := nomatch h
  listed p id := by simp [State.empty]
  once _ := List.nodup_nil
  bounded _ := Nat.zero_le _
  apart _ _ _ _ _ h := nomatch h

/-- A confirmation touches neither the participants of a session nor its slot. -/
theorem Session.confirm_same (session : Session) (caller : Address) (now : Nat) :
    (session.confirm caller now).sessionId = session.sessionId ∧
      (session.confirm caller now).mentor = session.mentor ∧
      (session.confirm caller now).mentee = session.mentee ∧
      (session.confirm caller now).slot = session.slot ∧
      (session.confirm caller now).revision = session.revision ∧
      (session.confirm caller now).rescheduleHistory = session.rescheduleHistory := by
  unfold Session.confirm
  dsimp only
  split_ifs <;> exact ⟨rfl, rfl, rfl, rfl, rfl, rfl⟩

/-- A stored session is free in the slot that it has. -/
theorem Booked.free (hs : Booked s) (hfound : s.session id = some session) : session.Free s := by
  have hid := hs.key id session hfound
  have hothers (p : Address) (hp : session.Names p) :
      s.FreeBut session.slot session.sessionId (s.participantSessions p) := by
    intro i hi hne other hother
    obtain ⟨listed, hlisted, hnames⟩ := (hs.listed p i).mp hi
    rw [hother, Option.some.injEq] at hlisted
    subst hlisted
    rw [hid] at hne
    exact hs.apart id i session other (Ne.symm hne) hfound hother ⟨p, hp, hnames⟩
  exact ⟨hothers _ (.inl rfl), hothers _ (.inr rfl)⟩

/-- Every accepted call keeps the bookings. -/
theorem Effect.booked {call : Call} {o : Answer} (h : Effect env s call o s') (hs : Booked s) :
    Booked s' := by
  cases h with
  | configure _ hconfigured =>
    exact hs.same (hconfigured.paired hs.paired) hconfigured.session hconfigured.participantSessions
  | replay => exact hs
  | @book _ agreementId sessionId _ locationRef agendaHash slot mode anchor hfound hvacant hmentorRoom
      hmenteeRoom hfits hmentorFree hmenteeFree =>
    have hroom (p : Address) (hp : p = anchor.mentor ∨ p = anchor.mentee) :
        (s.participantSessions p).length < maxSessionsPerParticipant := by
      rcases hp with rfl | rfl
      · exact hmentorRoom
      · exact hmenteeRoom
    have hlists := lists_book s.participantSessions (anchor.session agreementId sessionId slot mode
      locationRef agendaHash env.timestamp)
    exact @Booked.add _ _ (anchor.session agreementId sessionId slot mode locationRef agendaHash
      env.timestamp) hs hvacant (hs.paired agreementId anchor hfound) hfits hroom
      ⟨hmentorFree, hmenteeFree⟩ hs.paired rfl hlists
  | reconfirm => exact hs
  | @confirm caller sessionId session _ hfound =>
    obtain ⟨hid, hmentor, hmentee, hslot, _, _⟩ := session.confirm_same caller env.timestamp
    have hends : (session.confirm caller env.timestamp).slot.endUtc < 2^64 := by
      rw [hslot]
      exact hs.ending sessionId session hfound
    have hfree : (session.confirm caller env.timestamp).Free s := by
      rw [Session.Free, hid, hmentor, hmentee, hslot]
      exact hs.free hfound
    exact hs.rewrite hfound (hid.trans (hs.key sessionId session hfound)) hmentor hmentee hends hfree
      hs.paired rfl rfl
  | propose => exact hs.same hs.paired rfl rfl
  | @apply _ proposalId session proposal _ hstored _ _ _ _ _ _ _ hfits hmentorFree hmenteeFree =>
    have hfree : (session.moved proposal proposalId env.timestamp).Free s :=
      ⟨hmentorFree hs.ending, hmenteeFree hs.ending⟩
    have hid : (session.moved proposal proposalId env.timestamp).sessionId = proposal.sessionId :=
      hs.key _ session hstored
    exact hs.rewrite hstored hid rfl rfl hfits hfree hs.paired rfl rfl
  | decline => exact hs.same hs.paired rfl rfl

theorem run_booked (is : List (Input contract)) : Booked ((machine contract).run State.empty is) :=
  Machine.run_invariant booked_empty (fun _ _ _ _ hs h => (step_effect h).booked hs) is

/-- In every store that a sequence of calls reaches, two sessions with a participant in common take
up disjoint times, and every participant's list has the participant's sessions, each once. -/
theorem run_bookings (is : List (Input contract)) :
    let s := (machine contract).run State.empty is
    (∀ i j a b, i ≠ j → s.session i = some a → s.session j = some b →
      (∃ p, (p = a.mentor ∨ p = a.mentee) ∧ (p = b.mentor ∨ p = b.mentee)) →
      Disjoint (Set.Ico a.slot.startUtc (a.slot.startUtc + 60 * a.slot.durationMinutes))
        (Set.Ico b.slot.startUtc (b.slot.startUtc + 60 * b.slot.durationMinutes))) ∧
    ∀ p, (∀ id, id ∈ s.participantSessions p ↔
        ∃ session, s.session id = some session ∧ (p = session.mentor ∨ p = session.mentee)) ∧
      (s.participantSessions p).Nodup ∧ (s.participantSessions p).length ≤ 64 := by
  intro s
  have hs : Booked s := run_booked is
  constructor
  · intro i j a b hij ha hb hshared
    exact Slot.disjoint_of_not_overlaps (hs.apart i j a b hij ha hb hshared)
  · exact fun p => ⟨hs.listed p, hs.once p, hs.bounded p⟩

end Runs

end ChainVerse.MentorshipScheduling
