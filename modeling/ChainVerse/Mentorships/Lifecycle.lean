import ChainVerse.Mentorships.Contract
import ChainVerse.Framework.Histories
import ChainVerse.Framework.Listings

namespace ChainVerse.MentorshipCore

section Steps

variable {contract : Address} {env : Env contract} {s s' : State}

/-- An accepted call of a run, with the stores around it. -/
abbrev Step (contract : Address) := Entry State (Input contract) Unit

/-- A match that has not ended. -/
def MentorshipStatus.Live (status : MentorshipStatus) : Prop :=
  status ≠ .completed ∧ status ≠ .rejected ∧ status ≠ .terminated

instance : DecidablePred MentorshipStatus.Live := fun _ => inferInstanceAs (Decidable (_ ∧ _))

/-- What never changes about a match. -/
structure SameMatch (record next : MentorshipMatch) : Prop where
  id : next.id = record.id
  mentor : next.mentor = record.mentor
  mentee : next.mentee = record.mentee
  termsVersion : next.termsVersion = record.termsVersion
  termsHash : next.termsHash = record.termsHash

/-- The acceptance that a participant signs. -/
def MentorshipMatch.signature (record : MentorshipMatch) (matchId : Bytes32) (signer : Address)
    (now : Nat) (declarationsHash : Bytes32) : SignedAcceptance where
  matchId := matchId
  termsVersion := record.termsVersion
  termsHash := record.termsHash
  signer := signer
  acceptedAt := now
  declarationsHash := declarationsHash

def MentorshipMatch.acceptedByMentee (record : MentorshipMatch) (now : Nat) : MentorshipMatch :=
  { record with status := .proposedMenteeAccepted, menteeAcceptedAt := now }

def MentorshipMatch.acceptedByMentor (record : MentorshipMatch) (now : Nat) : MentorshipMatch :=
  { record with status := .proposedMentorAccepted, mentorAcceptedAt := now }

def MentorshipMatch.activated (record : MentorshipMatch) (now : Nat) : MentorshipMatch :=
  { record with status := .active, activatedAt := now }

/-- The three ways in which a match ends: the status before, and the row after. -/
inductive Ending (record : MentorshipMatch) : MentorshipMatch → Prop where
  | reject (reasonCode now : Nat) (early : record.status = .proposed ∨
      record.status = .proposedMenteeAccepted ∨ record.status = .proposedMentorAccepted) :
      Ending record { record with
        status := .rejected, terminatedAt := now, terminationReasonCode := reasonCode
        reserved := false }
  | terminate (reasonCode now : Nat) (active : record.status = .active) :
      Ending record { record with
        status := .terminated, terminatedAt := now, terminationReasonCode := reasonCode
        reserved := false }
  | complete (now : Nat) (active : record.status = .active) :
      Ending record { record with status := .completed, completedAt := now, reserved := false }

/-- Everything an accepted call can have done. -/
inductive Effect (env : Env contract) (s : State) : Call → State → Prop where
  | appoint {admin : Address} (absent : s.admin = none) :
      Effect env s (.initializeContract admin) { s with admin := some admin }
  | propose {call : Call} {record : MentorshipMatch} (unused : s.mentorship record.id = none)
      (free : s.activeMentorship (record.mentor, record.mentee) = none)
      (fresh : record.status = .proposed) (reserved : record.reserved = true) :
      Effect env s call
        (setActiveMentorship (putMentorship s record) record.mentor record.mentee record.id)
  | menteeAccept {id declarationsHash : Bytes32} {record : MentorshipMatch}
      (stored : s.mentorship id = some record) (signed : env.signers record.mentee = true)
      (status : record.status = .proposed) :
      Effect env s (.acceptAsMentee record.mentee id declarationsHash)
        (putMentorship
          (putMenteeAcceptance s
            (record.signature id record.mentee env.timestamp declarationsHash))
          (record.acceptedByMentee env.timestamp))
  | mentorAccept {id declarationsHash : Bytes32} {record : MentorshipMatch}
      (stored : s.mentorship id = some record) (signed : env.signers record.mentor = true)
      (status : record.status = .proposedMenteeAccepted) :
      Effect env s (.acceptAsMentor record.mentor id declarationsHash)
        (putMentorship
          (putMentorAcceptance s
            (record.signature id record.mentor env.timestamp declarationsHash))
          (record.acceptedByMentor env.timestamp))
  | activate {call : Call} {id : Bytes32} {record : MentorshipMatch}
      (stored : s.mentorship id = some record) (status : record.status = .proposedMentorAccepted) :
      Effect env s call (putMentorship s (record.activated env.timestamp))
  | close {call : Call} {id : Bytes32} {record ended : MentorshipMatch}
      (stored : s.mentorship id = some record) (ending : Ending record ended) :
      Effect env s call
        (clearActiveMentorship (putMentorship s ended) record.mentor record.mentee)

section Endings

variable {record ended : MentorshipMatch}

/-- Only live matches end, they end for good, and they give their reservation back. -/
theorem Ending.live (h : Ending record ended) :
    record.status.Live ∧ ¬ended.status.Live ∧ ended.reserved = false := by
  cases h with
  | reject _ _ hearly =>
    rcases hearly with hstatus | hstatus | hstatus <;>
      simp [MentorshipStatus.Live, hstatus]
  | terminate _ _ hactive => simp [MentorshipStatus.Live, hactive]
  | complete _ hactive => simp [MentorshipStatus.Live, hactive]

theorem Ending.same (h : Ending record ended) : SameMatch record ended := by
  cases h with
  | reject => exact ⟨rfl, rfl, rfl, rfl, rfl⟩
  | terminate => exact ⟨rfl, rfl, rfl, rfl, rfl⟩
  | complete => exact ⟨rfl, rfl, rfl, rfl, rfl⟩

/-- A match that completes was active. -/
theorem Ending.completed (h : Ending record ended) (hcompleted : ended.status = .completed) :
    record.status = .active := by
  cases h with
  | reject => cases hcompleted
  | terminate => cases hcompleted
  | complete _ hactive => exact hactive

/-- A match that has ended has none of the statuses of a live one. -/
theorem Ending.ne_of_live {status : MentorshipStatus} (h : Ending record ended)
    (hlive : status.Live) : ended.status ≠ status := by
  intro hended
  rw [← hended] at hlive
  exact h.live.2.1 hlive

end Endings

section Specs

@[simp] theorem loadMentorship_ok {id : Bytes32} {record : MentorshipMatch} :
    loadMentorship s id = .ok record ↔ s.mentorship id = some record := by
  simp [loadMentorship]

/-- What an accepted call does. -/
theorem step_effect {i : Input contract} {o : Unit}
    (h : (machine contract).step s i = .ok (o, s')) : Effect i.env s i.call s' := by
  obtain ⟨env, call⟩ := i
  cases call with
  | initializeContract admin =>
    simp only [machine, execute, initializeContract, map_eq_ok, bind_eq_ok, refuseIf_eq_ok,
      requireAuth_eq_ok, exists_unit, pure_eq_ok, Prod.mk.injEq] at h
    obtain ⟨_, ⟨habsent, _, rfl⟩, _, rfl⟩ := h
    exact .appoint (by simpa using habsent)
  | proposeMentorship admin matchId mentor mentee programId amount currency termsVersion termsHash
      startDate endDate title =>
    simp only [machine, execute, proposeMentorship, map_eq_ok, bind_eq_ok, refuseIf_eq_ok,
      exists_unit, pure_eq_ok, Prod.mk.injEq] at h
    obtain ⟨_, ⟨_, _, _, _, hunused, hfree, rfl⟩, _, rfl⟩ := h
    refine @Effect.propose _ _ _ _ (MentorshipMatch.mk ..) ?_ ?_ rfl rfl
    · simpa using hunused
    · simpa [hasActiveMentorship] using hfree
  | acceptAsMentee mentee matchId declarationsHash =>
    simp only [machine, execute, acceptAsMentee, map_eq_ok, bind_eq_ok, refuseIf_eq_ok,
      requireAuth_eq_ok, loadMentorship_ok, exists_unit, pure_eq_ok, Prod.mk.injEq, not_not] at h
    obtain ⟨_, ⟨hsigned, record, hstored, rfl, hstatus, rfl⟩, _, rfl⟩ := h
    exact .menteeAccept hstored hsigned hstatus
  | acceptAsMentor mentor matchId declarationsHash =>
    simp only [machine, execute, acceptAsMentor, map_eq_ok, bind_eq_ok, refuseIf_eq_ok,
      requireAuth_eq_ok, loadMentorship_ok, exists_unit, pure_eq_ok, Prod.mk.injEq, not_not] at h
    obtain ⟨_, ⟨hsigned, record, hstored, rfl, hstatus, rfl⟩, _, rfl⟩ := h
    exact .mentorAccept hstored hsigned hstatus
  | activateMentorship admin matchId =>
    simp only [machine, execute, activateMentorship, map_eq_ok, bind_eq_ok, refuseIf_eq_ok,
      loadMentorship_ok, exists_unit, pure_eq_ok, Prod.mk.injEq, not_not] at h
    obtain ⟨_, ⟨_, record, hstored, hstatus, rfl⟩, _, rfl⟩ := h
    exact .activate hstored hstatus
  | rejectMentorship caller matchId reasonCode =>
    simp only [machine, execute, rejectMentorship, map_eq_ok, bind_eq_ok, refuseIf_eq_ok,
      requireAuth_eq_ok, loadMentorship_ok, exists_unit, pure_eq_ok, Prod.mk.injEq] at h
    obtain ⟨_, ⟨_, record, hstored, hearly, _, rfl⟩, _, rfl⟩ := h
    refine .close hstored (.reject reasonCode env.timestamp ?_)
    simpa only [not_and_or, not_not] using hearly
  | terminateMentorship admin matchId reasonCode recoveryAmount =>
    simp only [machine, execute, terminateMentorship, map_eq_ok, bind_eq_ok, refuseIf_eq_ok,
      loadMentorship_ok, exists_unit, pure_eq_ok, Prod.mk.injEq, not_not] at h
    obtain ⟨_, ⟨_, record, hstored, hactive, _, rfl⟩, _, rfl⟩ := h
    exact .close hstored (.terminate reasonCode env.timestamp hactive)
  | completeMentorship admin matchId =>
    simp only [machine, execute, completeMentorship, map_eq_ok, bind_eq_ok, refuseIf_eq_ok,
      loadMentorship_ok, exists_unit, pure_eq_ok, Prod.mk.injEq, not_not] at h
    obtain ⟨_, ⟨_, record, hstored, hactive, rfl⟩, _, rfl⟩ := h
    exact .close hstored (.complete env.timestamp hactive)

end Specs

end Steps

variable {contract : Address} {env : Env contract} {s s' : State} {call : Call}

/-- The pair whose pointer a row of the match table holds. -/
def pairOf : Option MentorshipMatch → Option (Address × Address)
  | some record => if record.status.Live then some (record.mentor, record.mentee) else none
  | none => none

/-- The pairs that the stored matches hold. -/
def State.pairs (s : State) : Bytes32 → Option (Address × Address) := pairOf ∘ s.mentorship

section Pairs

variable {record : MentorshipMatch}

theorem pairOf_live (h : record.status.Live) :
    pairOf (some record) = some (record.mentor, record.mentee) := if_pos h

theorem pairOf_ended (h : ¬record.status.Live) : pairOf (some record) = none := if_neg h

theorem pairOf_eq_some {row : Option MentorshipMatch} {mentor mentee : Address} :
    pairOf row = some (mentor, mentee) ↔ ∃ record, row = some record ∧
      record.mentor = mentor ∧ record.mentee = mentee ∧ record.status.Live := by
  cases row with
  | none => simp [pairOf]
  | some record =>
    by_cases hlive : record.status.Live
    · simp [pairOf, hlive]
    · simp [pairOf, hlive]

theorem pairs_update {id : Bytes32}
    (hstate : s'.mentorship = Function.update s.mentorship id (some record)) :
    s'.pairs = Function.update s.pairs id (pairOf (some record)) := by
  rw [State.pairs, hstate, Function.comp_update]
  rfl

end Pairs

/-- Each match is stored under its id, the live ones and no others hold a reservation, and the pointer
of a pair finds its live match. -/
structure Paired (s : State) : Prop where
  keyed : ∀ id record, s.mentorship id = some record → record.id = id
  reserved : ∀ id record, s.mentorship id = some record → (record.reserved = true ↔ record.status.Live)
  pointed : Indexed s.activeMentorship s.pairs

section Pairing

theorem paired_empty : Paired State.empty := by
  refine ⟨?_, ?_, ?_⟩
  · intro id record hstored
    cases hstored
  · intro id record hstored
    cases hstored
  · intro pair id
    simp [State.pairs, State.empty, pairOf]

/-- A live match that stays live goes on holding its pair. -/
theorem Paired.keep (hs : Paired s) {id : Bytes32} {record next : MentorshipMatch}
    (hstored : s.mentorship id = some record) (hlive : record.status.Live)
    (hstate : s'.mentorship = Function.update s.mentorship next.id (some next))
    (hindex : s'.activeMentorship = s.activeMentorship) (hsame : SameMatch record next)
    (hnext : next.status.Live) (hreserved : next.reserved = record.reserved) : Paired s' := by
  have hid : next.id = id := hsame.id.trans (hs.keyed id record hstored)
  rw [hid] at hstate
  have hpair : s.pairs id = pairOf (some next) := by
    rw [pairOf_live hnext, hsame.mentor, hsame.mentee, ← pairOf_live hlive, ← hstored]
    rfl
  have hpairs : s'.pairs = s.pairs := by
    rw [pairs_update hstate, ← hpair]
    exact Function.update_eq_self id s.pairs
  have hflag : next.reserved = true ↔ next.status.Live := by
    rw [hreserved, hs.reserved id record hstored]
    exact iff_of_true hlive hnext
  refine ⟨forall_update_row hs.keyed hstate hid, forall_update_row hs.reserved hstate hflag, ?_⟩
  rw [hindex, hpairs]
  exact hs.pointed

theorem Paired.propose (hs : Paired s) {record : MentorshipMatch}
    (hunused : s.mentorship record.id = none)
    (hfree : s.activeMentorship (record.mentor, record.mentee) = none)
    (hlive : record.status.Live) (hreserved : record.reserved = true) :
    Paired (setActiveMentorship (putMentorship s record) record.mentor record.mentee record.id) := by
  have hnone : s.pairs record.id = none := by
    rw [State.pairs, Function.comp_apply, hunused]
    rfl
  refine ⟨forall_update_row hs.keyed rfl rfl,
    forall_update_row hs.reserved rfl (iff_of_true hreserved hlive), ?_⟩
  rw [pairs_update rfl, pairOf_live hlive]
  exact hs.pointed.insert hfree hnone

/-- The pointer that is cleared is the one of the match that ends. -/
theorem Paired.close (hs : Paired s) {id : Bytes32} {record ended : MentorshipMatch}
    (hstored : s.mentorship id = some record) (hending : Ending record ended) :
    Paired (clearActiveMentorship (putMentorship s ended) record.mentor record.mentee) := by
  obtain ⟨hlive, hended, hreserved⟩ := hending.live
  have hid : ended.id = id := hending.same.id.trans (hs.keyed id record hstored)
  have hpair : s.pairs ended.id = some (record.mentor, record.mentee) := by
    rw [State.pairs, Function.comp_apply, hid, hstored, pairOf_live hlive]
  have hflag : ended.reserved = true ↔ ended.status.Live := by
    rw [hreserved]
    exact iff_of_false Bool.false_ne_true hended
  refine ⟨forall_update_row hs.keyed rfl rfl, forall_update_row hs.reserved rfl hflag, ?_⟩
  rw [pairs_update rfl, pairOf_ended hended]
  exact hs.pointed.erase hpair

theorem Effect.paired (h : Effect env s call s') (hs : Paired s) : Paired s' := by
  cases h with
  | appoint => exact ⟨hs.keyed, hs.reserved, hs.pointed⟩
  | propose hunused hfree hfresh hreserved =>
    apply hs.propose hunused hfree _ hreserved
    rw [hfresh]
    decide
  | @menteeAccept _ _ record hstored _ hstatus =>
    have hlive : record.status.Live := by
      rw [hstatus]
      decide
    have hnext : MentorshipStatus.Live .proposedMenteeAccepted := by decide
    exact hs.keep hstored hlive rfl rfl ⟨rfl, rfl, rfl, rfl, rfl⟩ hnext rfl
  | @mentorAccept _ _ record hstored _ hstatus =>
    have hlive : record.status.Live := by
      rw [hstatus]
      decide
    have hnext : MentorshipStatus.Live .proposedMentorAccepted := by decide
    exact hs.keep hstored hlive rfl rfl ⟨rfl, rfl, rfl, rfl, rfl⟩ hnext rfl
  | @activate _ _ record hstored hstatus =>
    have hlive : record.status.Live := by
      rw [hstatus]
      decide
    have hnext : MentorshipStatus.Live .active := by decide
    exact hs.keep hstored hlive rfl rfl ⟨rfl, rfl, rfl, rfl, rfl⟩ hnext rfl
  | close hstored hending => exact hs.close hstored hending

theorem run_paired (is : List (Input contract)) :
    Paired ((machine contract).run State.empty is) :=
  Machine.run_invariant paired_empty (fun _ _ _ _ hs h => (step_effect h).paired hs) is

/-- A match that has ended is not written again. -/
theorem Effect.final (h : Effect env s call s') (hs : Paired s) {id : Bytes32}
    {record : MentorshipMatch} (hstored : s.mentorship id = some record)
    (hended : ¬record.status.Live) : s'.mentorship id = some record := by
  have hother : ∀ {x : Bytes32} {row next : MentorshipMatch}, s.mentorship x = some row →
      row.status.Live → next.id = row.id →
        Function.update s.mentorship next.id (some next) id = some record := by
    intro x row next hrow hlive hid
    rw [hid, hs.keyed x row hrow]
    exact update_keeps_unless (q := fun record => ¬record.status.Live) hrow (not_not.mpr hlive)
      hstored hended
  cases h with
  | appoint => exact hstored
  | propose hunused => exact update_keeps_row hunused hstored
  | menteeAccept hrow _ hstatus => exact hother hrow (hstatus ▸ (by decide)) rfl
  | mentorAccept hrow _ hstatus => exact hother hrow (hstatus ▸ (by decide)) rfl
  | activate hrow hstatus => exact hother hrow (hstatus ▸ (by decide)) rfl
  | close hrow hending => exact hother hrow hending.live.1 hending.same.id

/-- A match that has ended stays as it ended. -/
theorem run_final (is js : List (Input contract)) {id : Bytes32} {record : MentorshipMatch}
    (hstored : ((machine contract).run State.empty is).mentorship id = some record)
    (hended : ¬record.status.Live) :
    ((machine contract).run State.empty (is ++ js)).mentorship id = some record := by
  rw [Machine.run_append]
  have hkept : Paired ((machine contract).run ((machine contract).run State.empty is) js) ∧
      ((machine contract).run ((machine contract).run State.empty is) js).mentorship id =
        some record := by
    apply @Machine.run_invariant _ _ _ _ _
      (fun t => Paired t ∧ t.mentorship id = some record) _ ⟨run_paired is, hstored⟩
    intro t i o t' ht h
    exact ⟨(step_effect h).paired ht.1, (step_effect h).final ht.1 ht.2 hended⟩
  exact hkept.2

end Pairing

section Consent

/-- The line on which the mentee of a match signs an acceptance of its terms. -/
structure MenteeSigns (record : MentorshipMatch) (acceptance : SignedAcceptance) (e : Step contract) :
    Prop where
  call : e.input.call = .acceptAsMentee record.mentee record.id acceptance.declarationsHash
  signed : e.input.env.signers record.mentee = true
  terms : acceptance = record.signature record.id record.mentee e.input.env.timestamp
    acceptance.declarationsHash

/-- The line on which the mentor of a match signs an acceptance of its terms. -/
structure MentorSigns (record : MentorshipMatch) (acceptance : SignedAcceptance) (e : Step contract) :
    Prop where
  call : e.input.call = .acceptAsMentor record.mentor record.id acceptance.declarationsHash
  signed : e.input.env.signers record.mentor = true
  terms : acceptance = record.signature record.id record.mentor e.input.env.timestamp
    acceptance.declarationsHash

/-- The mentee has signed, and then the mentor. -/
structure Consented (s : State) (es : List (Step contract)) (record : MentorshipMatch)
    (first second : SignedAcceptance) : Prop where
  mentee : s.menteeAcceptance record.id = some first
  mentor : s.mentorAcceptance record.id = some second
  signed : Happened (fun earlier e =>
    MentorSigns record second e ∧ ∃ before ∈ earlier, MenteeSigns record first before) es

/-- What the acceptances of a match have come to in each status. -/
structure Agreed (s : State) (es : List (Step contract)) (record : MentorshipMatch) : Prop where
  mentee : record.status = .proposedMenteeAccepted → ∃ first,
    s.menteeAcceptance record.id = some first ∧ ∃ e ∈ es, MenteeSigns record first e
  both : record.status = .proposedMentorAccepted ∨ record.status = .active ∨
    record.status = .completed → ∃ first second, Consented s es record first second

variable {es : List (Step contract)} {record next : MentorshipMatch} {e : Step contract}
variable {first second : SignedAcceptance}

theorem MenteeSigns.same (h : MenteeSigns record first e) (hsame : SameMatch record next) :
    MenteeSigns next first e := by
  refine ⟨?_, ?_, ?_⟩
  · rw [hsame.mentee, hsame.id]
    exact h.call
  · rw [hsame.mentee]
    exact h.signed
  · rw [MentorshipMatch.signature, hsame.id, hsame.mentee, hsame.termsVersion, hsame.termsHash]
    exact h.terms

theorem MentorSigns.same (h : MentorSigns record second e) (hsame : SameMatch record next) :
    MentorSigns next second e := by
  refine ⟨?_, ?_, ?_⟩
  · rw [hsame.mentor, hsame.id]
    exact h.call
  · rw [hsame.mentor]
    exact h.signed
  · rw [MentorshipMatch.signature, hsame.id, hsame.mentor, hsame.termsVersion, hsame.termsHash]
    exact h.terms

/-- What has been signed stays signed, and the match may move on meanwhile. -/
theorem Consented.carry (h : Consented s es record first second) (hsame : SameMatch record next)
    (hmentee : s'.menteeAcceptance record.id = s.menteeAcceptance record.id)
    (hmentor : s'.mentorAcceptance record.id = s.mentorAcceptance record.id) (e : Step contract) :
    Consented s' (es ++ [e]) next first second := by
  refine ⟨?_, ?_, ?_⟩
  · rw [hsame.id, hmentee]
    exact h.mentee
  · rw [hsame.id, hmentor]
    exact h.mentor
  · apply Happened.snoc
    obtain ⟨earlier, line, later, rfl, hmentorSigns, before, hbefore, hmenteeSigns⟩ := h.signed
    exact ⟨earlier, line, later, rfl, hmentorSigns.same hsame, before, hbefore,
      hmenteeSigns.same hsame⟩

/-- Calls that write no acceptance of a match leave what has been agreed. -/
theorem Agreed.carry (h : Agreed s es record)
    (hmentee : s'.menteeAcceptance record.id = s.menteeAcceptance record.id)
    (hmentor : s'.mentorAcceptance record.id = s.mentorAcceptance record.id) (e : Step contract) :
    Agreed s' (es ++ [e]) record := by
  constructor
  · intro hstatus
    obtain ⟨first, hfirst, line, hline, hsigns⟩ := h.mentee hstatus
    rw [hmentee]
    exact ⟨first, hfirst, line, List.mem_append_left _ hline, hsigns⟩
  · intro hstatus
    obtain ⟨first, second, hconsented⟩ := h.both hstatus
    exact ⟨first, second, hconsented.carry ⟨rfl, rfl, rfl, rfl, rfl⟩ hmentee hmentor e⟩

/-- Every stored match has been agreed on as far as its status says. -/
def AllAgreed (s : State) (es : List (Step contract)) : Prop :=
  ∀ id record, s.mentorship id = some record → Agreed s es record

/-- A call that writes one match, and acceptances of that match only, leaves the others agreed. -/
theorem AllAgreed.write (h : AllAgreed s es) (hs : Paired s) (written : MentorshipMatch)
    (hstate : s'.mentorship = Function.update s.mentorship written.id (some written))
    (hmentee : ∀ x, x ≠ written.id → s'.menteeAcceptance x = s.menteeAcceptance x)
    (hmentor : ∀ x, x ≠ written.id → s'.mentorAcceptance x = s.mentorAcceptance x)
    (e : Step contract) (hwritten : Agreed s' (es ++ [e]) written) : AllAgreed s' (es ++ [e]) := by
  intro id record hstored
  rw [hstate] at hstored
  rcases update_row_cases hstored with ⟨_, rfl⟩ | ⟨hother, hold⟩
  · exact hwritten
  · have hid : record.id ≠ written.id := by
      rw [hs.keyed id record hold]
      exact hother
    exact (h id record hold).carry (hmentee _ hid) (hmentor _ hid) e

theorem Effect.agreed {i : Input contract} {o : Unit} (h : Effect i.env s i.call s') (hs : Paired s)
    (hall : AllAgreed s es) : AllAgreed s' (es ++ [⟨s, i, o, s'⟩]) := by
  obtain ⟨env, call⟩ := i
  cases h with
  | appoint =>
    intro id record hstored
    apply (hall id record hstored).carry
    · rfl
    · rfl
  | @propose _ record _ _ hfresh =>
    refine hall.write hs record ?_ ?_ ?_ _ ⟨?_, ?_⟩
    · rfl
    · exact fun _ _ => rfl
    · exact fun _ _ => rfl
    · intro hstatus
      rw [hfresh] at hstatus
      cases hstatus
    · intro hstatus
      rw [hfresh] at hstatus
      simp at hstatus
  | @menteeAccept id declarationsHash record hstored hsigned =>
    obtain rfl := hs.keyed id record hstored
    refine hall.write hs (record.acceptedByMentee env.timestamp) ?_ ?_ ?_ _ ⟨?_, ?_⟩
    · rfl
    · exact fun x hx => Function.update_of_ne hx _ _
    · exact fun _ _ => rfl
    · intro _
      exact ⟨_, Function.update_self _ _ _, _, List.mem_concat_self, rfl, hsigned, rfl⟩
    · intro hstatus
      simp [MentorshipMatch.acceptedByMentee] at hstatus
  | @mentorAccept id declarationsHash record hstored hsigned hstatus =>
    obtain rfl := hs.keyed id record hstored
    refine hall.write hs (record.acceptedByMentor env.timestamp) ?_ ?_ ?_ _ ⟨?_, ?_⟩
    · rfl
    · exact fun _ _ => rfl
    · exact fun x hx => Function.update_of_ne hx _ _
    · intro hmoved
      cases hmoved
    · intro _
      obtain ⟨first, hfirst, line, hline, hsigns⟩ := (hall _ record hstored).mentee hstatus
      refine ⟨first, _, hfirst, Function.update_self _ _ _, ?_⟩
      apply happened_last
      exact ⟨⟨rfl, hsigned, rfl⟩, line, hline, hsigns.same ⟨rfl, rfl, rfl, rfl, rfl⟩⟩
  | @activate _ id record hstored hstatus =>
    refine hall.write hs (record.activated env.timestamp) ?_ ?_ ?_ _ ⟨?_, ?_⟩
    · rfl
    · exact fun _ _ => rfl
    · exact fun _ _ => rfl
    · intro hmoved
      cases hmoved
    · intro _
      obtain ⟨first, second, hconsented⟩ := (hall id record hstored).both (.inl hstatus)
      have hsame : SameMatch record (record.activated env.timestamp) := ⟨rfl, rfl, rfl, rfl, rfl⟩
      refine ⟨first, second, hconsented.carry hsame ?_ ?_ _⟩
      · rfl
      · rfl
  | @close _ id record ended hstored hending =>
    refine hall.write hs ended ?_ ?_ ?_ _ ⟨?_, ?_⟩
    · rfl
    · exact fun _ _ => rfl
    · exact fun _ _ => rfl
    · intro hmoved
      exact absurd hmoved (hending.ne_of_live (by decide))
    · intro hmoved
      have hcompleted : ended.status = .completed := by
        rcases hmoved with hmoved | hmoved | hmoved
        · exact absurd hmoved (hending.ne_of_live (by decide))
        · exact absurd hmoved (hending.ne_of_live (by decide))
        · exact hmoved
      have hactive := hending.completed hcompleted
      obtain ⟨first, second, hconsented⟩ := (hall id record hstored).both (.inr (.inl hactive))
      refine ⟨first, second, hconsented.carry hending.same ?_ ?_ _⟩
      · rfl
      · rfl

theorem run_consented (is : List (Input contract)) :
    AllAgreed ((machine contract).run State.empty is)
      ((machine contract).journal State.empty is) := by
  refine (@Machine.run_journal_invariant _ _ _ _ (machine contract)
    (fun t es => Paired t ∧ AllAgreed t es) State.empty ⟨paired_empty, ?_⟩ ?_ is).2
  · intro id record hstored
    cases hstored
  · intro es s i o s' hs h
    exact ⟨(step_effect h).paired hs.1, (step_effect h).agreed hs.1 hs.2⟩

/-- Where the ledger's time never goes back, the mentee has signed no later than the mentor. -/
theorem Consented.inOrder {is : List (Input contract)}
    (h : Consented s ((machine contract).journal State.empty is) record first second)
    (hclock : is.Pairwise fun i j => i.env.timestamp ≤ j.env.timestamp) :
    first.acceptedAt ≤ second.acceptedAt := by
  obtain ⟨earlier, line, later, hes, hmentor, before, hbefore, hmentee⟩ := h.signed
  have hlines := hclock.sublist (Machine.journal_inputs (m := machine contract) State.empty is)
  rw [hes, List.pairwise_map, List.pairwise_append] at hlines
  have htimes := hlines.2.2 before hbefore line List.mem_cons_self
  rw [hmentee.terms, hmentor.terms]
  exact htimes

end Consent

/-- The match is the pair's match that has not ended. -/
def OpenMatch (s : State) (mentor mentee : Address) (id : Bytes32) : Prop :=
  ∃ record, s.mentorship id = some record ∧ record.mentor = mentor ∧ record.mentee = mentee ∧
    record.status.Live

/-- In every reachable state the pointer of a pair is set exactly when a match of the pair has not
ended, and names it, and a pair never has two; exactly the matches that have not ended are reserved; and
a match that has ended stays so. A match that is or was active has been accepted by its mentee and then
by its mentor, each in a call that the one who accepts has signed, on exactly its terms. -/
theorem run_mentorship (is js : List (Input contract)) :
    let s := (machine contract).run State.empty is
    let es := (machine contract).journal State.empty is
    (∀ mentor mentee id,
      s.activeMentorship (mentor, mentee) = some id ↔ OpenMatch s mentor mentee id) ∧
    (∀ mentor mentee id other, OpenMatch s mentor mentee id → OpenMatch s mentor mentee other →
      other = id) ∧
    (∀ mentor mentee,
      hasActiveMentorship s mentor mentee = true ↔ ∃ id, OpenMatch s mentor mentee id) ∧
    (∀ id record, s.mentorship id = some record →
      (record.reserved = true ↔ record.status.Live)) ∧
    (∀ id record, s.mentorship id = some record → ¬record.status.Live →
      ((machine contract).run State.empty (is ++ js)).mentorship id = some record) ∧
    ∀ id record, s.mentorship id = some record →
      record.status = .active ∨ record.status = .completed →
        ∃ first second, s.menteeAcceptance id = some first ∧ s.mentorAcceptance id = some second ∧
          (first.signer, first.termsVersion, first.termsHash) =
            (record.mentee, record.termsVersion, record.termsHash) ∧
          (second.signer, second.termsVersion, second.termsHash) =
            (record.mentor, record.termsVersion, record.termsHash) ∧
          Consented s es record first second ∧
          (is.Pairwise (fun i j => i.env.timestamp ≤ j.env.timestamp) →
            first.acceptedAt ≤ second.acceptedAt) := by
  intro s es
  have hs : Paired s := run_paired is
  have hopen : ∀ mentor mentee id,
      s.activeMentorship (mentor, mentee) = some id ↔ OpenMatch s mentor mentee id := by
    intro mentor mentee id
    exact (hs.pointed (mentor, mentee) id).trans pairOf_eq_some
  refine ⟨hopen, ?_, ?_, hs.reserved, ?_, ?_⟩
  · intro mentor mentee id other hid hother
    exact hs.pointed.unique (pairOf_eq_some.mpr hother) (pairOf_eq_some.mpr hid)
  · intro mentor mentee
    rw [hasActiveMentorship, Option.isSome_iff_exists]
    exact exists_congr (hopen mentor mentee)
  · intro id record hstored hended
    exact run_final is js hstored hended
  · intro id record hstored hstatus
    obtain ⟨first, second, hconsented⟩ := (run_consented is id record hstored).both (.inr hstatus)
    obtain rfl := hs.keyed id record hstored
    obtain ⟨_, line, _, _, hmentor, before, _, hmentee⟩ := hconsented.signed
    refine ⟨first, second, hconsented.mentee, hconsented.mentor, ?_, ?_, hconsented,
      hconsented.inOrder⟩
    · rw [hmentee.terms]
      rfl
    · rw [hmentor.terms]
      rfl

end ChainVerse.MentorshipCore
