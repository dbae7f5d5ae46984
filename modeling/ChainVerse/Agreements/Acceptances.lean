import ChainVerse.Agreements.Terms

namespace ChainVerse.MentorshipAgreements

variable {contract : Address} {env : Env contract} {s s' : State} {call : Call} {o : Answer} {id : Nat}

section Signatures

/-- Both participants of an agreement have accepted it, in the version of its terms. -/
structure Countersigned (s : State) (id : Nat) (first second : Acceptance) (agreement : Agreement) :
    Prop where
  found : s.agreement id = some agreement
  mentor : s.acceptance (id, agreement.mentor) = some first
  mentee : s.acceptance (id, agreement.mentee) = some second
  mentorVersion : first.termsVersion = agreement.termsVersion
  menteeVersion : second.termsVersion = agreement.termsVersion

/-- The two acceptances are of the same document. -/
def Matching (s : State) (id : Nat) : Prop :=
  ∃ first second agreement, Countersigned s id first second agreement ∧
    first.agreementHash = second.agreementHash

def Active (s : State) (id : Nat) : Prop :=
  ∃ agreement, s.agreement id = some agreement ∧ agreement.status = .active

/-- An agreement becomes active with an accepted call. -/
def BecomesActive (e : Step contract) (id : Nat) : Prop := ¬Active e.pre id ∧ Active e.post id

/-- Whoever accepts a pending agreement signs the document that the other participant has signed, if
that one has signed already. -/
def SignsSame (e : Step contract) : Prop :=
  ∀ actor id agreementHash agreement party acceptance,
    e.input.call.accepts = some (actor, id, agreementHash) → e.pre.agreement id = some agreement →
      agreement.status = .pending → agreement.Participant party →
        e.pre.acceptance (id, party) = some acceptance → acceptance.agreementHash = agreementHash

/-- Every acceptance on record is of an agreement, in the version of its terms. -/
def AllVersioned (s : State) : Prop :=
  ∀ id actor acceptance, s.acceptance (id, actor) = some acceptance →
    ∃ agreement, s.agreement id = some agreement ∧ acceptance.termsVersion = agreement.termsVersion

/-- An acceptance on record stays as it is. -/
theorem Effect.acceptance (h : Effect env s call o s') {key : Nat × Address} {acceptance : Acceptance}
    (hstored : s.acceptance key = some acceptance) : s'.acceptance key = some acceptance := by
  cases h with
  | quiet _ _ _ hacceptances =>
    rw [hacceptances]
    exact hstored
  | accepted _ _ hacceptable => exact update_keeps_row hacceptable.fresh hstored
  | concluded _ _ hacceptable => exact update_keeps_row hacceptable.fresh hstored
  | created => exact hstored
  | closed => exact hstored
  | proposed => exact hstored
  | approved => exact hstored
  | rejected => exact hstored
  | activated => exact hstored

/-- The participants of an agreement and the version of its terms are never written again. -/
theorem Effect.agreementKept (h : Effect env s call o s') (hbooks : Books s) {agreement : Agreement}
    (hfound : s.agreement id = some agreement) : ∃ next, s'.agreement id = some next ∧
      SameParties agreement next ∧ next.termsVersion = agreement.termsVersion := by
  have hmove := h.agreementMove hbooks id
  rw [hfound] at hmove
  generalize s'.agreement id = row at hmove
  cases hmove with
  | kept => exact ⟨agreement, rfl, ⟨rfl, rfl, rfl⟩, rfl⟩
  | restated => exact ⟨_, rfl, ⟨rfl, rfl, rfl⟩, rfl⟩
  | amended => exact ⟨_, rfl, ⟨rfl, rfl, rfl⟩, rfl⟩

theorem Effect.countersigned (h : Effect env s call o s') (hbooks : Books s)
    {first second : Acceptance} {agreement : Agreement}
    (hsigned : Countersigned s id first second agreement) :
    ∃ next, Countersigned s' id first second next := by
  obtain ⟨next, hnext, hparties, hversion⟩ := h.agreementKept hbooks hsigned.found
  refine ⟨next, hnext, ?_, ?_, ?_, ?_⟩
  · rw [hparties.mentor]
    exact h.acceptance hsigned.mentor
  · rw [hparties.mentee]
    exact h.acceptance hsigned.mentee
  · rw [hversion]
    exact hsigned.mentorVersion
  · rw [hversion]
    exact hsigned.menteeVersion

theorem Effect.versioned (h : Effect env s call o s') (hbooks : Books s) (hs : AllVersioned s) :
    AllVersioned s' := by
  have hkept : ∀ id actor acceptance, s.acceptance (id, actor) = some acceptance →
      ∃ next, s'.agreement id = some next ∧ acceptance.termsVersion = next.termsVersion := by
    intro id actor acceptance hstored
    obtain ⟨agreement, hfound, hversion⟩ := hs id actor acceptance hstored
    obtain ⟨next, hnext, _, hsame⟩ := h.agreementKept hbooks hfound
    exact ⟨next, hnext, hversion.trans hsame.symm⟩
  have hrecorded : ∀ agreement written, Acceptable s agreement written →
      ∃ next, s'.agreement written.agreementId = some next ∧
        written.termsVersion = next.termsVersion := by
    intro agreement written hacceptable
    obtain ⟨next, hnext, _, hsame⟩ := h.agreementKept hbooks hacceptable.found
    exact ⟨next, hnext, hacceptable.version.trans hsame.symm⟩
  intro id actor acceptance hrow
  cases h with
  | quiet _ _ _ hacceptances =>
    rw [hacceptances] at hrow
    exact hkept id actor acceptance hrow
  | accepted _ _ hacceptable =>
    rcases update_row_cases hrow with ⟨hkey, rfl⟩ | ⟨_, hold⟩
    · obtain ⟨rfl, _⟩ := Prod.mk.inj hkey
      exact hrecorded _ _ hacceptable
    · exact hkept id actor acceptance hold
  | concluded _ _ hacceptable =>
    rcases update_row_cases hrow with ⟨hkey, rfl⟩ | ⟨_, hold⟩
    · obtain ⟨rfl, _⟩ := Prod.mk.inj hkey
      exact hrecorded _ _ hacceptable
    · exact hkept id actor acceptance hold
  | created => exact hkept id actor acceptance hrow
  | closed => exact hkept id actor acceptance hrow
  | proposed => exact hkept id actor acceptance hrow
  | approved => exact hkept id actor acceptance hrow
  | rejected => exact hkept id actor acceptance hrow
  | activated => exact hkept id actor acceptance hrow

end Signatures

section Activation

/-- The acceptance that makes an agreement active. -/
structure Concludes (s : State) (call : Call) (id : Nat) (agreement : Agreement)
    (acceptance : Acceptance) : Prop where
  concerns : acceptance.agreementId = id
  accepts : call.accepts = some (acceptance.actor, id, acceptance.agreementHash)
  acceptable : Acceptable s agreement acceptance
  both : Accepted (s.record acceptance) id agreement
  pending : agreement.status = .pending

/-- An agreement becomes active by an acceptance alone, and only when both participants have accepted. -/
theorem Effect.concludes (h : Effect env s call o s') (hbooks : Books s) (hbefore : ¬Active s id)
    (hafter : Active s' id) : ∃ agreement acceptance, Concludes s call id agreement acceptance ∧
      s' = setAgreement (s.record acceptance) (agreement.restate .active env.timestamp) := by
  obtain ⟨active, hstored, hactive⟩ := hafter
  have hunchanged : s'.agreement = s.agreement → False := by
    intro hsame
    rw [hsame] at hstored
    exact hbefore ⟨active, hstored, hactive⟩
  cases h with
  | quiet _ _ hagreements => exact (hunchanged hagreements).elim
  | created _ _ _ hpending =>
    rcases update_row_cases hstored with ⟨_, rfl⟩ | ⟨_, hold⟩
    · rw [hpending] at hactive
      cases hactive
    · exact absurd ⟨active, hold, hactive⟩ hbefore
  | @concluded _ agreement acceptance haccepts _ hacceptable hboth hpending =>
    rcases update_row_cases hstored with ⟨hkey, rfl⟩ | ⟨_, hold⟩
    · have hid : acceptance.agreementId = id := by
        rw [hkey]
        exact (hbooks.agreementId _ agreement hacceptable.found).1.symm
      subst hid
      exact ⟨agreement, acceptance, ⟨rfl, haccepts, hacceptable, hboth, hpending⟩, rfl⟩
    · exact absurd ⟨active, hold, hactive⟩ hbefore
  | closed _ _ _ hinactive =>
    rcases update_row_cases hstored with ⟨_, rfl⟩ | ⟨_, hold⟩
    · exact absurd hactive hinactive
    · exact absurd ⟨active, hold, hactive⟩ hbefore
  | @activated _ _ agreement amendment _ _ hfound _ hagreed hrunning =>
    rcases update_row_cases hstored with ⟨hkey, rfl⟩ | ⟨_, hold⟩
    · refine absurd ⟨agreement, ?_, hrunning⟩ hbefore
      rw [hkey]
      show s.agreement agreement.id = some agreement
      rw [(hbooks.agreementId _ agreement hagreed).1]
      exact hagreed
    · exact absurd ⟨active, hold, hactive⟩ hbefore
  | accepted => exact (hunchanged rfl).elim
  | proposed => exact (hunchanged rfl).elim
  | approved => exact (hunchanged rfl).elim
  | rejected => exact (hunchanged rfl).elim

/-- Whoever has accepted is the actor now or was on record before. -/
theorem recorded_cases {acceptance stored : Acceptance} {party : Address}
    (h : (s.record acceptance).acceptance (acceptance.agreementId, party) = some stored) :
    party = acceptance.actor ∧ stored = acceptance ∨
      s.acceptance (acceptance.agreementId, party) = some stored := by
  rcases update_row_cases h with ⟨hkey, rfl⟩ | ⟨_, hold⟩
  · exact .inl ⟨(Prod.mk.inj hkey).2, rfl⟩
  · exact .inr hold

/-- What is on record when an agreement becomes active. -/
theorem Effect.signatures (h : Effect env s call o s') (hbooks : Books s) (hs : AllVersioned s)
    (hbefore : ¬Active s id) (hafter : Active s' id) :
    ∃ first second agreement, Countersigned s' id first second agreement := by
  have hversioned := h.versioned hbooks hs
  obtain ⟨agreement, acceptance, ⟨rfl, _, hacceptable, ⟨hmentor, hmentee⟩, _⟩, rfl⟩ :=
    h.concludes hbooks hbefore hafter
  obtain ⟨first, hfirst⟩ := Option.isSome_iff_exists.mp hmentor
  obtain ⟨second, hsecond⟩ := Option.isSome_iff_exists.mp hmentee
  have hid : agreement.id = acceptance.agreementId :=
    (hbooks.agreementId _ agreement hacceptable.found).1
  have hstored : (setAgreement (s.record acceptance)
      (agreement.restate .active env.timestamp)).agreement acceptance.agreementId =
        some (agreement.restate .active env.timestamp) := by
    rw [← hid]
    exact Function.update_self _ _ _
  have hversion : ∀ party stored,
      (s.record acceptance).acceptance (acceptance.agreementId, party) = some stored →
        stored.termsVersion = agreement.termsVersion := by
    intro party stored hrow
    obtain ⟨known, hknown, hsame⟩ := hversioned _ party stored hrow
    obtain rfl := Option.some.inj (hknown.symm.trans hstored)
    exact hsame
  exact ⟨first, second, _, hstored, hfirst, hsecond, hversion _ _ hfirst, hversion _ _ hsecond⟩

/-- The acceptance that completes an agreement finds the other one to be of the same document. -/
theorem matching_of_signsSame {e : Step contract} (hstep : (machine contract).step e.pre e.input =
    .ok (e.output, e.post)) (hbooks : Books e.pre) (hs : AllVersioned e.pre) (hsame : SignsSame e)
    (h : BecomesActive e id) : Matching e.post id := by
  have heffect := step_effect hstep
  obtain ⟨hbefore, hafter⟩ := h
  obtain ⟨first, second, active, hsigned⟩ := heffect.signatures hbooks hs hbefore hafter
  refine ⟨first, second, active, hsigned, ?_⟩
  obtain ⟨agreement, acceptance, ⟨rfl, haccepts, hacceptable, _, hpending⟩, hpost⟩ :=
    heffect.concludes hbooks hbefore hafter
  have hparties : SameParties agreement active := by
    obtain ⟨next, hnext, hparties, _⟩ := heffect.agreementKept hbooks hacceptable.found
    obtain rfl : next = active := Option.some.inj (hnext.symm.trans hsigned.found)
    exact hparties
  -- Whichever acceptance is not the one of the actor was on record before.
  have hhash : ∀ party stored, agreement.Participant party →
      e.post.acceptance (acceptance.agreementId, party) = some stored →
        stored.agreementHash = acceptance.agreementHash := by
    intro party stored hparty hrow
    rw [hpost] at hrow
    rcases recorded_cases hrow with ⟨_, rfl⟩ | hold
    · rfl
    · exact hsame _ _ _ agreement party stored haccepts hacceptable.found hpending hparty hold
  have hfirst := hhash active.mentor first (.inl hparties.mentor) hsigned.mentor
  have hsecond := hhash active.mentee second (.inr hparties.mentee) hsigned.mentee
  exact hfirst.trans hsecond.symm

/-- An acceptance goes on record, and a pending agreement that both have then accepted becomes active. -/
theorem Effect.recorded (h : Effect env s call o s') (hbooks : Books s) {actor : Address}
    {agreementHash : Bytes32} (haccepts : call.accepts = some (actor, id, agreementHash)) :
    ∃ agreement acceptance, acceptance.actor = actor ∧ acceptance.agreementId = id ∧
      acceptance.agreementHash = agreementHash ∧ Acceptable s agreement acceptance ∧
      s'.acceptance = (s.record acceptance).acceptance ∧
      (Accepted (s.record acceptance) id agreement → agreement.status = .pending → Active s' id) := by
  have hnone : call.accepts ≠ none := by
    rw [haccepts]
    exact Option.some_ne_none _
  cases h with
  | quiet h => exact absurd h hnone
  | created h => exact absurd h hnone
  | closed h => exact absurd h hnone
  | proposed h => exact absurd h hnone
  | approved h => exact absurd h hnone
  | rejected h => exact absurd h hnone
  | activated h => exact absurd h hnone
  | @accepted _ agreement acceptance hrecorded _ hacceptable hwaiting =>
    obtain ⟨rfl, rfl, rfl⟩ : acceptance.actor = actor ∧ acceptance.agreementId = id ∧
        acceptance.agreementHash = agreementHash := by simpa [hrecorded] using haccepts
    refine ⟨agreement, acceptance, rfl, rfl, rfl, hacceptable, rfl, ?_⟩
    exact fun hboth hpending => absurd ⟨hboth, hpending⟩ hwaiting
  | @concluded _ agreement acceptance hrecorded _ hacceptable hboth hpending =>
    obtain ⟨rfl, rfl, rfl⟩ : acceptance.actor = actor ∧ acceptance.agreementId = id ∧
        acceptance.agreementHash = agreementHash := by simpa [hrecorded] using haccepts
    refine ⟨agreement, acceptance, rfl, rfl, rfl, hacceptable, rfl, fun _ _ => ?_⟩
    refine ⟨agreement.restate .active env.timestamp, ?_, rfl⟩
    rw [← (hbooks.agreementId _ agreement hacceptable.found).1]
    exact Function.update_self _ _ _

/-- An agreement that both have signed alike was completed with the document already on record. -/
theorem signsSame_of_matching {e : Step contract} (hstep : (machine contract).step e.pre e.input =
    .ok (e.output, e.post)) (hbooks : Books e.pre)
    (hmatching : ∀ id, BecomesActive e id → Matching e.post id) : SignsSame e := by
  intro actor id agreementHash agreement party stored haccepts hfound hpending hparty hstored
  have heffect := step_effect hstep
  obtain ⟨known, acceptance, rfl, rfl, rfl, hacceptable, hpost, hactive⟩ :=
    heffect.recorded hbooks haccepts
  obtain rfl : known = agreement := Option.some.inj (hacceptable.found.symm.trans hfound)
  have hactor : e.post.acceptance (acceptance.agreementId, acceptance.actor) = some acceptance := by
    rw [hpost]
    exact Function.update_self _ _ _
  have hother : e.post.acceptance (acceptance.agreementId, party) = some stored :=
    heffect.acceptance hstored
  have hdistinct : party ≠ acceptance.actor := by
    rintro rfl
    exact absurd (hstored.symm.trans hacceptable.fresh) (Option.some_ne_none _)
  have hroles : acceptance.actor = known.mentor ∧ party = known.mentee ∨
      acceptance.actor = known.mentee ∧ party = known.mentor := by
    rcases hacceptable.participant with hm | hm <;> rcases hparty with hp | hp
    · exact absurd (hp.trans hm.symm) hdistinct
    · exact .inl ⟨hm, hp⟩
    · exact .inr ⟨hm, hp⟩
    · exact absurd (hp.trans hm.symm) hdistinct
  have hboth : Accepted (e.pre.record acceptance) acceptance.agreementId known := by
    unfold Accepted
    rw [← hpost]
    rcases hroles with ⟨hm, hp⟩ | ⟨hm, hp⟩
    · rw [← hm, ← hp, hactor, hother]
      exact ⟨rfl, rfl⟩
    · rw [← hm, ← hp, hactor, hother]
      exact ⟨rfl, rfl⟩
  have hinactive : ¬Active e.pre acceptance.agreementId := by
    rintro ⟨row, hrow, hrunning⟩
    obtain rfl : row = known := Option.some.inj (hrow.symm.trans hfound)
    rw [hpending] at hrunning
    cases hrunning
  obtain ⟨first, second, active, hsigned, hsame⟩ := hmatching _ ⟨hinactive, hactive hboth hpending⟩
  obtain ⟨next, hnext, hparties, _⟩ := heffect.agreementKept hbooks hfound
  obtain rfl : next = active := Option.some.inj (hnext.symm.trans hsigned.found)
  have hmentor := hsigned.mentor
  have hmentee := hsigned.mentee
  rw [hparties.mentor] at hmentor
  rw [hparties.mentee] at hmentee
  rcases hroles with ⟨hm, hp⟩ | ⟨hm, hp⟩
  · rw [← hm, hactor] at hmentor
    rw [← hp, hother] at hmentee
    cases hmentor
    cases hmentee
    exact hsame.symm
  · rw [← hp, hother] at hmentor
    rw [← hm, hactor] at hmentee
    cases hmentor
    cases hmentee
    exact hsame

end Activation

section Runs

theorem run_versioned (is : List (Input contract)) :
    AllVersioned ((machine contract).run State.empty is) := by
  refine (@Machine.run_invariant _ _ _ _ (machine contract) (fun t => Books t ∧ AllVersioned t)
    State.empty ⟨books_empty, ?_⟩ ?_ is).2
  · exact fun _ _ _ h => absurd h (Option.some_ne_none _).symm
  · exact fun s i o s' hs h =>
      ⟨(step_effect h).books hs.1, (step_effect h).versioned hs.1 hs.2⟩

/-- An agreement becomes active with matching acceptances, along a run, just when each acceptance of a
pending agreement signs what the other participant has signed. -/
theorem run_alike_iff (is : List (Input contract)) :
    (∀ e ∈ (machine contract).journal State.empty is, ∀ id, BecomesActive e id → Matching e.post id) ↔
      ∀ e ∈ (machine contract).journal State.empty is, SignsSame e := by
  refine forall_congr' fun e => forall_congr' fun he => ?_
  have hstep := (Machine.journal_step he).1
  have hbooks := Machine.journal_found run_books he
  have hversioned := Machine.journal_found run_versioned he
  exact ⟨signsSame_of_matching hstep hbooks,
    fun hsame id => matching_of_signsSame hstep hbooks hversioned hsame⟩

/-- What holds of an agreement as it becomes active, and stays, holds of every active agreement. -/
theorem run_active {P : State → Nat → Prop} {is : List (Input contract)}
    (hkept : ∀ e ∈ (machine contract).journal State.empty is, ∀ id, P e.pre id → P e.post id)
    (hbecomes : ∀ e ∈ (machine contract).journal State.empty is, ∀ id, BecomesActive e id → P e.post id)
    (id : Nat) (hactive : Active ((machine contract).run State.empty is) id) :
    P ((machine contract).run State.empty is) id := by
  refine (@Machine.run_journal_invariant _ _ _ _ (machine contract)
    (fun t es => (∀ e ∈ es, ∀ id, P e.pre id → P e.post id) →
      (∀ e ∈ es, ∀ id, BecomesActive e id → P e.post id) → ∀ id, Active t id → P t id) State.empty
    ?_ ?_ is) hkept hbecomes id hactive
  · rintro _ _ id ⟨agreement, hnone, _⟩
    cases hnone
  · intro es s i o s' hs h hkept hbecomes id hafter
    rw [List.forall_mem_append, List.forall_mem_singleton] at hkept hbecomes
    by_cases hbefore : Active s id
    · exact hkept.2 id (hs hkept.1 hbecomes.1 id hbefore)
    · exact hbecomes.2 id ⟨hbefore, hafter⟩

theorem run_signatures (is : List (Input contract)) (id : Nat)
    (hactive : Active ((machine contract).run State.empty is) id) :
    ∃ first second agreement,
      Countersigned ((machine contract).run State.empty is) id first second agreement := by
  refine @run_active _ (fun t id =>
    ∃ first second agreement, Countersigned t id first second agreement) is ?_ ?_ id hactive
  · rintro e he id ⟨first, second, agreement, hsigned⟩
    have heffect := step_effect (Machine.journal_step he).1
    have hbooks := Machine.journal_found run_books he
    exact ⟨first, second, heffect.countersigned hbooks hsigned⟩
  · intro e he id hbecomes
    have heffect := step_effect (Machine.journal_step he).1
    have hbooks := Machine.journal_found run_books he
    have hversioned := Machine.journal_found run_versioned he
    exact heffect.signatures hbooks hversioned hbecomes.1 hbecomes.2

theorem run_alike {is : List (Input contract)}
    (hall : ∀ e ∈ (machine contract).journal State.empty is, ∀ id,
      BecomesActive e id → Matching e.post id) (id : Nat)
    (hactive : Active ((machine contract).run State.empty is) id) :
    Matching ((machine contract).run State.empty is) id := by
  refine run_active ?_ hall id hactive
  rintro e he id ⟨first, second, agreement, hsigned, hsame⟩
  have heffect := step_effect (Machine.journal_step he).1
  have hbooks := Machine.journal_found run_books he
  obtain ⟨next, hnext⟩ := heffect.countersigned hbooks hsigned
  exact ⟨first, second, next, hnext, hsame⟩

/-- Every active agreement has been accepted by both participants in the version of its terms. That they
have signed the same document holds whenever an agreement becomes active just when each acceptance of a
pending agreement is of the document that the other participant has signed, and then it holds of every
active agreement ever after. -/
theorem run_countersigned (is : List (Input contract)) :
    let s := (machine contract).run State.empty is
    let es := (machine contract).journal State.empty is
    (∀ id, Active s id → ∃ first second agreement, Countersigned s id first second agreement) ∧
      ((∀ e ∈ es, ∀ id, BecomesActive e id → Matching e.post id) ↔ ∀ e ∈ es, SignsSame e) ∧
      ((∀ e ∈ es, SignsSame e) → ∀ id, Active s id → Matching s id) := by
  intro s es
  refine ⟨run_signatures is, run_alike_iff is, fun hall => ?_⟩
  exact run_alike ((run_alike_iff is).mpr hall)

/-- The mentor accepts the agreement under one hash, the mentee under another. -/
def sampleSigned : List (Input ⟨0⟩) :=
  [⟨.sample, .createAgreement ⟨1⟩ ⟨2⟩ 0 0 1000 2000 7 5 ⟨3⟩ 0 0 0 1⟩,
    ⟨.sample, .acceptAgreement ⟨1⟩ 1 8 1⟩,
    ⟨.sample, .acceptAgreement ⟨2⟩ 1 9 1⟩]

/-- The second acceptance makes the agreement active all the same. -/
theorem sampleSigned_mismatched : ¬∀ e ∈ (machine ⟨0⟩).journal State.empty sampleSigned,
    ∀ id, BecomesActive e id → Matching e.post id := by
  intro hall
  have hstored : (((machine ⟨0⟩).run State.empty sampleSigned).agreement 1).map
      (fun agreement => (agreement.status, agreement.mentor, agreement.mentee)) =
        some (.active, ⟨1⟩, ⟨2⟩) := by decide +kernel
  have hmentor : (((machine ⟨0⟩).run State.empty sampleSigned).acceptance (1, ⟨1⟩)).map
      Acceptance.agreementHash = some 8 := by decide +kernel
  have hmentee : (((machine ⟨0⟩).run State.empty sampleSigned).acceptance (1, ⟨2⟩)).map
      Acceptance.agreementHash = some 9 := by decide +kernel
  obtain ⟨agreement, hagreement, hfields⟩ := Option.map_eq_some_iff.mp hstored
  simp only [Prod.mk.injEq] at hfields
  obtain ⟨hactive, hfirstParty, hsecondParty⟩ := hfields
  obtain ⟨first, second, active, hsigned, hsame⟩ :=
    run_alike hall 1 ⟨agreement, hagreement, hactive⟩
  obtain rfl : active = agreement := Option.some.inj (hsigned.found.symm.trans hagreement)
  have hfirst := hsigned.mentor
  have hsecond := hsigned.mentee
  rw [hfirstParty] at hfirst
  rw [hsecondParty] at hsecond
  rw [hfirst, Option.map_some, hsame] at hmentor
  rw [hsecond, Option.map_some] at hmentee
  exact absurd (hmentor.symm.trans hmentee) (by decide)

end Runs

end ChainVerse.MentorshipAgreements
