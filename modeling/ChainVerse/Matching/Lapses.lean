import ChainVerse.Matching.Consent

namespace ChainVerse.MentorshipMatching

variable {contract : Address} {crypto : Crypto} {env : Env contract} {s s' t : State} {id : Bytes32}
  {p q : Proposal} {es : List (Step contract)}

section Quantities

/-- A call has left the proposal active. -/
def Reached (es : List (Step contract)) (id : Bytes32) : Prop :=
  ∃ e ∈ es, ∃ p, e.post.proposal id = some p ∧ p.status = .active

/-- An active proposal stays active until it is adjusted, which makes it wait for approval again. -/
def AgreedKept (es : List (Step contract)) : Prop :=
  ∀ e ∈ es, ∀ id p, e.pre.proposal id = some p → p.status = .active →
    ∃ q, e.post.proposal id = some q ∧
      (q.status = .active ∨ q.status = .proposed ∧ e.input.call.adjusts = some id)

/-- Nothing is created for a pair whose indexed proposal is active. -/
def NoneAgreed (es : List (Step contract)) : Prop :=
  ∀ e ∈ es, ∀ c, e.input.call.creation = some c → ∀ id p, e.pre.pairIndex c.pair = some id →
    e.pre.proposal id = some p → p.status ≠ .active

/-- Nothing is created for a pair whose indexed proposal has been active and is open. -/
def NoneReached (es : List (Step contract)) : Prop :=
  ∀ earlier e later, es = earlier ++ e :: later → ∀ c, e.input.call.creation = some c →
    ∀ id p, e.pre.pairIndex c.pair = some id → e.pre.proposal id = some p → Reached earlier id →
      p.status.isOpen = false

end Quantities

section Lapsing

theorem NoneReached.left {later : List (Step contract)} (h : NoneReached (es ++ later)) :
    NoneReached es := by
  intro before e after hes
  exact h before e (after ++ later) (by rw [hes, List.append_assoc, List.cons_append])

theorem Reached.left {later : List (Step contract)} (h : Reached es id) :
    Reached (es ++ later) id := by
  obtain ⟨e, he, hreached⟩ := h
  exact ⟨e, List.mem_append_left _ he, hreached⟩

theorem afterApproval_status (p : Proposal) (participant : Address) (now : Nat) :
    (p.afterApproval participant now).status = .active ∨
      (p.afterApproval participant now).status = p.status := by
  dsimp only [Proposal.afterApproval]
  split_ifs
  · exact .inl rfl
  · exact .inr (approvedBy_offer p participant now).2.2.2.2

/-- A creation finalizes the open proposal that it finds for its pair. -/
theorem Effect.lapses {i : Input contract} {o : Answer} {c : Creation}
    (h : Effect crypto i.env s i.call o s') (hs : s.Keyed) (hcreates : i.call.creation = some c)
    (hfresh : ∀ x, o = some x → s.proposal x = none) (hindex : s.pairIndex c.pair = some id)
    (hfound : s.proposal id = some p) (hopen : p.status.isOpen = true) :
    ∃ q, s'.proposal id = some q ∧ q.status = .expired := by
  obtain ⟨env, call⟩ := i
  cases h with
  | quiet huncreated => rw [hcreates] at huncreated; cases huncreated
  | create c' t newId hcreates' _ hretired hcreated =>
    rw [hcreates, Option.some.injEq] at hcreates'
    subst hcreates'
    have hne : id ≠ newId := by
      intro heq
      rw [heq, hfresh newId rfl] at hfound
      cases hfound
    rw [hcreated.proposal, Function.update_of_ne hne]
    cases hretired with
    | clear hclosed =>
      rw [hclosed id p hindex hfound] at hopen
      cases hopen
    | lapse existingId existing hindex' hfound' =>
      rw [hindex, Option.some.injEq] at hindex'
      subst hindex'
      rw [hfound, Option.some.injEq] at hfound'
      subst hfound'
      obtain rfl := hs id p hfound
      rw [expireProposal_proposal, Function.update_self]
      exact ⟨_, rfl, rfl⟩
  | approve => cases hcreates
  | decline => cases hcreates
  | adjust => cases hcreates

/-- A call that makes a proposal out of nothing finds its id unused. -/
theorem run_fresh {is : List (Input contract)} {earlier later : List (Step contract)} {e : Step contract}
    (hfree : CollisionFree crypto.sha256
      (hashed crypto ((machine contract crypto).journal State.empty is)))
    (hes : (machine contract crypto).journal State.empty is = earlier ++ e :: later)
    (hcreates : e.input.call.creation ≠ none) (x : Bytes32) (hx : e.output = some x) :
    e.pre.proposal x = none := by
  obtain ⟨js, ks, _, hjournal, hrun, hstep⟩ := Machine.journal_split hes
  rw [hes, ← List.singleton_append, ← List.append_assoc] at hfree
  have hlater : CollisionFree crypto.sha256 (hashed crypto (earlier ++ [e])) := hfree.filterMap_left
  have hearlier : CollisionFree crypto.sha256
      (hashed crypto ((machine contract crypto).journal State.empty js)) := by
    rw [hjournal]
    exact hlater.filterMap_left
  have hledger := run_matched js hearlier
  rw [hjournal, hrun] at hledger
  obtain ⟨pre, input, o, post⟩ := e
  have heffect := step_effect hstep
  dsimp only at hx hcreates heffect hledger ⊢
  obtain ⟨env, call⟩ := input
  cases heffect with
  | quiet huncreated => exact absurd huncreated hcreates
  | create c t newId hcreates' _ hretired hcreated =>
    cases hx
    exact (hledger.create (e := ⟨pre, ⟨env, call⟩, some x, post⟩) hcreates' rfl hretired hcreated hlater).1
  | approve => cases hx
  | decline => cases hx
  | adjust => exact absurd rfl hcreates

/-- What has been active comes to expire only through a creation for its pair. -/
theorem RowMove.expires {e : Step contract} {row row' : Option Proposal} (h : RowMove e id row row')
    (hq : row' = some q) (hexpired : q.status = .expired)
    (hbefore : ∀ p, row = some p → p.status ≠ .expired) :
    ∃ c p, e.input.call.creation = some c ∧ e.pre.pairIndex c.pair = some id ∧ row = some p ∧
      p.status.isOpen = true := by
  cases h with
  | kept => exact absurd hexpired (hbefore q hq)
  | made _ p houtput how hkeyed hproposed =>
    cases hq
    rw [hproposed] at hexpired
    cases hexpired
  | lapsed p c _ hcreates hindex hopen => exact ⟨c, p, hcreates, hindex, rfl, hopen⟩
  | approved p participant =>
    cases hq
    rcases afterApproval_status p participant e.input.env.timestamp with hactive | hsame
    · rw [hactive] at hexpired
      cases hexpired
    · rw [hsame] at hexpired
      exact absurd hexpired (hbefore p rfl)
  | declined p =>
    cases hq
    cases hexpired

/-- What an active proposal can become. -/
theorem RowMove.leaves {e : Step contract} {row row' : Option Proposal} (h : RowMove e id row row')
    (hp : row = some p) (hactive : p.status = .active)
    (hfresh : e.input.call.creation ≠ none → e.output = some id → row = none)
    (hagreed : ∀ c, e.input.call.creation = some c → e.pre.pairIndex c.pair ≠ some id) :
    ∃ q, row' = some q ∧
      (q.status = .active ∨ q.status = .proposed ∧ e.input.call.adjusts = some id) := by
  cases h with
  | kept => exact ⟨p, hp, .inl hactive⟩
  | made _ q houtput how hkeyed hproposed =>
    rcases how with hcreates | ⟨hadjusts, _⟩
    · rw [hfresh hcreates houtput] at hp
      cases hp
    · exact ⟨q, rfl, .inr ⟨hproposed, hadjusts⟩⟩
  | lapsed q c _ hcreates hindex => exact absurd hindex (hagreed c hcreates)
  | approved q participant version _ _ happrovable =>
    cases hp
    rw [happrovable.proposed] at hactive
    cases hactive
  | declined q _ hproposed =>
    cases hp
    rw [hproposed] at hactive
    cases hactive

/-- As long as nothing is created for a pair whose open proposal has been active, no such proposal
expires. -/
theorem run_reached (is : List (Input contract)) :
    NoneReached ((machine contract crypto).journal State.empty is) →
      ∀ id q, Reached ((machine contract crypto).journal State.empty is) id →
        ((machine contract crypto).run State.empty is).proposal id = some q → q.status ≠ .expired := by
  have hrun := @Machine.run_journal_invariant _ _ _ _ (machine contract crypto)
    (fun s es => s.Keyed ∧ (NoneReached es → ∀ id q, Reached es id → s.proposal id = some q →
      q.status ≠ .expired)) State.empty ⟨fun _ _ h => (by cases h), fun _ _ _ _ h => (by cases h)⟩ ?_ is
  · exact hrun.2
  · intro es s i o s' hs h
    obtain ⟨hkeyed, hkept⟩ := hs
    have heffect := step_effect h
    refine ⟨heffect.keyed hkeyed, ?_⟩
    intro hnone id q hreached hq hexpired
    -- The call itself has not left the proposal active: it has left it expired.
    have hearlier : Reached es id := by
      obtain ⟨e, he, p, hp, hactive⟩ := hreached
      rcases List.mem_append.mp he with hold | hnew
      · exact ⟨e, hold, p, hp, hactive⟩
      · obtain rfl := List.mem_singleton.mp hnew
        rw [hq, Option.some.injEq] at hp
        rw [← hp, hexpired] at hactive
        cases hactive
    obtain ⟨c, p, hcreates, hindex, hfound, hopen⟩ := (heffect.row hkeyed id).expires hq hexpired
      fun p hp => hkept hnone.left id p hearlier hp
    rw [hnone es _ [] rfl c hcreates id p hindex hfound hearlier] at hopen
    cases hopen

theorem reached_of_active (is : List (Input contract)) :
    ∀ id p, ((machine contract crypto).run State.empty is).proposal id = some p → p.status = .active →
      Reached ((machine contract crypto).journal State.empty is) id := by
  refine @Machine.run_journal_invariant _ _ _ _ (machine contract crypto)
    (fun s es => ∀ id p, s.proposal id = some p → p.status = .active → Reached es id) State.empty
    (fun _ _ h => by cases h) ?_ is
  intro es s i o s' _ h id p hp hactive
  exact ⟨⟨s, i, o, s'⟩, List.mem_concat_self, p, hp, hactive⟩

end Lapsing

section Lines

variable {is : List (Input contract)} {earlier later : List (Step contract)} {e : Step contract}
  {c : Creation}

/-- A line of a run is a call on proposals that are stored under their ids. -/
theorem line_effect (hes : (machine contract crypto).journal State.empty is = earlier ++ e :: later) :
    e.pre.Keyed ∧ Effect crypto e.input.env e.pre e.input.call e.output e.post := by
  obtain ⟨js, _, _, _, hrun, hstep⟩ := Machine.journal_split hes
  refine ⟨?_, step_effect hstep⟩
  rw [← hrun]
  exact (@run_consented contract crypto js).1

/-- What a line finds active, an earlier one has left active. -/
theorem line_reached (hes : (machine contract crypto).journal State.empty is = earlier ++ e :: later)
    (hfound : e.pre.proposal id = some p) (hactive : p.status = .active) : Reached earlier id := by
  obtain ⟨js, _, _, hjournal, hrun, _⟩ := Machine.journal_split hes
  rw [← hrun] at hfound
  rw [← hjournal]
  exact reached_of_active js id p hfound hactive

theorem line_lapses (hfree : CollisionFree crypto.sha256
      (hashed crypto ((machine contract crypto).journal State.empty is)))
    (hes : (machine contract crypto).journal State.empty is = earlier ++ e :: later)
    (hcreates : e.input.call.creation = some c) (hindex : e.pre.pairIndex c.pair = some id)
    (hfound : e.pre.proposal id = some p) (hopen : p.status.isOpen = true) :
    ∃ q, e.post.proposal id = some q ∧ q.status = .expired := by
  obtain ⟨hkeyed, heffect⟩ := line_effect hes
  have hcreates' : e.input.call.creation ≠ none := by
    rw [hcreates]
    exact Option.some_ne_none c
  exact heffect.lapses hkeyed hcreates (run_fresh hfree hes hcreates') hindex hfound hopen

theorem agreedKept_iff (hfree : CollisionFree crypto.sha256
      (hashed crypto ((machine contract crypto).journal State.empty is))) :
    AgreedKept ((machine contract crypto).journal State.empty is) ↔
      NoneAgreed ((machine contract crypto).journal State.empty is) := by
  constructor
  · intro hkept e he c hcreates id p hindex hfound hactive
    obtain ⟨earlier, later, hes⟩ := List.append_of_mem he
    have hopen : p.status.isOpen = true := by
      rw [hactive]
      rfl
    obtain ⟨q, hq, hexpired⟩ := line_lapses hfree hes hcreates hindex hfound hopen
    obtain ⟨q', hq', hstatus⟩ := hkept e he id p hfound hactive
    rw [hq, Option.some.injEq] at hq'
    rw [← hq', hexpired] at hstatus
    rcases hstatus with hactive' | ⟨hproposed, _⟩
    · cases hactive'
    · cases hproposed
  · intro hnone e he id p hfound hactive
    obtain ⟨earlier, later, hes⟩ := List.append_of_mem he
    obtain ⟨hkeyed, heffect⟩ := line_effect hes
    refine (heffect.row hkeyed id).leaves hfound hactive (fun hcreates => run_fresh hfree hes hcreates id) ?_
    intro c hcreates hindex
    exact hnone e he c hcreates id p hindex hfound hactive

end Lines

/-- In every run in which no two hashed ids collide, active proposals leave that status only by an
adjustment just when nothing is created for a pair whose indexed proposal is active. And none that has
been active ever expires, also after an adjustment, just when nothing is created for a pair whose indexed
proposal has been active and is open. -/
theorem run_agreed (is : List (Input contract))
    (hfree : CollisionFree crypto.sha256
      (hashed crypto ((machine contract crypto).journal State.empty is))) :
    let es := (machine contract crypto).journal State.empty is
    (AgreedKept es ↔ NoneAgreed es) ∧
      (AgreedKept es ∧ (∀ js, js <+: is → ∀ id q,
          Reached ((machine contract crypto).journal State.empty js) id →
          ((machine contract crypto).run State.empty js).proposal id = some q → q.status ≠ .expired) ↔
        NoneReached es) := by
  intro es
  have hagreed := agreedKept_iff hfree
  refine ⟨hagreed, ?_, ?_⟩
  · intro hkept earlier e later hes c hcreates id p hindex hfound hreached
    obtain ⟨_, hexpires⟩ := hkept
    obtain ⟨js, hprefix, hpost, hlines⟩ := Machine.journal_upto hes
    rw [← Bool.not_eq_true]
    intro hopen
    obtain ⟨q, hq, hexpired⟩ := line_lapses hfree hes hcreates hindex hfound hopen
    refine hexpires js hprefix id q ?_ ?_ hexpired
    · rw [hlines]
      exact hreached.left
    · rw [hpost]
      exact hq
  · intro hnone
    refine ⟨hagreed.mpr ?_, ?_⟩
    · intro e he c hcreates id p hindex hfound hactive
      obtain ⟨earlier, later, hes⟩ := List.append_of_mem he
      have hclosed := hnone earlier e later hes c hcreates id p hindex hfound
        (line_reached hes hfound hactive)
      rw [hactive] at hclosed
      cases hclosed
    · intro js hjs id q hreached hq
      obtain ⟨ks, rfl⟩ := hjs
      have hnone' : NoneReached ((machine contract crypto).journal State.empty js) := by
        have hall : NoneReached ((machine contract crypto).journal State.empty (js ++ ks)) := hnone
        rw [Machine.journal_append] at hall
        exact hall.left
      exact run_reached js hnone' id q hreached hq

section Samples

/-- Another creation for the agreed pair, once the agreed proposal's expiry has passed. -/
def sampleCreation : Input ⟨0⟩ :=
  ⟨.signedByAll ⟨0⟩ 40 (by decide), .createProposal ⟨2⟩ 7 ⟨3⟩ ⟨5, 0, 60⟩⟩

theorem sampleCreation_free : CollisionFree sampleCrypto.sha256 (hashed sampleCrypto
    ((machine ⟨0⟩ sampleCrypto).journal State.empty (sampleAgreed ++ [sampleCreation]))) := by
  decide +kernel

theorem sampleCreation_lapses : ¬AgreedKept
    ((machine ⟨0⟩ sampleCrypto).journal State.empty (sampleAgreed ++ [sampleCreation])) := by
  intro hkept
  obtain ⟨⟨o, s'⟩, hstep⟩ : ∃ a, (machine ⟨0⟩ sampleCrypto).step
      ((machine ⟨0⟩ sampleCrypto).run State.empty sampleAgreed) sampleCreation = .ok a := by
    decide +kernel
  have hbefore : (((machine ⟨0⟩ sampleCrypto).run State.empty sampleAgreed).proposal sampleId).map
      Proposal.status = some .active := by
    decide +kernel
  have hafter : (((machine ⟨0⟩ sampleCrypto).run State.empty (sampleAgreed ++ [sampleCreation])).proposal
      sampleId).map Proposal.status = some .expired := by
    decide +kernel
  obtain ⟨p, hp, hactive⟩ := Option.map_eq_some_iff.mp hbefore
  obtain ⟨q, hq, hstatus⟩ := hkept _ (@Machine.mem_journal _ _ _ _ _ _ _ _ [] _ _ hstep) sampleId p hp hactive
  rw [Machine.run_append, Machine.run_cons, Machine.run_nil, Machine.next_ok _ hstep, hq,
    Option.map_some, Option.some.injEq] at hafter
  rw [hafter] at hstatus
  rcases hstatus with hactive' | ⟨hproposed, _⟩
  · cases hactive'
  · cases hproposed

theorem run_agreed_sample : ¬NoneAgreed
    ((machine ⟨0⟩ sampleCrypto).journal State.empty (sampleAgreed ++ [sampleCreation])) := by
  intro hnone
  exact sampleCreation_lapses ((run_agreed _ sampleCreation_free).1.mpr hnone)

/-- The agreed match is finalized as expired. -/
theorem not_run_agreed : ¬∀ is : List (Input ⟨0⟩),
    CollisionFree sampleCrypto.sha256
      (hashed sampleCrypto ((machine ⟨0⟩ sampleCrypto).journal State.empty is)) →
    AgreedKept ((machine ⟨0⟩ sampleCrypto).journal State.empty is) :=
  fun hall => sampleCreation_lapses (hall _ sampleCreation_free)

end Samples

end ChainVerse.MentorshipMatching
