import ChainVerse.Matching.Ledger

namespace ChainVerse.MentorshipMatching

variable {contract : Address} {crypto : Crypto} {env : Env contract} {s s' t : State} {id : Bytes32}
  {p : Proposal} {es : List (Step contract)}

/-- What a call can do to one row of the proposals: only creations and adjustments return its id. -/
inductive RowMove (e : Step contract) (id : Bytes32) : Option Proposal → Option Proposal → Prop where
  | kept (row : Option Proposal) (unmade : e.output ≠ some id) : RowMove e id row row
  | made (row : Option Proposal) (p : Proposal) (output : e.output = some id)
      (how : e.input.call.creation ≠ none ∨
        e.input.call.adjusts = some id ∧ ∃ old, row = some old ∧ p.pair = old.pair)
      (keyed : p.id = id) (proposed : p.status = .proposed)
      (unapproved : p.mentorApproved = false ∧ p.menteeApproved = false) : RowMove e id row (some p)
  | lapsed (p : Proposal) (c : Creation) (unmade : e.output ≠ some id)
      (creates : e.input.call.creation = some c) (index : e.pre.pairIndex c.pair = some id)
      (isOpen : p.status.isOpen = true) :
      RowMove e id (some p) (some { p with
        status := .expired
        updatedAt := e.input.env.timestamp })
  | approved (p : Proposal) (participant : Address) (version : Nat) (unmade : e.output ≠ some id)
      (call : e.input.call = .approveProposal participant id version)
      (approvable : Approvable e.input.env e.pre participant id version p) :
      RowMove e id (some p) (some (p.afterApproval participant e.input.env.timestamp))
  | declined (p : Proposal) (unmade : e.output ≠ some id) (proposed : p.status = .proposed) :
      RowMove e id (some p) (some { p with
        status := .declined
        updatedAt := e.input.env.timestamp })

section Rows

/-- Proposals are stored under their ids. -/
def State.Keyed (s : State) : Prop := ∀ id p, s.proposal id = some p → p.id = id

/-- Another row than the written one stays. -/
theorem RowMove.of_other {e : Step contract} {x : Bytes32} {row : Option Proposal}
    {table table' : Bytes32 → Option Proposal} (hwritten : table' = Function.update table x row)
    (hx : id ≠ x) (hunmade : e.output ≠ some id) : RowMove e id (table id) (table' id) := by
  rw [hwritten, Function.update_of_ne hx]
  exact .kept _ hunmade

/-- What an accepted call does to each row. -/
theorem Effect.row {i : Input contract} {o : Answer} (h : Effect crypto i.env s i.call o s')
    (hs : s.Keyed) (id : Bytes32) : RowMove ⟨s, i, o, s'⟩ id (s.proposal id) (s'.proposal id) := by
  obtain ⟨env, call⟩ := i
  cases h with
  | quiet _ _ hsame =>
    rw [hsame.proposal]
    exact .kept _ (Option.some_ne_none id).symm
  | create c t newId hcreates _ hretired hcreated =>
    by_cases hid : id = newId
    · subst hid
      rw [hcreated.proposal, Function.update_self]
      refine .made _ _ rfl (.inl ?_) rfl rfl ⟨rfl, rfl⟩
      show call.creation ≠ none
      rw [hcreates]
      exact Option.some_ne_none c
    · have hunmade : some newId ≠ some id := fun heq => hid (Option.some.inj heq).symm
      rw [hcreated.proposal, Function.update_of_ne hid]
      cases hretired with
      | clear => exact .kept _ hunmade
      | lapse existingId existing hindex hfound hopen =>
        obtain rfl := hs existingId existing hfound
        rw [expireProposal_proposal]
        by_cases hexisting : id = existing.id
        · subst hexisting
          rw [Function.update_self, hfound]
          exact .lapsed (e := ⟨s, ⟨env, call⟩, some newId, s'⟩) existing c hunmade hcreates hindex hopen
        · rw [Function.update_of_ne hexisting]
          exact .kept _ hunmade
  | approve participant named version proposal happrovable =>
    have hkey := hs named proposal happrovable.found
    have hunmade : (none : Answer) ≠ some id := (Option.some_ne_none id).symm
    rw [approved_proposal, hkey]
    by_cases hid : id = named
    · subst hid
      rw [Function.update_self, happrovable.found]
      exact .approved proposal participant version hunmade rfl happrovable
    · exact .of_other rfl hid hunmade
  | decline participant named reasonCode proposal hfound hproposed =>
    obtain rfl := hs named proposal hfound
    have hunmade : (none : Answer) ≠ some id := (Option.some_ne_none id).symm
    rw [settled_proposal]
    by_cases hid : id = proposal.id
    · subst hid
      rw [Function.update_self, hfound]
      exact .declined (e := ⟨s, ⟨env, .declineProposal participant proposal.id reasonCode⟩, none, _⟩)
        proposal hunmade hproposed
    · exact .of_other rfl hid hunmade
  | adjust coordinator named terms reasonHash proposal hreadjusted =>
    have hkey := hs named proposal hreadjusted.found
    have hwritten := hreadjusted.proposal
    rw [hkey] at hwritten
    by_cases hid : id = named
    · subst hid
      rw [hwritten, Function.update_self, hreadjusted.found]
      exact .made _ _ rfl (.inr ⟨rfl, proposal, rfl, rfl⟩) hkey rfl ⟨rfl, rfl⟩
    · exact .of_other hwritten hid fun heq => hid (Option.some.inj heq).symm

/-- The id and the two sides of a row stay, whatever the call. -/
theorem RowMove.keyed {e : Step contract} {row row' : Option Proposal} (h : RowMove e id row row')
    (hrow : ∀ p, row = some p → p.id = id) : ∀ p, row' = some p → p.id = id := by
  intro q hq
  cases h with
  | kept => exact hrow q hq
  | made _ p houtput how hkeyed =>
    cases hq
    exact hkeyed
  | lapsed p =>
    cases hq
    exact hrow p rfl
  | approved p participant =>
    cases hq
    exact (afterApproval_offer p participant _).1.trans (hrow p rfl)
  | declined p =>
    cases hq
    exact hrow p rfl

theorem Effect.keyed {i : Input contract} {o : Answer} (h : Effect crypto i.env s i.call o s')
    (hs : s.Keyed) : s'.Keyed := by
  intro id
  exact (h.row hs id).keyed (hs id)

end Rows

section Agreement

/-- A call that first offers a proposal, or puts it on new terms: the terms `p` is on. -/
structure Offers (id : Bytes32) (p : Proposal) (m : Step contract) : Prop where
  output : m.output = some id
  stored : ∃ q, m.post.proposal id = some q ∧ q.version = p.version ∧ q.terms = p.terms ∧
    q.pair = p.pair ∧ q.status = .proposed ∧ q.mentorApproved = false ∧ q.menteeApproved = false

/-- A side's signed approval of a proposal in the version that `p` is in. -/
structure Approves (id : Bytes32) (p : Proposal) (who : Address) (a : Step contract) : Prop where
  call : a.input.call = .approveProposal who id p.version
  signed : a.input.env.signers who = true
  stored : ∃ q, a.pre.proposal id = some q ∧ q.version = p.version ∧ q.terms = p.terms ∧
    q.pair = p.pair ∧ q.status = .proposed
  live : a.input.env.timestamp < p.expiresAt
  eligible : a.pre.Eligible p.mentor p.mentee

/-- Since the proposal was put on its terms, each side that has a mark has approved it. -/
structure Consented (es : List (Step contract)) (id : Bytes32) (p : Proposal) : Prop where
  marks : ∃ earlier m later, es = earlier ++ m :: later ∧ Offers id p m ∧
    (∀ e ∈ later, e.output ≠ some id) ∧
    (p.mentorApproved = true → ∃ a ∈ later, Approves id p p.mentor a) ∧
    (p.menteeApproved = true → ∃ a ∈ later, Approves id p p.mentee a)
  agreed : p.status = .active → p.mentorApproved = true ∧ p.menteeApproved = true

variable {q : Proposal}

/-- The same offer in another row. -/
structure SameOffer (p q : Proposal) : Prop where
  version : q.version = p.version
  terms : q.terms = p.terms
  pair : q.pair = p.pair

theorem Offers.congr {m : Step contract} (h : Offers id p m) (hsame : SameOffer p q) :
    Offers id q m := by
  obtain ⟨houtput, hstored⟩ := h
  refine ⟨houtput, ?_⟩
  rw [hsame.version, hsame.terms, hsame.pair]
  exact hstored

theorem SameOffer.sides (h : SameOffer p q) :
    q.mentor = p.mentor ∧ q.mentee = p.mentee ∧ q.expiresAt = p.expiresAt :=
  ⟨congrArg (fun x => x.2.1) h.pair, congrArg (fun x => x.2.2) h.pair,
    congrArg ProposalTerms.expiresAt h.terms⟩

theorem Approves.congr {who : Address} {a : Step contract} (h : Approves id p who a)
    (hsame : SameOffer p q) : Approves id q who a := by
  obtain ⟨hcall, hsigned, hstored, hlive, heligible⟩ := h
  obtain ⟨hmentor, hmentee, hexpires⟩ := hsame.sides
  refine ⟨?_, hsigned, ?_, ?_, ?_⟩
  · rw [hsame.version]
    exact hcall
  · rw [hsame.version, hsame.terms, hsame.pair]
    exact hstored
  · rwa [hexpires]
  · rwa [hmentor, hmentee]

/-- A later call that leaves the offer, and adds no mark but its own. -/
theorem Consented.next {e : Step contract} (h : Consented es id p) (hunmade : e.output ≠ some id)
    (hsame : SameOffer p q)
    (hmentor : q.mentorApproved = true → p.mentorApproved = true ∨ Approves id q q.mentor e)
    (hmentee : q.menteeApproved = true → p.menteeApproved = true ∨ Approves id q q.mentee e)
    (hagreed : q.status = .active → q.mentorApproved = true ∧ q.menteeApproved = true) :
    Consented (es ++ [e]) id q := by
  obtain ⟨earlier, m, later, rfl, hoffers, hunmades, hmentors, hmentees⟩ := h.marks
  obtain ⟨hsides, hsides', _⟩ := hsame.sides
  refine ⟨⟨earlier, m, later ++ [e], List.append_assoc _ _ _, hoffers.congr hsame, ?_, ?_, ?_⟩, hagreed⟩
  · intro x hx
    rcases List.mem_append.mp hx with hold | hnew
    · exact hunmades x hold
    · rwa [List.mem_singleton.mp hnew]
  · intro hmark
    rcases hmentor hmark with hold | hnew
    · obtain ⟨a, ha, happroves⟩ := hmentors hold
      rw [hsides]
      exact ⟨a, List.mem_append_left _ ha, happroves.congr hsame⟩
    · exact ⟨e, List.mem_concat_self, hnew⟩
  · intro hmark
    rcases hmentee hmark with hold | hnew
    · obtain ⟨a, ha, happroves⟩ := hmentees hold
      rw [hsides']
      exact ⟨a, List.mem_append_left _ ha, happroves.congr hsame⟩
    · exact ⟨e, List.mem_concat_self, hnew⟩

/-- What an approval marks, and when it makes the proposal active. -/
theorem afterApproval_marks {participant : Address} {now : Nat}
    (hside : participant = p.mentor ∨ participant = p.mentee) :
    ((p.afterApproval participant now).mentorApproved = true →
        p.mentorApproved = true ∨ participant = p.mentor) ∧
      ((p.afterApproval participant now).menteeApproved = true →
        p.menteeApproved = true ∨ participant = p.mentee) ∧
      ((p.afterApproval participant now).status = .active → p.status = .active ∨
        (p.afterApproval participant now).mentorApproved = true ∧
          (p.afterApproval participant now).menteeApproved = true) := by
  have hmarks : ((p.approvedBy participant now).mentorApproved = true →
        p.mentorApproved = true ∨ participant = p.mentor) ∧
      ((p.approvedBy participant now).menteeApproved = true →
        p.menteeApproved = true ∨ participant = p.mentee) := by
    unfold Proposal.approvedBy
    split_ifs with hmentor
    · exact ⟨fun _ => .inr hmentor, .inl⟩
    · exact ⟨.inl, fun _ => .inr (hside.resolve_left hmentor)⟩
  dsimp only [Proposal.afterApproval]
  split_ifs with hboth
  · exact ⟨hmarks.1, hmarks.2, fun _ => .inr hboth⟩
  · refine ⟨hmarks.1, hmarks.2, fun hactive => .inl ?_⟩
    rwa [(approvedBy_offer p participant now).2.2.2.2] at hactive

/-- Each row's consent is carried on by the call that moves it. -/
theorem RowMove.consented {e : Step contract} {row row' : Option Proposal} (h : RowMove e id row row')
    (hrow : ∀ p, row = some p → Consented es id p) (hpost : e.post.proposal id = row') :
    ∀ p, row' = some p → Consented (es ++ [e]) id p := by
  intro q hq
  cases h with
  | kept _ hunmade =>
    have hold := hrow q hq
    exact hold.next hunmade ⟨rfl, rfl, rfl⟩ .inl .inl hold.agreed
  | made _ p houtput how hkeyed hproposed hunapproved =>
    cases hq
    refine ⟨⟨es, e, [], rfl, ⟨houtput, q, hpost, rfl, rfl, rfl, hproposed, hunapproved⟩, ?_, ?_, ?_⟩, ?_⟩
    · intro x hx
      cases hx
    · intro hmark
      rw [hunapproved.1] at hmark
      cases hmark
    · intro hmark
      rw [hunapproved.2] at hmark
      cases hmark
    · intro hactive
      rw [hproposed] at hactive
      cases hactive
  | lapsed p c hunmade =>
    cases hq
    exact (hrow p rfl).next hunmade ⟨rfl, rfl, rfl⟩ .inl .inl fun hactive => by cases hactive
  | approved p participant version hunmade hcall happrovable =>
    cases hq
    obtain ⟨_, hpair, hterms, hversion⟩ := afterApproval_offer p participant e.input.env.timestamp
    have hsame : SameOffer p (p.afterApproval participant e.input.env.timestamp) :=
      ⟨hversion, hterms, hpair⟩
    obtain ⟨hmentor, hmentee, hactive⟩ :=
      @afterApproval_marks p participant e.input.env.timestamp happrovable.side
    have happroves : Approves id p participant e := by
      refine ⟨?_, happrovable.signed, ⟨p, happrovable.found, rfl, rfl, rfl, happrovable.proposed⟩,
        happrovable.live, happrovable.eligible⟩
      rw [hcall, happrovable.version]
    refine (hrow p rfl).next hunmade hsame ?_ ?_ ?_
    · intro hmark
      refine (hmentor hmark).imp_right fun hwho => ?_
      rw [hsame.sides.1, ← hwho]
      exact happroves.congr hsame
    · intro hmark
      refine (hmentee hmark).imp_right fun hwho => ?_
      rw [hsame.sides.2.1, ← hwho]
      exact happroves.congr hsame
    · intro hnow
      rcases hactive hnow with hbefore | hboth
      · rw [happrovable.proposed] at hbefore
        cases hbefore
      · exact hboth
  | declined p hunmade =>
    cases hq
    exact (hrow p rfl).next hunmade ⟨rfl, rfl, rfl⟩ .inl .inl fun hactive => by cases hactive

theorem run_consented (is : List (Input contract)) :
    ((machine contract crypto).run State.empty is).Keyed ∧
      ∀ id p, ((machine contract crypto).run State.empty is).proposal id = some p →
        Consented ((machine contract crypto).journal State.empty is) id p := by
  refine @Machine.run_journal_invariant _ _ _ _ (machine contract crypto)
    (fun s es => s.Keyed ∧ ∀ id p, s.proposal id = some p → Consented es id p) State.empty
    ⟨fun _ _ h => (by cases h), fun _ _ h => (by cases h)⟩ ?_ is
  intro es s i o s' hs h
  obtain ⟨hkeyed, hconsented⟩ := hs
  have heffect := step_effect h
  exact ⟨heffect.keyed hkeyed, fun id => (heffect.row hkeyed id).consented (hconsented id) rfl⟩

/-- An approval of another version is refused. -/
theorem approveProposal_stale {participant : Address} {version : Nat} (hfound : s.proposal id = some p)
    (hversion : p.version ≠ version) :
    (machine contract crypto).next s ⟨env, .approveProposal participant id version⟩ = s := by
  rcases (machine contract crypto).next_cases s ⟨env, .approveProposal participant id version⟩ with
    hsame | ⟨o, hstep⟩
  · exact hsame
  · simp only [machine, execute, map_eq_ok, Prod.mk.injEq] at hstep
    obtain ⟨_, happrove, _⟩ := hstep
    obtain ⟨q, happrovable, _⟩ := approveProposal_ok happrove
    rw [happrovable.found, Option.some.injEq] at hfound
    exact absurd (hfound ▸ happrovable.version) hversion

/-- Only an approval by one of the two sides makes a proposal active. -/
theorem RowMove.activates {e : Step contract} {row row' : Option Proposal} (h : RowMove e id row row')
    {q : Proposal} (hq : row' = some q) (hactive : q.status = .active)
    (hbefore : ∀ p, row = some p → p.status ≠ .active) :
    ∃ who, (who = q.mentor ∨ who = q.mentee) ∧ e.input.call = .approveProposal who id q.version ∧
      e.input.env.signers who = true := by
  cases h with
  | kept => exact absurd hactive (hbefore q hq)
  | made _ p houtput how hkeyed hproposed =>
    cases hq
    rw [hproposed] at hactive
    cases hactive
  | lapsed p =>
    cases hq
    cases hactive
  | approved p participant version hunmade hcall happrovable =>
    cases hq
    obtain ⟨_, hpair, hterms, hversion⟩ := afterApproval_offer p participant e.input.env.timestamp
    have hsame : SameOffer p (p.afterApproval participant e.input.env.timestamp) :=
      ⟨hversion, hterms, hpair⟩
    refine ⟨participant, ?_, ?_, happrovable.signed⟩
    · rw [hsame.sides.1, hsame.sides.2.1]
      exact happrovable.side
    · rw [hcall, hversion, happrovable.version]
  | declined p =>
    cases hq
    cases hactive

end Agreement

/-- In every run a proposal is active only when, since it was put on its terms, both sides have signed an
approval of its version in time and while they were eligible. An approval of another version changes
nothing, and nothing but an approval makes a proposal active. -/
theorem run_consent (is : List (Input contract)) :
    let s := (machine contract crypto).run State.empty is
    let es := (machine contract crypto).journal State.empty is
    (∀ id p, s.proposal id = some p → p.status = .active →
        ∃ earlier m later, es = earlier ++ m :: later ∧ Offers id p m ∧
          (∀ e ∈ later, e.output ≠ some id) ∧ (∃ a ∈ later, Approves id p p.mentor a) ∧
          ∃ a ∈ later, Approves id p p.mentee a) ∧
      (∀ id p version participant (env : Env contract), s.proposal id = some p → p.version ≠ version →
        (machine contract crypto).next s ⟨env, .approveProposal participant id version⟩ = s) ∧
      ∀ e ∈ es, ∀ id q, e.post.proposal id = some q → q.status = .active →
        (∀ p, e.pre.proposal id = some p → p.status ≠ .active) →
        ∃ who, (who = q.mentor ∨ who = q.mentee) ∧
          e.input.call = .approveProposal who id q.version ∧ e.input.env.signers who = true := by
  intro s es
  refine ⟨?_, ?_, ?_⟩
  · intro id p hp hactive
    have hconsented := (@run_consented contract crypto is).2 id p hp
    obtain ⟨hmentor, hmentee⟩ := hconsented.agreed hactive
    obtain ⟨earlier, m, later, hsplit, hoffers, hunmade, hmentors, hmentees⟩ := hconsented.marks
    exact ⟨earlier, m, later, hsplit, hoffers, hunmade, hmentors hmentor, hmentees hmentee⟩
  · intro id p version participant env hp hversion
    exact approveProposal_stale hp hversion
  · intro e he id q hq hactive hbefore
    have heffect := step_effect (Machine.journal_step he).1
    have hkeyed := Machine.journal_found (fun js => (@run_consented contract crypto js).1) he
    exact (heffect.row hkeyed id).activates hq hactive hbefore

theorem run_consent_sample :
    ∃ p, ((machine ⟨0⟩ sampleCrypto).run State.empty sampleAgreed).proposal sampleId = some p ∧
      ∃ a ∈ (machine ⟨0⟩ sampleCrypto).journal State.empty sampleAgreed,
        Approves sampleId p p.mentee a := by
  have hstatus : (((machine ⟨0⟩ sampleCrypto).run State.empty sampleAgreed).proposal sampleId).map
      Proposal.status = some .active := by
    decide +kernel
  obtain ⟨p, hp, hactive⟩ := Option.map_eq_some_iff.mp hstatus
  obtain ⟨earlier, m, later, hsplit, _, _, _, a, ha, happroves⟩ :=
    (@run_consent ⟨0⟩ sampleCrypto sampleAgreed).1 sampleId p hp hactive
  refine ⟨p, hp, a, ?_, happroves⟩
  rw [hsplit]
  exact List.mem_append_right _ (List.mem_cons_of_mem m ha)

end ChainVerse.MentorshipMatching
