import ChainVerse.Agreements.Steps
import ChainVerse.Framework.Listings

namespace ChainVerse.MentorshipAgreements

variable {contract : Address} {env : Env contract} {s s' : State} {call : Call} {o : Answer} {id : Nat}
  {es : List (Step contract)}

section Moves

/-- The range of times that the agreement gets from the amendment is in order. -/
def Agreement.InOrder (agreement : Agreement) (amendment : Amendment) : Prop :=
  amendment.newStartTime.getD agreement.startTime < amendment.newEndTime.getD agreement.endTime

/-- What an accepted call can do to one agreement. -/
inductive AgreementMove (s : State) (call : Call) (id : Nat) :
    Option Agreement → Option Agreement → Prop where
  | kept (row : Option Agreement) : AgreementMove s call id row row
  | created (agreement : Agreement) (sound : agreement.Sound)
      (ordered : agreement.startTime < agreement.endTime) :
      AgreementMove s call id none (some agreement)
  | restated (agreement : Agreement) (status : AgreementStatus) (now : Nat) :
      AgreementMove s call id (some agreement) (some (agreement.restate status now))
  | amended (agreement : Agreement) (amendment : Amendment) (amendmentId now : Nat)
      (activates : call.activates = some amendmentId)
      (found : s.amendment amendmentId = some amendment) (approved : amendment.status = .approved)
      (concerns : amendment.agreementId = id) :
      AgreementMove s call id (some agreement) (some (agreement.amend amendment now))

/-- A write of one agreement moves that one and keeps the others. -/
theorem AgreementMove.write (written : Agreement) (hid : written.id = id)
    (hmove : AgreementMove s call id (s.agreement id) (some written)) (other : Nat) :
    AgreementMove s call other (s.agreement other)
      (Function.update s.agreement written.id (some written) other) := by
  by_cases hsame : other = id
  · subst hsame
    rwa [hid, Function.update_self]
  · rw [hid, Function.update_of_ne hsame]
    exact .kept _

theorem Effect.agreementMove (h : Effect env s call o s') (hs : Books s) (id : Nat) :
    AgreementMove s call id (s.agreement id) (s'.agreement id) := by
  cases h with
  | quiet _ _ hagreements =>
    rw [hagreements]
    exact .kept _
  | @created _ written _ _ hnext _ hsound hordered =>
    have hdue := hs.agreement_due
    rw [← hnext] at hdue
    refine AgreementMove.write written rfl ?_ id
    rw [hdue]
    exact .created written hsound hordered
  | accepted => exact .kept _
  | @concluded _ agreement acceptance _ _ hacceptable =>
    have hid := (hs.agreementId _ agreement hacceptable.found).1
    refine AgreementMove.write (agreement.restate .active env.timestamp) hid ?_ id
    rw [hacceptable.found]
    exact .restated agreement _ _
  | @closed _ agreementId agreement status _ _ hfound =>
    have hid := (hs.agreementId _ agreement hfound).1
    refine AgreementMove.write (agreement.restate status env.timestamp) hid ?_ id
    rw [hfound]
    exact .restated agreement _ _
  | proposed => exact .kept _
  | approved => exact .kept _
  | rejected => exact .kept _
  | @activated _ amendmentId agreement amendment _ hactivates hfound happroved hagreed =>
    have hid := (hs.agreementId _ agreement hagreed).1
    refine AgreementMove.write (agreement.amend amendment env.timestamp) hid ?_ id
    rw [hagreed]
    exact .amended agreement amendment amendmentId _ hactivates hfound happroved rfl

/-- What an accepted call can do to one amendment. -/
inductive AmendmentMove (env : Env contract) (s : State) (call : Call) (o : Answer) (id : Nat) :
    Option Amendment → Option Amendment → Prop where
  | kept (row : Option Amendment) (unactivated : call.activates ≠ some id) :
      AmendmentMove env s call o id row row
  | proposed (amendment : Amendment) (agreement : Agreement) (unactivated : call.activates ≠ some id)
      (sound : amendment.Sound) (status : amendment.status = .proposed)
      (agreed : s.agreement amendment.agreementId = some agreement)
      (proposes : call.proposes = some amendment.proposer) (given : o = .amendmentId id)
      (signed : env.signers amendment.proposer = true)
      (mentor : amendment.mentorApproved = true → amendment.proposer = agreement.mentor)
      (mentee : amendment.menteeApproved = true → amendment.proposer = agreement.mentee) :
      AmendmentMove env s call o id none (some amendment)
  | approved (amendment : Amendment) (agreement : Agreement) (approver : Address) (isMentor : Bool)
      (unactivated : call.activates ≠ some id) (undecided : amendment.status = .proposed)
      (agreed : s.agreement amendment.agreementId = some agreement)
      (approves : call.approves = some (approver, id)) (signed : env.signers approver = true)
      (mentor : isMentor = true → approver = agreement.mentor)
      (mentee : isMentor = false → approver = agreement.mentee) :
      AmendmentMove env s call o id (some amendment) (some (amendment.approve isMentor))
  | rejected (amendment : Amendment) (unactivated : call.activates ≠ some id)
      (undecided : amendment.status = .proposed) :
      AmendmentMove env s call o id (some amendment) (some { amendment with status := .rejected })
  | activated (amendment : Amendment) (now : Nat) (activates : call.activates = some id)
      (approved : amendment.status = .approved) :
      AmendmentMove env s call o id (some amendment)
        (some { amendment with status := .activated, activatedAt := some now })

theorem AmendmentMove.write (written : Amendment) (hid : written.id = id)
    (hothers : ∀ other, other ≠ id → call.activates ≠ some other)
    (hmove : AmendmentMove env s call o id (s.amendment id) (some written)) (other : Nat) :
    AmendmentMove env s call o other (s.amendment other)
      (Function.update s.amendment written.id (some written) other) := by
  by_cases hsame : other = id
  · subst hsame
    rwa [hid, Function.update_self]
  · rw [hid, Function.update_of_ne hsame]
    exact .kept _ (hothers other hsame)

theorem unactivated {id : Nat} (h : call.activates = none) : call.activates ≠ some id := by
  rw [h]
  exact (Option.some_ne_none id).symm

theorem Effect.amendmentMove (h : Effect env s call o s') (hs : Books s) (id : Nat) :
    AmendmentMove env s call o id (s.amendment id) (s'.amendment id) := by
  cases h with
  | quiet _ hnone _ _ hamendments =>
    rw [hamendments]
    exact .kept _ (unactivated hnone)
  | created _ hnone => exact .kept _ (unactivated hnone)
  | accepted _ hnone => exact .kept _ (unactivated hnone)
  | concluded _ hnone => exact .kept _ (unactivated hnone)
  | closed _ hnone => exact .kept _ (unactivated hnone)
  | @proposed agreement written _ hnone hproposes hsigned hfound hnext hsound hstatus hmentor hmentee =>
    have hdue := hs.amendment_due
    rw [← hnext] at hdue
    refine AmendmentMove.write written rfl (fun _ _ => unactivated hnone) ?_ id
    rw [hdue]
    exact .proposed written agreement (unactivated hnone) hsound hstatus hfound hproposes rfl hsigned
      hmentor hmentee
  | @approved _ approver amendmentId agreement amendment isMentor _ hnone happroves hsigned hfound hopen
      hagreed hmentor hmentee =>
    have hid := (hs.amendmentId _ amendment hfound).1
    rw [← (approve_spec amendment isMentor).id] at hid
    refine AmendmentMove.write (amendment.approve isMentor) hid (fun _ _ => unactivated hnone) ?_ id
    rw [hfound]
    exact .approved amendment agreement approver isMentor (unactivated hnone) hopen hagreed happroves
      hsigned hmentor hmentee
  | @rejected _ amendmentId amendment _ hnone hfound hopen =>
    have hid := (hs.amendmentId _ amendment hfound).1
    refine AmendmentMove.write { amendment with status := .rejected } hid
      (fun _ _ => unactivated hnone) ?_ id
    rw [hfound]
    exact .rejected amendment (unactivated hnone) hopen
  | @activated _ amendmentId agreement amendment _ hactivates hfound happroved =>
    have hid := (hs.amendmentId _ amendment hfound).1
    refine AmendmentMove.write { amendment with
      status := .activated
      activatedAt := some env.timestamp } hid ?_ ?_ id
    · intro other hother
      rw [hactivates]
      exact fun heq => hother (Option.some.inj heq).symm
    · rw [hfound]
      exact .activated amendment _ hactivates happroved

end Moves

section Validity

/-- The terms of an agreement that both participants have agreed on. -/
structure Terms where
  programHash : Bytes32
  scopeHash : Bytes32
  startTime : Nat
  endTime : Nat
  cadenceSeconds : Nat
  pricePerSession : Int
  cancellationPolicyHash : Bytes32
  conductHash : Bytes32
  evidenceHash : Bytes32
  termsVersion : Nat
  deriving DecidableEq

def Agreement.terms (agreement : Agreement) : Terms where
  programHash := agreement.programHash
  scopeHash := agreement.scopeHash
  startTime := agreement.startTime
  endTime := agreement.endTime
  cadenceSeconds := agreement.cadenceSeconds
  pricePerSession := agreement.pricePerSession
  cancellationPolicyHash := agreement.cancellationPolicyHash
  conductHash := agreement.conductHash
  evidenceHash := agreement.evidenceHash
  termsVersion := agreement.termsVersion

/-- Everything that creation checks. -/
structure Agreement.Valid (agreement : Agreement) : Prop extends Agreement.Sound agreement where
  ordered : agreement.startTime < agreement.endTime

/-- An activation finds the range of times in order that it makes. -/
def KeepsOrder (e : Step contract) : Prop :=
  ∀ amendmentId amendment agreement, e.input.call.activates = some amendmentId →
    e.pre.amendment amendmentId = some amendment →
      e.pre.agreement amendment.agreementId = some agreement → agreement.InOrder amendment

/-- The records of a store are sound but for the ranges of times. -/
structure Sound (s : State) : Prop where
  agreement : ∀ id agreement, s.agreement id = some agreement → agreement.Sound
  amendment : ∀ id amendment, s.amendment id = some amendment → amendment.Sound

theorem Agreement.Sound.amend {agreement : Agreement} {amendment : Amendment}
    (hagreement : agreement.Sound) (hamendment : amendment.Sound) (now : Nat) :
    (agreement.amend amendment now).Sound where
  parties := hagreement.parties
  cadence := by
    show 0 < amendment.newCadence.getD agreement.cadenceSeconds
    rcases hnew : amendment.newCadence with _ | cadence
    · exact hagreement.cadence
    · exact hamendment.cadence cadence hnew
  price := by
    show 0 ≤ amendment.newPrice.getD agreement.pricePerSession
    rcases hnew : amendment.newPrice with _ | price
    · exact hagreement.price
    · exact hamendment.price price hnew

theorem Amendment.Sound.approve {amendment : Amendment} (h : amendment.Sound) (isMentor : Bool) :
    (amendment.approve isMentor).Sound := by
  have happroval := approve_spec amendment isMentor
  constructor
  · rw [happroval.newCadence]
    exact h.cadence
  · rw [happroval.newPrice]
    exact h.price

theorem Effect.sound (h : Effect env s call o s') (hbooks : Books s) (hs : Sound s) : Sound s' where
  agreement := by
    intro id agreement hrow
    have hmove := h.agreementMove hbooks id
    rw [hrow] at hmove
    generalize hold : s.agreement id = row at hmove
    cases hmove with
    | kept => exact hs.agreement id agreement hold
    | created _ hsound => exact hsound
    | restated stored =>
      obtain ⟨hparties, hcadence, hprice⟩ := hs.agreement id stored hold
      exact ⟨hparties, hcadence, hprice⟩
    | amended stored amendment amendmentId now _ hfound =>
      exact (hs.agreement id stored hold).amend (hs.amendment amendmentId amendment hfound) now
  amendment := by
    intro id amendment hrow
    have hmove := h.amendmentMove hbooks id
    rw [hrow] at hmove
    generalize hold : s.amendment id = row at hmove
    cases hmove with
    | kept => exact hs.amendment id amendment hold
    | proposed _ _ _ hsound => exact hsound
    | approved stored _ _ isMentor => exact (hs.amendment id stored hold).approve isMentor
    | rejected stored =>
      obtain ⟨hcadence, hprice⟩ := hs.amendment id stored hold
      exact ⟨hcadence, hprice⟩
    | activated stored =>
      obtain ⟨hcadence, hprice⟩ := hs.amendment id stored hold
      exact ⟨hcadence, hprice⟩

theorem run_sound (is : List (Input contract)) : Sound ((machine contract).run State.empty is) := by
  have hboth : Books ((machine contract).run State.empty is) ∧
      Sound ((machine contract).run State.empty is) := by
    refine @Machine.run_invariant _ _ _ _ (machine contract) (fun t => Books t ∧ Sound t) State.empty
      ⟨books_empty, ?_⟩ ?_ is
    · constructor
      · exact fun _ _ h => absurd h (Option.some_ne_none _).symm
      · exact fun _ _ h => absurd h (Option.some_ne_none _).symm
    · intro s i o s' hs h
      exact ⟨(step_effect h).books hs.1, (step_effect h).sound hs.1 hs.2⟩
  exact hboth.2

def Ordered (s : State) : Prop :=
  ∀ id agreement, s.agreement id = some agreement → agreement.startTime < agreement.endTime

/-- An accepted call that is no activation out of order leaves the ranges of times in order. -/
theorem Effect.ordered (h : Effect env s call o s') (hbooks : Books s)
    (hkeeps : ∀ amendmentId amendment agreement, call.activates = some amendmentId →
      s.amendment amendmentId = some amendment →
        s.agreement amendment.agreementId = some agreement → agreement.InOrder amendment)
    (hs : Ordered s) : Ordered s' := by
  intro id agreement hrow
  have hmove := h.agreementMove hbooks id
  rw [hrow] at hmove
  generalize hold : s.agreement id = row at hmove
  cases hmove with
  | kept => exact hs id agreement hold
  | created _ _ hordered => exact hordered
  | restated stored => exact hs id stored hold
  | amended stored amendment amendmentId now hactivates hfound _ hconcerns =>
    subst hconcerns
    exact hkeeps amendmentId amendment stored hactivates hfound hold

/-- The activation that makes the range of times leaves it in the store. -/
theorem Effect.inOrder (h : Effect env s call o s') (hs' : Ordered s') {amendmentId : Nat}
    {amendment : Amendment} {agreement : Agreement} (hactivates : call.activates = some amendmentId)
    (hfound : s.amendment amendmentId = some amendment)
    (hagreed : s.agreement amendment.agreementId = some agreement) : agreement.InOrder amendment := by
  have hnone : call.activates ≠ none := by
    rw [hactivates]
    exact Option.some_ne_none _
  cases h with
  | quiet _ h => exact absurd h hnone
  | created _ h => exact absurd h hnone
  | accepted _ h => exact absurd h hnone
  | concluded _ h => exact absurd h hnone
  | closed _ h => exact absurd h hnone
  | proposed _ h => exact absurd h hnone
  | approved _ h => exact absurd h hnone
  | rejected _ h => exact absurd h hnone
  | @activated _ id stored written _ hactivated hwritten _ hstored =>
    obtain rfl : id = amendmentId := Option.some.inj (hactivated.symm.trans hactivates)
    obtain rfl : written = amendment := Option.some.inj (hwritten.symm.trans hfound)
    obtain rfl : stored = agreement := Option.some.inj (hstored.symm.trans hagreed)
    apply hs' stored.id (stored.amend written env.timestamp)
    exact Function.update_self _ _ _

/-- The ranges of times are in order all along a run just when every activation makes one in order. -/
theorem run_ordered_iff (is : List (Input contract)) :
    (∀ earlier, earlier <+: is → Ordered ((machine contract).run State.empty earlier)) ↔
      ∀ e ∈ (machine contract).journal State.empty is, KeepsOrder e := by
  constructor
  · intro hordered e he amendmentId amendment agreement hactivates hfound hagreed
    obtain ⟨before, after, hsplit⟩ := List.append_of_mem he
    obtain ⟨upto, hupto, hpost, _⟩ := Machine.journal_upto hsplit
    have hafter := hordered upto hupto
    rw [hpost] at hafter
    exact (step_effect (Machine.journal_step he).1).inOrder hafter hactivates hfound hagreed
  · intro hkeeps earlier hearlier
    obtain ⟨later, rfl⟩ := hearlier
    rw [Machine.journal_append, List.forall_mem_append] at hkeeps
    refine (@Machine.run_journal_invariant _ _ _ _ (machine contract)
      (fun t es => Books t ∧ ((∀ e ∈ es, KeepsOrder e) → Ordered t)) State.empty
      ⟨books_empty, ?_⟩ ?_ earlier).2 hkeeps.1
    · exact fun _ _ _ h => absurd h (Option.some_ne_none _).symm
    · intro es s i o s' hs h
      obtain ⟨hbooks, hordered⟩ := hs
      refine ⟨(step_effect h).books hbooks, fun hall => ?_⟩
      rw [List.forall_mem_append, List.forall_mem_singleton] at hall
      exact (step_effect h).ordered hbooks hall.2 (hordered hall.1)

end Validity

section Consent

/-- A participant proposes the amendment or approves it. -/
def Consents (id : Nat) (party : Address) (e : Step contract) : Prop :=
  e.input.env.signers party = true ∧ (e.input.call.approves = some (party, id) ∨
    e.input.call.proposes = some party ∧ e.output = .amendmentId id)

def Consented (es : List (Step contract)) (id : Nat) (party : Address) : Prop :=
  ∃ e ∈ es, Consents id party e

theorem Consented.snoc {party : Address} (h : Consented es id party) (e : Step contract) :
    Consented (es ++ [e]) id party := by
  obtain ⟨e', he', hconsents⟩ := h
  exact ⟨e', List.mem_append_left _ he', hconsents⟩

theorem consented_last {party : Address} {e : Step contract} (h : Consents id party e) :
    Consented (es ++ [e]) id party := ⟨e, List.mem_concat_self, h⟩

/-- What an agreement keeps for good. -/
structure SameParties (agreement next : Agreement) : Prop where
  mentor : next.mentor = agreement.mentor
  mentee : next.mentee = agreement.mentee
  token : next.token = agreement.token

theorem AgreementMove.parties {agreement : Agreement} {row : Option Agreement}
    (h : AgreementMove s call id (some agreement) row) :
    ∃ next, row = some next ∧ SameParties agreement next := by
  cases h with
  | kept => exact ⟨agreement, rfl, rfl, rfl, rfl⟩
  | restated => exact ⟨_, rfl, rfl, rfl, rfl⟩
  | amended => exact ⟨_, rfl, rfl, rfl, rfl⟩

/-- What the approvals on an amendment stand for. -/
structure Backed (es : List (Step contract)) (id : Nat) (amendment : Amendment)
    (agreement : Agreement) : Prop where
  mentor : amendment.mentorApproved = true → Consented es id agreement.mentor
  mentee : amendment.menteeApproved = true → Consented es id agreement.mentee
  both : amendment.status = .approved →
    amendment.mentorApproved = true ∧ amendment.menteeApproved = true

theorem Backed.approve {amendment : Amendment} {agreement : Agreement} (h : Backed es id amendment agreement)
    (hundecided : amendment.status = .proposed) {isMentor : Bool} {e : Step contract}
    (hmentor : isMentor = true → Consents id agreement.mentor e)
    (hmentee : isMentor = false → Consents id agreement.mentee e) :
    Backed (es ++ [e]) id (amendment.approve isMentor) agreement := by
  have happroval := approve_spec amendment isMentor
  refine ⟨?_, ?_, ?_⟩
  · intro happroved
    rw [happroval.mentor, Bool.or_eq_true] at happroved
    rcases happroved with hnow | hbefore
    · exact consented_last (hmentor hnow)
    · exact (h.mentor hbefore).snoc e
  · intro happroved
    rw [happroval.mentee, Bool.or_eq_true, Bool.not_eq_true'] at happroved
    rcases happroved with hnow | hbefore
    · exact consented_last (hmentee hnow)
    · exact (h.mentee hbefore).snoc e
  · intro happroved
    rw [happroval.status, hundecided] at happroved
    split_ifs at happroved with hboth
    exact hboth

/-- Every amendment concerns an agreement whose participants have given the approvals on it. -/
def AllBacked (es : List (Step contract)) (s : State) : Prop :=
  ∀ id amendment, s.amendment id = some amendment →
    ∃ agreement, s.agreement amendment.agreementId = some agreement ∧ Backed es id amendment agreement

theorem AllBacked.step {i : Input contract} (hbooks : Books s) (hs : AllBacked es s)
    (h : (machine contract).step s i = .ok (o, s')) : AllBacked (es ++ [⟨s, i, o, s'⟩]) s' := by
  have heffect := step_effect h
  intro id amendment hrow
  have hmove := heffect.amendmentMove hbooks id
  rw [hrow] at hmove
  -- The agreement goes on with the same participants.
  have hnext : ∀ agreement, s.agreement amendment.agreementId = some agreement →
      Backed (es ++ [⟨s, i, o, s'⟩]) id amendment agreement →
      ∃ next, s'.agreement amendment.agreementId = some next ∧
        Backed (es ++ [⟨s, i, o, s'⟩]) id amendment next := by
    intro agreement hagreed hbacked
    have hagreement := heffect.agreementMove hbooks amendment.agreementId
    rw [hagreed] at hagreement
    obtain ⟨next, hnext, hparties⟩ := hagreement.parties
    refine ⟨next, hnext, ?_, ?_, hbacked.both⟩
    · rw [hparties.mentor]
      exact hbacked.mentor
    · rw [hparties.mentee]
      exact hbacked.mentee
  generalize hold : s.amendment id = row at hmove
  cases hmove with
  | kept =>
    obtain ⟨agreement, hagreed, hbacked⟩ := hs id amendment hold
    exact hnext agreement hagreed
      ⟨fun hm => (hbacked.mentor hm).snoc _, fun hm => (hbacked.mentee hm).snoc _, hbacked.both⟩
  | proposed _ agreement _ _ hstatus hagreed hproposes hgiven hsigned hmentor hmentee =>
    have hconsents : Consents id amendment.proposer (⟨s, i, o, s'⟩ : Step contract) :=
      ⟨hsigned, .inr ⟨hproposes, hgiven⟩⟩
    refine hnext agreement hagreed ⟨?_, ?_, ?_⟩
    · intro happroved
      rw [← hmentor happroved]
      exact consented_last hconsents
    · intro happroved
      rw [← hmentee happroved]
      exact consented_last hconsents
    · intro happroved
      rw [hstatus] at happroved
      cases happroved
  | approved stored agreement approver isMentor _ hundecided hagreed happroves hsigned hmentor hmentee =>
    obtain ⟨known, hknown, hbacked⟩ := hs id stored hold
    obtain rfl : known = agreement := Option.some.inj (hknown.symm.trans hagreed)
    have hconsents : Consents id approver (⟨s, i, o, s'⟩ : Step contract) :=
      ⟨hsigned, .inl happroves⟩
    refine hnext known ?_ (hbacked.approve hundecided ?_ ?_)
    · rw [(approve_spec stored isMentor).agreementId]
      exact hagreed
    · intro hm
      rw [← hmentor hm]
      exact hconsents
    · intro hm
      rw [← hmentee hm]
      exact hconsents
  | rejected stored =>
    obtain ⟨agreement, hagreed, hbacked⟩ := hs id stored hold
    refine hnext agreement hagreed
      ⟨fun hm => (hbacked.mentor hm).snoc _, fun hm => (hbacked.mentee hm).snoc _, ?_⟩
    intro happroved
    cases happroved
  | activated stored =>
    obtain ⟨agreement, hagreed, hbacked⟩ := hs id stored hold
    refine hnext agreement hagreed
      ⟨fun hm => (hbacked.mentor hm).snoc _, fun hm => (hbacked.mentee hm).snoc _, ?_⟩
    intro happroved
    cases happroved

theorem run_backed (is : List (Input contract)) :
    AllBacked ((machine contract).journal State.empty is) ((machine contract).run State.empty is) := by
  refine (@Machine.run_journal_invariant _ _ _ _ (machine contract)
    (fun t es => Books t ∧ AllBacked es t) State.empty ⟨books_empty, ?_⟩ ?_ is).2
  · exact fun _ _ h => absurd h (Option.some_ne_none _).symm
  · exact fun es s i o s' hs h => ⟨(step_effect h).books hs.1, hs.2.step hs.1 h⟩

/-- An amendment has been activated once if its status says so, and otherwise never. -/
theorem run_activations (is : List (Input contract)) (id : Nat) :
    ((machine contract).journal State.empty is).countP (fun e => e.input.call.activates = some id) =
      if (((machine contract).run State.empty is).amendment id).map Amendment.status =
        some .activated then 1 else 0 := by
  refine (@Machine.run_journal_invariant _ _ _ _ (machine contract)
    (fun t es => Books t ∧ es.countP (fun e => e.input.call.activates = some id) =
      if (t.amendment id).map Amendment.status = some .activated then 1 else 0) State.empty
    ⟨books_empty, rfl⟩ ?_ is).2
  intro es s i o s' hs h
  obtain ⟨hbooks, hcount⟩ := hs
  refine ⟨(step_effect h).books hbooks, ?_⟩
  have hmove := (step_effect h).amendmentMove hbooks id
  rw [countP_snoc, hcount]
  generalize s.amendment id = row at hmove
  generalize s'.amendment id = row' at hmove
  cases hmove with
  | kept _ hunactivated => simp [hunactivated]
  | proposed _ _ hunactivated _ hstatus => simp [hunactivated, hstatus]
  | approved amendment _ _ isMentor hunactivated hundecided =>
    have hstatus : (amendment.approve isMentor).status ≠ .activated := by
      rw [(approve_spec amendment isMentor).status, hundecided]
      split_ifs <;> decide
    simp [hunactivated, hstatus, hundecided]
  | rejected _ hunactivated hundecided => simp [hunactivated, hundecided]
  | activated _ _ hactivates happroved => simp [hactivates, happroved]

end Consent

section Runs

/-- Every agreement of a store is valid. -/
def AllValid (s : State) : Prop := ∀ id agreement, s.agreement id = some agreement → agreement.Valid

theorem run_valid_iff (is : List (Input contract)) :
    (∀ earlier, earlier <+: is → AllValid ((machine contract).run State.empty earlier)) ↔
      ∀ e ∈ (machine contract).journal State.empty is, KeepsOrder e := by
  rw [← run_ordered_iff]
  refine forall_congr' fun earlier => forall_congr' fun _ => ?_
  have hsound := run_sound earlier
  constructor
  · exact fun hvalid id agreement hstored => (hvalid id agreement hstored).ordered
  · exact fun hordered id agreement hstored =>
      ⟨hsound.agreement id agreement hstored, hordered id agreement hstored⟩

/-- The terms of an agreement change with an amendment alone that both participants have agreed to. -/
theorem AgreementMove.termsChange {agreement next : Agreement}
    (h : AgreementMove s call id (some agreement) (some next)) (hnew : next.terms ≠ agreement.terms) :
    ∃ amendmentId amendment, call.activates = some amendmentId ∧
      s.amendment amendmentId = some amendment ∧ amendment.status = .approved ∧
      amendment.agreementId = id ∧ ∃ now, next = agreement.amend amendment now := by
  cases h with
  | kept => exact absurd rfl hnew
  | restated => exact absurd rfl hnew
  | amended _ amendment amendmentId now hactivates hfound happroved hconcerns =>
    exact ⟨amendmentId, amendment, hactivates, hfound, happroved, hconcerns, now, rfl⟩

/-- Along every run the agreements are sound but for their ranges of times, and these are in order as
well just when each activation makes one in order. The participants and the token of an agreement stay,
its terms change only by an amendment to which both participants have agreed before, and an amendment
is activated at most once. -/
theorem run_agreed_terms (is : List (Input contract)) :
    let s := (machine contract).run State.empty is
    let es := (machine contract).journal State.empty is
    (∀ id agreement, s.agreement id = some agreement → agreement.Sound) ∧
      ((∀ earlier, earlier <+: is → AllValid ((machine contract).run State.empty earlier)) ↔
        ∀ e ∈ es, KeepsOrder e) ∧
      (∀ earlier e later, es = earlier ++ e :: later → ∀ id agreement,
        e.pre.agreement id = some agreement → ∃ next, e.post.agreement id = some next ∧
          SameParties agreement next ∧ (next.terms ≠ agreement.terms →
            ∃ amendmentId amendment now, e.input.call.activates = some amendmentId ∧
              e.pre.amendment amendmentId = some amendment ∧ amendment.agreementId = id ∧
              next = agreement.amend amendment now ∧
              Consented earlier amendmentId agreement.mentor ∧
              Consented earlier amendmentId agreement.mentee)) ∧
      ∀ id, es.countP (fun e => e.input.call.activates = some id) ≤ 1 := by
  intro s es
  refine ⟨(run_sound is).agreement, run_valid_iff is, ?_, ?_⟩
  · intro earlier e later hsplit id agreement hagreed
    obtain ⟨js, _, _, hjournal, hpre, hstep⟩ := Machine.journal_split hsplit
    have hbooks : Books e.pre := hpre ▸ run_books js
    have hbacked : AllBacked earlier e.pre := hpre ▸ hjournal ▸ run_backed js
    have hmove := (step_effect hstep).agreementMove hbooks id
    rw [hagreed] at hmove
    obtain ⟨next, hnext, hparties⟩ := hmove.parties
    refine ⟨next, hnext, hparties, fun hnew => ?_⟩
    rw [hnext] at hmove
    obtain ⟨amendmentId, amendment, hactivates, hfound, happroved, rfl, now, hamended⟩ :=
      hmove.termsChange hnew
    obtain ⟨known, hknown, hconsents⟩ := hbacked amendmentId amendment hfound
    obtain rfl : known = agreement := Option.some.inj (hknown.symm.trans hagreed)
    obtain ⟨hmentor, hmentee⟩ := hconsents.both happroved
    exact ⟨amendmentId, amendment, now, hactivates, hfound, rfl, hamended, hconsents.mentor hmentor,
      hconsents.mentee hmentee⟩
  · intro id
    rw [run_activations]
    split_ifs <;> decide

/-- Two amendments are proposed while the agreement runs from 1000 to 2000, one to begin at 1900 and the
other to end at 1100, and both are approved and activated. -/
def sampleAmended : List (Input ⟨0⟩) :=
  [⟨.sample, .createAgreement ⟨1⟩ ⟨2⟩ 0 0 1000 2000 7 5 ⟨3⟩ 0 0 0 1⟩,
    ⟨.sample, .acceptAgreement ⟨1⟩ 1 9 1⟩,
    ⟨.sample, .acceptAgreement ⟨2⟩ 1 9 1⟩,
    ⟨.sample, .proposeAmendment ⟨1⟩ 1 none none (some 1900) none none none 0⟩,
    ⟨.sample, .proposeAmendment ⟨2⟩ 1 none none none (some 1100) none none 0⟩,
    ⟨.sample, .approveAmendment ⟨2⟩ 1⟩,
    ⟨.sample, .approveAmendment ⟨1⟩ 2⟩,
    ⟨.sample, .activateAmendment ⟨1⟩ 1⟩,
    ⟨.sample, .activateAmendment ⟨1⟩ 2⟩]

/-- The agreement then begins after it ends. -/
theorem sampleAmended_disordered : ¬AllValid ((machine ⟨0⟩).run State.empty sampleAmended) := by
  intro hvalid
  have hstored : (((machine ⟨0⟩).run State.empty sampleAmended).agreement 1).map
      (fun agreement => (agreement.startTime, agreement.endTime)) = some (1900, 1100) := by
    decide +kernel
  obtain ⟨agreement, hagreement, hrange⟩ := Option.map_eq_some_iff.mp hstored
  obtain ⟨hstart, hend⟩ := Prod.mk.inj hrange
  have hordered := (hvalid 1 agreement hagreement).ordered
  rw [hstart, hend] at hordered
  exact absurd hordered (by decide)

end Runs

end ChainVerse.MentorshipAgreements
