import ChainVerse.Agreements.Contract
import ChainVerse.Framework.Tables

namespace ChainVerse.MentorshipAgreements

variable {contract : Address} {env : Env contract} {s s' t : State} {call : Call} {o : Answer}

/-- An accepted call of a run, with the stores around it. -/
abbrev Step (contract : Address) := Entry State (Input contract) Answer

/-- The amendment that a call activates. -/
def Call.activates : Call → Option Nat
  | .activateAmendment _ amendmentId => some amendmentId
  | _ => none

/-- Who accepts which agreement, and the hash of the document that is signed. -/
def Call.accepts : Call → Option (Address × Nat × Bytes32)
  | .acceptAgreement actor agreementId agreementHash _ => some (actor, agreementId, agreementHash)
  | _ => none

/-- Who approves which amendment. -/
def Call.approves : Call → Option (Address × Nat)
  | .approveAmendment approver amendmentId => some (approver, amendmentId)
  | _ => none

def Call.proposes : Call → Option Address
  | .proposeAmendment proposer .. => some proposer
  | _ => none

def Agreement.Participant (agreement : Agreement) (actor : Address) : Prop :=
  actor = agreement.mentor ∨ actor = agreement.mentee

/-- What creation checks but for the range of times. -/
structure Agreement.Sound (agreement : Agreement) : Prop where
  parties : agreement.mentor ≠ agreement.mentee
  cadence : 0 < agreement.cadenceSeconds
  price : 0 ≤ agreement.pricePerSession

/-- What a proposal checks of the amendment alone. -/
structure Amendment.Sound (amendment : Amendment) : Prop where
  cadence : ∀ cadence ∈ amendment.newCadence, 0 < cadence
  price : ∀ price ∈ amendment.newPrice, 0 ≤ price

/-- An agreement in a new status. -/
def Agreement.restate (agreement : Agreement) (status : AgreementStatus) (now : Nat) : Agreement :=
  { agreement with status := status, updatedAt := now }

/-- An agreement is stored under the id that is due. -/
def State.issue (s : State) (agreement : Agreement) : State :=
  setAgreement { s with nextAgreementId := agreement.id + 1 } agreement

/-- An amendment is stored under the id that is due. -/
def State.submit (s : State) (amendment : Amendment) : State :=
  setAmendment { s with nextAmendmentId := amendment.id + 1 } amendment

/-- An acceptance goes on record, and the nonce of the actor is used up. -/
def State.record (s : State) (acceptance : Acceptance) : State :=
  setAcceptance { s with
    userNonce := Function.update s.userNonce acceptance.actor acceptance.nonce } acceptance

/-- What is found before an acceptance goes on record. -/
structure Acceptable (s : State) (agreement : Agreement) (acceptance : Acceptance) : Prop where
  found : s.agreement acceptance.agreementId = some agreement
  live : agreement.status = .pending ∨ agreement.status = .active
  participant : agreement.Participant acceptance.actor
  fresh : s.acceptance (acceptance.agreementId, acceptance.actor) = none
  version : acceptance.termsVersion = agreement.termsVersion

/-- Both participants of an agreement have an acceptance on record. -/
def Accepted (s : State) (agreementId : Nat) (agreement : Agreement) : Prop :=
  (s.acceptance (agreementId, agreement.mentor)).isSome = true ∧
    (s.acceptance (agreementId, agreement.mentee)).isSome = true

/-- Everything that an accepted call can have done. -/
inductive Effect (env : Env contract) (s : State) : Call → Answer → State → Prop where
  | quiet {call : Call} {o : Answer} {s' : State} (unaccepted : call.accepts = none)
      (unactivated : call.activates = none) (agreements : s'.agreement = s.agreement)
      (acceptances : s'.acceptance = s.acceptance) (amendments : s'.amendment = s.amendment)
      (nextAgreementId : s'.nextAgreementId = s.nextAgreementId)
      (nextAmendmentId : s'.nextAmendmentId = s.nextAmendmentId) : Effect env s call o s'
  | created {call : Call} {o : Answer} {agreement : Agreement} (unaccepted : call.accepts = none)
      (unactivated : call.activates = none) (next : agreement.id = s.nextAgreementId)
      (pending : agreement.status = .pending) (sound : agreement.Sound)
      (ordered : agreement.startTime < agreement.endTime) :
      Effect env s call o (s.issue agreement)
  | accepted {call : Call} {o : Answer} {agreement : Agreement} {acceptance : Acceptance}
      (accepts : call.accepts =
        some (acceptance.actor, acceptance.agreementId, acceptance.agreementHash))
      (unactivated : call.activates = none) (acceptable : Acceptable s agreement acceptance)
      (waiting : ¬(Accepted (s.record acceptance) acceptance.agreementId agreement ∧
        agreement.status = .pending)) : Effect env s call o (s.record acceptance)
  | concluded {call : Call} {o : Answer} {agreement : Agreement} {acceptance : Acceptance}
      (accepts : call.accepts =
        some (acceptance.actor, acceptance.agreementId, acceptance.agreementHash))
      (unactivated : call.activates = none) (acceptable : Acceptable s agreement acceptance)
      (accepted : Accepted (s.record acceptance) acceptance.agreementId agreement)
      (pending : agreement.status = .pending) :
      Effect env s call o (setAgreement (s.record acceptance) (agreement.restate .active env.timestamp))
  | closed {call : Call} {o : Answer} {agreementId : Nat} {agreement : Agreement}
      {status : AgreementStatus} (unaccepted : call.accepts = none)
      (unactivated : call.activates = none) (found : s.agreement agreementId = some agreement)
      (inactive : status ≠ .active) :
      Effect env s call o (setAgreement s (agreement.restate status env.timestamp))
  | proposed {call : Call} {agreement : Agreement} {amendment : Amendment}
      (unaccepted : call.accepts = none) (unactivated : call.activates = none)
      (proposes : call.proposes = some amendment.proposer)
      (signed : env.signers amendment.proposer = true)
      (found : s.agreement amendment.agreementId = some agreement)
      (next : amendment.id = s.nextAmendmentId) (sound : amendment.Sound)
      (status : amendment.status = .proposed)
      (mentor : amendment.mentorApproved = true → amendment.proposer = agreement.mentor)
      (mentee : amendment.menteeApproved = true → amendment.proposer = agreement.mentee) :
      Effect env s call (.amendmentId amendment.id) (s.submit amendment)
  | approved {call : Call} {o : Answer} {approver : Address} {amendmentId : Nat}
      {agreement : Agreement} {amendment : Amendment} {isMentor : Bool}
      (unaccepted : call.accepts = none) (unactivated : call.activates = none)
      (approves : call.approves = some (approver, amendmentId)) (signed : env.signers approver = true)
      (found : s.amendment amendmentId = some amendment) (undecided : amendment.status = .proposed)
      (agreed : s.agreement amendment.agreementId = some agreement)
      (mentor : isMentor = true → approver = agreement.mentor)
      (mentee : isMentor = false → approver = agreement.mentee) :
      Effect env s call o (setAmendment s (amendment.approve isMentor))
  | rejected {call : Call} {o : Answer} {amendmentId : Nat} {amendment : Amendment}
      (unaccepted : call.accepts = none) (unactivated : call.activates = none)
      (found : s.amendment amendmentId = some amendment) (undecided : amendment.status = .proposed) :
      Effect env s call o (setAmendment s { amendment with status := .rejected })
  | activated {call : Call} {o : Answer} {amendmentId : Nat} {agreement : Agreement}
      {amendment : Amendment} (unaccepted : call.accepts = none)
      (activates : call.activates = some amendmentId)
      (found : s.amendment amendmentId = some amendment) (approved : amendment.status = .approved)
      (agreed : s.agreement amendment.agreementId = some agreement)
      (active : agreement.status = .active) :
      Effect env s call o (setAmendment (setAgreement s (agreement.amend amendment env.timestamp))
        { amendment with status := .activated, activatedAt := some env.timestamp })

section Inversion

theorem createAgreement_effect {mentor mentee token : Address}
    {programHash scopeHash cancellationPolicyHash conductHash evidenceHash : Bytes32}
    {startTime endTime cadenceSeconds termsVersion id : Nat} {pricePerSession : Int}
    (hunaccepted : call.accepts = none) (hunactivated : call.activates = none)
    (h : createAgreement env s mentor mentee programHash scopeHash startTime endTime cadenceSeconds
      pricePerSession token cancellationPolicyHash conductHash evidenceHash termsVersion =
        .ok (id, s')) : Effect env s call o s' := by
  simp only [createAgreement, incrementAgreementId, bind_eq_ok, exists_unit, orRefuse_eq_ok,
    refuseIf_eq_ok, fitsU_eq_some, pure_eq_ok, not_le, not_lt] at h
  obtain ⟨_, _, hparties, _, hordered, hcadence, hprice, ⟨next, t⟩, ⟨_, ⟨_, rfl⟩, hcounted⟩, heq⟩ := h
  cases hcounted
  cases heq
  show Effect env s call o (s.issue ⟨s.nextAgreementId, mentor, mentee, programHash, scopeHash,
    startTime, endTime, cadenceSeconds, pricePerSession, token, cancellationPolicyHash, conductHash,
    evidenceHash, termsVersion, .pending, env.timestamp, env.timestamp⟩)
  apply Effect.created hunaccepted hunactivated
  · rfl
  · rfl
  · exact ⟨hparties, Nat.pos_of_ne_zero hcadence, hprice⟩
  · exact hordered

theorem acceptAgreement_effect {actor : Address} {agreementId nonce : Nat} {agreementHash : Bytes32}
    (haccepts : call.accepts = some (actor, agreementId, agreementHash))
    (hunactivated : call.activates = none)
    (h : acceptAgreement env s actor agreementId agreementHash nonce = .ok s') :
    Effect env s call o s' := by
  simp only [acceptAgreement, getAgreement, incrementUserNonce, bind_eq_ok, exists_unit,
    orRefuse_eq_ok, refuseIf_eq_ok, fitsU_eq_some, pure_eq_ok, not_not] at h
  obtain ⟨_, agreement, hfound, hlive, hparty, hfresh, ⟨current, t⟩, ⟨_, ⟨_, rfl⟩, hcounted⟩, _, h⟩ := h
  cases hcounted
  have hstatus : agreement.status = .pending ∨ agreement.status = .active := by
    by_contra hnot
    exact hlive ⟨fun hpending => hnot (.inl hpending), fun hactive => hnot (.inr hactive)⟩
  have hparticipant : agreement.Participant actor := by
    by_contra hnot
    exact hparty ⟨fun hmentor => hnot (.inl hmentor), fun hmentee => hnot (.inr hmentee)⟩
  have hacceptable : Acceptable s agreement ⟨actor, agreementId, agreementHash,
      agreement.termsVersion, env.timestamp, s.userNonce actor + 1⟩ :=
    ⟨hfound, hstatus, hparticipant, hfresh, rfl⟩
  split_ifs at h with hboth
  · cases h
    exact .concluded haccepts hunactivated hacceptable ⟨hboth.1, hboth.2.1⟩ hboth.2.2
  · cases h
    refine .accepted haccepts hunactivated hacceptable ?_
    exact fun hall => hboth ⟨hall.1.1, hall.1.2, hall.2⟩

theorem proposeAmendment_effect {proposer : Address} {agreementId id : Nat} {newCadence : Option Nat}
    {newScopeHash newCancellationHash : Option Bytes32} {newStartTime newEndTime : Option Nat}
    {newPrice : Option Int} {impactHash : Bytes32} (hunaccepted : call.accepts = none)
    (hunactivated : call.activates = none) (hproposes : call.proposes = some proposer)
    (h : proposeAmendment env s proposer agreementId newCadence newScopeHash newStartTime newEndTime
      newPrice newCancellationHash impactHash = .ok (id, s')) :
    Effect env s call (.amendmentId id) s' := by
  simp only [proposeAmendment, getAgreement, incrementAmendmentId, bind_eq_ok, exists_unit,
    orRefuse_eq_ok, refuseIf_eq_ok, requireAuth_eq_ok, fitsU_eq_some, pure_eq_ok, not_not] at h
  obtain ⟨hsigned, agreement, hfound, _, hparty, _, hprice, hcadence, _, ⟨next, t⟩,
    ⟨_, ⟨_, rfl⟩, hcounted⟩, heq⟩ := h
  cases hcounted
  cases heq
  let amendment : Amendment := ⟨s.nextAmendmentId, agreementId, proposer, newCadence, newScopeHash,
    newStartTime, newEndTime, newPrice, newCancellationHash, impactHash, env.timestamp, .proposed,
    proposer = agreement.mentor, !(proposer = agreement.mentor), none⟩
  show Effect env s call (.amendmentId amendment.id) (s.submit amendment)
  refine .proposed hunaccepted hunactivated hproposes hsigned hfound ?_ ?_ ?_ ?_ ?_
  · rfl
  · constructor
    · intro cadence hmem
      refine Nat.pos_of_ne_zero fun hzero => hcadence ?_
      rw [← hzero]
      exact hmem
    · intro price hmem
      by_contra hnegative
      exact hprice ⟨price, hmem, Int.not_le.mp hnegative⟩
  · rfl
  · exact fun hmentor => of_decide_eq_true hmentor
  · intro hmentee
    have happroved : (!decide (proposer = agreement.mentor)) = true := hmentee
    have hnot : proposer ≠ agreement.mentor := by simpa using happroved
    by_contra hother
    exact hparty ⟨hnot, hother⟩

theorem approveAmendment_effect {approver : Address} {amendmentId : Nat}
    (hunaccepted : call.accepts = none) (hunactivated : call.activates = none)
    (happroves : call.approves = some (approver, amendmentId))
    (h : approveAmendment env s approver amendmentId = .ok s') : Effect env s call o s' := by
  simp only [approveAmendment, getAmendment, getAgreement, bind_eq_ok, exists_unit, orRefuse_eq_ok,
    refuseIf_eq_ok, requireAuth_eq_ok, pure_eq_ok, not_not] at h
  obtain ⟨hsigned, amendment, hfound, hopen, agreement, hagreed, _, hparty, _, rfl⟩ := h
  refine .approved hunaccepted hunactivated happroves hsigned hfound hopen hagreed ?_ ?_
  · exact fun hmentor => of_decide_eq_true hmentor
  · intro hnot
    by_contra hother
    exact hparty ⟨hnot, decide_eq_false hother⟩

/-- Every accepted call does one of the effects. -/
theorem step_effect {i : Input contract} (h : (machine contract).step s i = .ok (o, s')) :
    Effect i.env s i.call o s' := by
  obtain ⟨env, call⟩ := i
  simp only [machine] at h
  cases call with
  | init =>
    simp only [execute, init, map_eq_ok, bind_eq_ok, exists_unit, pure_eq_ok, Prod.mk.injEq] at h
    obtain ⟨_, ⟨_, rfl⟩, _, rfl⟩ := h
    exact .quiet rfl rfl rfl rfl rfl rfl rfl
  | blockUser =>
    simp only [execute, blockUser, map_eq_ok, bind_eq_ok, exists_unit, pure_eq_ok, Prod.mk.injEq] at h
    obtain ⟨_, ⟨_, _, _, rfl⟩, _, rfl⟩ := h
    exact .quiet rfl rfl rfl rfl rfl rfl rfl
  | unblockUser =>
    simp only [execute, unblockUser, map_eq_ok, bind_eq_ok, exists_unit, pure_eq_ok, Prod.mk.injEq] at h
    obtain ⟨_, ⟨_, _, _, rfl⟩, _, rfl⟩ := h
    exact .quiet rfl rfl rfl rfl rfl rfl rfl
  | createAgreement =>
    simp only [execute, map_eq_ok] at h
    obtain ⟨⟨id, t⟩, hcreate, heq⟩ := h
    cases heq
    exact createAgreement_effect rfl rfl hcreate
  | acceptAgreement =>
    simp only [execute, map_eq_ok, Prod.mk.injEq] at h
    obtain ⟨_, haccept, _, rfl⟩ := h
    exact acceptAgreement_effect rfl rfl haccept
  | proposeAmendment =>
    simp only [execute, map_eq_ok] at h
    obtain ⟨⟨id, t⟩, hpropose, heq⟩ := h
    cases heq
    exact proposeAmendment_effect rfl rfl rfl hpropose
  | approveAmendment =>
    simp only [execute, map_eq_ok, Prod.mk.injEq] at h
    obtain ⟨_, happrove, _, rfl⟩ := h
    exact approveAmendment_effect rfl rfl rfl happrove
  | rejectAmendment =>
    simp only [execute, rejectAmendment, getAmendment, map_eq_ok, bind_eq_ok, exists_unit,
      orRefuse_eq_ok, refuseIf_eq_ok, pure_eq_ok, not_not, Prod.mk.injEq] at h
    obtain ⟨_, ⟨_, amendment, hfound, hopen, _, _, _, rfl⟩, _, rfl⟩ := h
    exact .rejected rfl rfl hfound hopen
  | activateAmendment =>
    simp only [execute, activateAmendment, getAmendment, getAgreement, map_eq_ok, bind_eq_ok,
      exists_unit, orRefuse_eq_ok, refuseIf_eq_ok, pure_eq_ok, not_not, Prod.mk.injEq] at h
    obtain ⟨_, ⟨_, amendment, hfound, happroved, agreement, hagreed, hactive, _, rfl⟩, _, rfl⟩ := h
    exact .activated rfl rfl hfound happroved hagreed hactive
  | cancelAgreement =>
    simp only [execute, cancelAgreement, getAgreement, map_eq_ok, bind_eq_ok, exists_unit,
      orRefuse_eq_ok, pure_eq_ok, Prod.mk.injEq] at h
    obtain ⟨_, ⟨_, agreement, hfound, _, _, rfl⟩, _, rfl⟩ := h
    exact .closed rfl rfl hfound (by decide)
  | completeAgreement =>
    simp only [execute, completeAgreement, getAgreement, map_eq_ok, bind_eq_ok, exists_unit,
      orRefuse_eq_ok, pure_eq_ok, Prod.mk.injEq] at h
    obtain ⟨_, ⟨_, agreement, hfound, _, _, rfl⟩, _, rfl⟩ := h
    exact .closed rfl rfl hfound (by decide)

end Inversion

section Books

/-- Agreements and amendments under their ids, the next ids not yet given. -/
structure Books (s : State) : Prop where
  agreementId : ∀ id agreement, s.agreement id = some agreement →
    agreement.id = id ∧ id < s.nextAgreementId
  amendmentId : ∀ id amendment, s.amendment id = some amendment →
    amendment.id = id ∧ id < s.nextAmendmentId
  amended : ∀ id amendment, s.amendment id = some amendment → s.agreement amendment.agreementId ≠ none

theorem books_empty : Books State.empty where
  agreementId _ _ h := absurd h (Option.some_ne_none _).symm
  amendmentId _ _ h := absurd h (Option.some_ne_none _).symm
  amended _ _ h := absurd h (Option.some_ne_none _).symm

theorem Books.agreement_due (hs : Books s) : s.agreement s.nextAgreementId = none := by
  rcases hrow : s.agreement s.nextAgreementId with _ | agreement
  · rfl
  · exact absurd (hs.agreementId _ agreement hrow).2 (Nat.lt_irrefl _)

theorem Books.amendment_due (hs : Books s) : s.amendment s.nextAmendmentId = none := by
  rcases hrow : s.amendment s.nextAmendmentId with _ | amendment
  · rfl
  · exact absurd (hs.amendmentId _ amendment hrow).2 (Nat.lt_irrefl _)

/-- An agreement is written in the place of the one with its id. -/
theorem Books.setAgreement (hs : Books s) {agreementId : Nat} {agreement written : Agreement}
    (hfound : s.agreement agreementId = some agreement) (hid : written.id = agreement.id) :
    Books (setAgreement s written) where
  agreementId := by
    refine forall_update_row hs.agreementId rfl ⟨rfl, ?_⟩
    obtain ⟨hkey, hlt⟩ := hs.agreementId agreementId agreement hfound
    show written.id < s.nextAgreementId
    rwa [hid, hkey]
  amendmentId := hs.amendmentId
  amended := by
    intro id amendment hamendment hnone
    apply hs.amended id amendment hamendment
    by_cases hsame : amendment.agreementId = written.id
    · have hrow : (MentorshipAgreements.setAgreement s written).agreement amendment.agreementId =
          some written := by
        rw [hsame]
        exact Function.update_self _ _ _
      rw [hrow] at hnone
      cases hnone
    · have hrow : (MentorshipAgreements.setAgreement s written).agreement amendment.agreementId =
          s.agreement amendment.agreementId := Function.update_of_ne hsame _ _
      rwa [hrow] at hnone

/-- An amendment is written in the place of the one with its id. -/
theorem Books.setAmendment (hs : Books s) {amendmentId : Nat} {amendment written : Amendment}
    (hfound : s.amendment amendmentId = some amendment) (hid : written.id = amendment.id)
    (hconcerns : written.agreementId = amendment.agreementId) : Books (setAmendment s written) where
  agreementId := hs.agreementId
  amendmentId := by
    refine forall_update_row hs.amendmentId rfl ⟨rfl, ?_⟩
    obtain ⟨hkey, hlt⟩ := hs.amendmentId amendmentId amendment hfound
    show written.id < s.nextAmendmentId
    rwa [hid, hkey]
  amended := by
    refine forall_update_row hs.amended rfl ?_
    rw [hconcerns]
    exact hs.amended amendmentId amendment hfound

/-- What an approval makes of an amendment. -/
structure Approval (amendment written : Amendment) (isMentor : Bool) : Prop where
  id : written.id = amendment.id
  agreementId : written.agreementId = amendment.agreementId
  newCadence : written.newCadence = amendment.newCadence
  newPrice : written.newPrice = amendment.newPrice
  mentor : written.mentorApproved = (isMentor || amendment.mentorApproved)
  mentee : written.menteeApproved = (!isMentor || amendment.menteeApproved)
  status : written.status =
    if written.mentorApproved = true ∧ written.menteeApproved = true then .approved
    else amendment.status

theorem approve_spec (amendment : Amendment) (isMentor : Bool) :
    Approval amendment (amendment.approve isMentor) isMentor := by
  unfold Amendment.approve Amendment.settle
  cases isMentor
  · simp only [Bool.false_eq_true, if_false]
    split_ifs with hboth
    · exact ⟨rfl, rfl, rfl, rfl, rfl, rfl, by simp [hboth]⟩
    · exact ⟨rfl, rfl, rfl, rfl, rfl, rfl, by simp_all⟩
  · simp only [if_true]
    split_ifs with hboth
    · exact ⟨rfl, rfl, rfl, rfl, rfl, rfl, by simp [hboth]⟩
    · exact ⟨rfl, rfl, rfl, rfl, rfl, rfl, by simp_all⟩

theorem Books.record (hs : Books s) (acceptance : Acceptance) : Books (s.record acceptance) :=
  ⟨hs.agreementId, hs.amendmentId, hs.amended⟩

theorem Effect.books (h : Effect env s call o s') (hs : Books s) : Books s' := by
  cases h with
  | quiet _ _ hagreements _ hamendments hnextAgreement hnextAmendment =>
    obtain ⟨hagreementId, hamendmentId, hamended⟩ := hs
    refine ⟨?_, ?_, ?_⟩
    · rwa [hagreements, hnextAgreement]
    · rwa [hamendments, hnextAmendment]
    · rwa [hamendments, hagreements]
  | @created _ written _ _ hnext =>
    refine ⟨?_, hs.amendmentId, ?_⟩
    · intro id row hrow
      rcases update_row_cases hrow with ⟨rfl, rfl⟩ | ⟨_, hold⟩
      · exact ⟨rfl, Nat.lt_succ_self _⟩
      · obtain ⟨hkey, hlt⟩ := hs.agreementId id row hold
        refine ⟨hkey, ?_⟩
        show id < _ + 1
        omega
    · intro id amendment hamendment hnone
      rcases hrow : s.agreement amendment.agreementId with _ | agreement
      · exact hs.amended id amendment hamendment hrow
      · have hdue := hs.agreement_due
        rw [← hnext] at hdue
        have hkept : (s.issue written).agreement amendment.agreementId = some agreement :=
          update_keeps_row hdue hrow
        exact absurd (hkept.symm.trans hnone) (Option.some_ne_none _)
  | accepted => exact hs.record _
  | concluded _ _ hacceptable => exact (hs.record _).setAgreement hacceptable.found rfl
  | closed _ _ hfound => exact hs.setAgreement hfound rfl
  | proposed _ _ _ _ hfound hnext =>
    refine ⟨hs.agreementId, ?_, ?_⟩
    · intro id row hrow
      rcases update_row_cases hrow with ⟨rfl, rfl⟩ | ⟨_, hold⟩
      · exact ⟨rfl, Nat.lt_succ_self _⟩
      · obtain ⟨hkey, hlt⟩ := hs.amendmentId id row hold
        refine ⟨hkey, ?_⟩
        show id < _ + 1
        omega
    · refine forall_update_row hs.amended rfl ?_
      show s.agreement _ ≠ none
      rw [hfound]
      exact Option.some_ne_none _
  | @approved _ _ _ _ amendment isMentor _ _ _ _ hfound =>
    have happroval := approve_spec amendment isMentor
    exact hs.setAmendment hfound happroval.id happroval.agreementId
  | rejected _ _ hfound => exact hs.setAmendment hfound rfl rfl
  | @activated _ _ agreement amendment _ _ hfound _ hagreed =>
    have hamended : Books (setAgreement s (agreement.amend amendment env.timestamp)) :=
      hs.setAgreement hagreed rfl
    exact hamended.setAmendment hfound rfl rfl

theorem run_books (is : List (Input contract)) : Books ((machine contract).run State.empty is) :=
  Machine.run_invariant books_empty (fun _ _ _ _ hs h => (step_effect h).books hs) is

end Books

end ChainVerse.MentorshipAgreements
