import ChainVerse.Awards.Contract

namespace ChainVerse.ScholarshipAwards

variable {contract : Address} {env : Env contract} {s s' : State}

/-- An offered or an accepted award holds the recipient's place in its program. -/
def AwardStatus.Live (status : AwardStatus) : Prop := status = .offered ∨ status = .accepted

instance : DecidablePred AwardStatus.Live := fun _ => inferInstanceAs (Decidable (_ ∨ _))

/-- The award that a call changes, and the version it expects there. -/
def Call.mutation : Call → Option (Bytes32 × Nat)
  | .acceptAward _ id version _ | .declineAward _ id version | .expireAward id version
  | .cancelAward _ id version _ | .terminateAward _ id version _ _
  | .recordDisbursement _ id version _ => some (id, version)
  | _ => none

/-- The ways in which a live award ends: the call, the terminal status, the reason code and the
recovery that is put down, with the checks passed. -/
inductive Ending (env : Env contract) (id : Bytes32) (award : Award) :
    Call → AwardStatus → Nat → Option Int → Prop where
  | decline (signed : env.signers award.recipient = true) (status : award.status = .offered) :
      Ending env id award (.declineAward award.recipient id award.version) .declined
        award.reasonCode none
  | expire (status : award.status = .offered) (late : award.acceptanceDeadline < env.timestamp) :
      Ending env id award (.expireAward id award.version) .expired award.reasonCode none
  | cancel {admin : Address} {reasonCode : Nat} (live : award.status.Live)
      (unpaid : award.paidAmount ≤ 0) :
      Ending env id award (.cancelAward admin id award.version reasonCode) .cancelled reasonCode
        none
  | terminate {admin : Address} {reasonCode : Nat} {recovery : Int}
      (status : award.status = .accepted) (bounds : 0 ≤ recovery ∧ recovery ≤ award.paidAmount) :
      Ending env id award (.terminateAward admin id award.version reasonCode recovery) .terminated
        reasonCode (some recovery)

/-- The store after a live award has ended. -/
def State.ended (s : State) (id : Bytes32) (award : Award) (status : AwardStatus)
    (reasonCode now : Nat) (recovery : Option Int) : State :=
  { s with
    award := Function.update s.award award.id (some { award with
      version := award.version + 1, status := status, reasonCode := reasonCode, decidedAt := now
      reserved := false })
    recovery := match recovery with
      | some amount => Function.update s.recovery id (some amount)
      | none => s.recovery
    reservation := Function.update s.reservation award.programId
      (s.reservation award.programId - 1)
    activeAward := Function.update s.activeAward (award.recipient, award.programId) none }

/-- Everything an accepted call can have done. -/
inductive Effect (env : Env contract) (s : State) : Call → State → Prop where
  | appoint {admin : Address} (absent : s.admin = none) :
      Effect env s (.initializeContract admin) { s with admin := some admin }
  | offer {admin : Address} {award : Award} (positive : 0 < award.amount)
      (unused : s.award award.id = none)
      (free : s.activeAward (award.recipient, award.programId) = none)
      (future : env.timestamp < award.acceptanceDeadline)
      (fresh : award.version = 1 ∧ award.status = .offered ∧ award.reserved = true ∧
        award.paidAmount = 0) :
      Effect env s (.createAward admin award.id award.programId award.recipient award.amount
          award.currency award.termsVersion award.termsHash award.acceptanceDeadline
          award.milestoneScheduleId)
        { s with
          award := Function.update s.award award.id (some award)
          activeAward := Function.update s.activeAward (award.recipient, award.programId)
            (some award.id)
          reservation := Function.update s.reservation award.programId
            (s.reservation award.programId + 1) }
  | accept {id declarationsHash : Bytes32} {award : Award} (stored : s.award id = some award)
      (signed : env.signers award.recipient = true) (status : award.status = .offered)
      (early : env.timestamp ≤ award.acceptanceDeadline) :
      Effect env s (.acceptAward award.recipient id award.version declarationsHash)
        { s with
          award := Function.update s.award award.id (some { award with
            version := award.version + 1, status := .accepted, decidedAt := env.timestamp })
          acceptance := Function.update s.acceptance id (some ⟨id, award.termsVersion,
            award.termsHash, award.recipient, env.timestamp, declarationsHash⟩) }
  | pay {id : Bytes32} {admin : Address} {award : Award} {amount : Int}
      (stored : s.award id = some award) (status : award.status = .accepted)
      (positive : 0 < amount) (covered : award.paidAmount + amount ≤ award.amount) :
      Effect env s (.recordDisbursement admin id award.version amount)
        { s with
          award := Function.update s.award award.id (some { award with
            version := award.version + 1, paidAmount := award.paidAmount + amount }) }
  | close {call : Call} {id : Bytes32} {award : Award} {status : AwardStatus} {reasonCode : Nat}
      {recovery : Option Int} (stored : s.award id = some award)
      (ending : Ending env id award call status reasonCode recovery)
      (held : 1 ≤ s.reservation award.programId) :
      Effect env s call (s.ended id award status reasonCode env.timestamp recovery)

/-- Only live awards end, and they end for good. -/
theorem Ending.live {id : Bytes32} {award : Award} {call : Call} {status : AwardStatus}
    {reasonCode : Nat} {recovery : Option Int}
    (h : Ending env id award call status reasonCode recovery) :
    award.status.Live ∧ ¬ status.Live := by
  cases h with
  | decline _ hstatus => exact ⟨.inl hstatus, by decide⟩
  | expire hstatus => exact ⟨.inl hstatus, by decide⟩
  | cancel hlive => exact ⟨hlive, by decide⟩
  | terminate hstatus => exact ⟨.inr hstatus, by decide⟩

section Specs

theorem isLegalTransition_declined {status : AwardStatus} :
    isLegalTransition status .declined = true ↔ status = .offered := by
  cases status <;> decide

theorem isLegalTransition_cancelled {status : AwardStatus} :
    isLegalTransition status .cancelled = true ↔ status.Live := by
  cases status <;> decide

theorem isLegalTransition_terminated {status : AwardStatus} :
    isLegalTransition status .terminated = true ↔ status = .accepted := by
  cases status <;> decide

theorem advanceAwardVersion_ok {award next : Award} {expected : Nat} :
    advanceAwardVersion award expected = .ok next ↔ award.version = expected ∧
      award.version + 1 < 2^32 ∧ { award with version := award.version + 1 } = next := by
  simp only [advanceAwardVersion, bind_eq_ok, refuseIf_eq_ok, exists_unit, not_not, orRefuse_eq_ok,
    fitsU_eq_some, pure_eq_ok]
  grind

theorem loadAward_ok {id : Bytes32} {award : Award} :
    loadAward s id = .ok award ↔ s.award id = some award := orRefuse_eq_ok

/-- The common end of the closing calls releases one reservation, if there is one. -/
theorem closeAward_ok {award : Award} {status : AwardStatus} :
    closeAward env s award status = .ok s' ↔ 1 ≤ s.reservation award.programId ∧
      s' = { s with
        award := Function.update s.award award.id (some { award with
          status := status, decidedAt := env.timestamp, reserved := false })
        reservation := Function.update s.reservation award.programId
          (s.reservation award.programId - 1)
        activeAward := Function.update s.activeAward (award.recipient, award.programId) none } := by
  simp only [closeAward, release, putAward, clearActiveAward, bind_eq_ok, orRefuse_eq_ok,
    checkedSub_eq_some, pure_eq_ok]
  constructor
  · intro hparts
    obtain ⟨_, ⟨_, ⟨hheld, rfl⟩, rfl⟩, rfl⟩ := hparts
    exact ⟨hheld, rfl⟩
  · intro hparts
    obtain ⟨hheld, rfl⟩ := hparts
    exact ⟨_, ⟨_, ⟨hheld, rfl⟩, rfl⟩, rfl⟩

end Specs

section Inversion

theorem createAward_effect {admin recipient : Address} {id programId termsHash : Bytes32}
    {amount : Int} {currency : Symbol} {termsVersion deadline : Nat} {schedule : Option Bytes32}
    (h : createAward env s admin id programId recipient amount currency termsVersion termsHash
      deadline schedule = .ok s') :
    Effect env s (.createAward admin id programId recipient amount currency termsVersion termsHash
      deadline schedule) s' := by
  simp only [createAward, reserve, putAward, bind_eq_ok, refuseIf_eq_ok, exists_unit, not_le,
    Bool.not_eq_true, Option.isSome_eq_false_iff, Option.isNone_iff_eq_none, orRefuse_eq_ok,
    fitsU_eq_some, pure_eq_ok] at h
  obtain ⟨_, hpositive, hfuture, hunused, hfree, _, ⟨_, rfl⟩, rfl⟩ := h
  let award : Award := ⟨1, id, programId, recipient, amount, currency, termsVersion, termsHash,
    schedule, env.timestamp, deadline, .offered, true, 0, 0, 0⟩
  have hfresh : award.version = 1 ∧ award.status = .offered ∧ award.reserved = true ∧
      award.paidAmount = 0 := ⟨rfl, rfl, rfl, rfl⟩
  exact @Effect.offer _ _ _ admin award hpositive hunused hfree hfuture hfresh

theorem acceptAward_effect {recipient : Address} {id declarationsHash : Bytes32} {version : Nat}
    (h : acceptAward env s recipient id version declarationsHash = .ok s') :
    Effect env s (.acceptAward recipient id version declarationsHash) s' := by
  simp only [acceptAward, putAward, bind_eq_ok, requireAuth_eq_ok, loadAward_ok, refuseIf_eq_ok,
    exists_unit, not_not, advanceAwardVersion_ok, not_lt, pure_eq_ok] at h
  obtain ⟨hsigned, award, hstored, rfl, _, ⟨rfl, _, rfl⟩, hstatus, hearly, _, rfl⟩ := h
  exact .accept hstored hsigned hstatus hearly

theorem recordDisbursement_effect {admin : Address} {id : Bytes32} {version : Nat} {amount : Int}
    (h : recordDisbursement env s admin id version amount = .ok s') :
    Effect env s (.recordDisbursement admin id version amount) s' := by
  simp only [recordDisbursement, putAward, bind_eq_ok, refuseIf_eq_ok, exists_unit, not_le,
    loadAward_ok, advanceAwardVersion_ok, not_not, orRefuse_eq_ok, fitsI128_eq_some, not_lt,
    pure_eq_ok] at h
  obtain ⟨_, hpositive, award, hstored, _, ⟨rfl, _, rfl⟩, hstatus, _, ⟨_, rfl⟩, hcovered, rfl⟩ := h
  exact .pay hstored hstatus hpositive hcovered

theorem declineAward_effect {recipient : Address} {id : Bytes32} {version : Nat}
    (h : declineAward env s recipient id version = .ok s') :
    Effect env s (.declineAward recipient id version) s' := by
  simp only [declineAward, bind_eq_ok, requireAuth_eq_ok, loadAward_ok, refuseIf_eq_ok, exists_unit,
    not_not, Bool.not_eq_false, advanceAwardVersion_ok, closeAward_ok,
    isLegalTransition_declined] at h
  obtain ⟨hsigned, award, hstored, rfl, _, ⟨rfl, _, rfl⟩, hstatus, hheld, rfl⟩ := h
  exact .close hstored (.decline hsigned hstatus) hheld

theorem expireAward_effect {id : Bytes32} {version : Nat}
    (h : expireAward env s id version = .ok s') :
    Effect env s (.expireAward id version) s' := by
  simp only [expireAward, bind_eq_ok, loadAward_ok, refuseIf_eq_ok, exists_unit, not_not, not_le,
    advanceAwardVersion_ok, closeAward_ok] at h
  obtain ⟨award, hstored, _, ⟨rfl, _, rfl⟩, hstatus, hlate, hheld, rfl⟩ := h
  exact .close hstored (.expire hstatus hlate) hheld

theorem cancelAward_effect {admin : Address} {id : Bytes32} {version reasonCode : Nat}
    (h : cancelAward env s admin id version reasonCode = .ok s') :
    Effect env s (.cancelAward admin id version reasonCode) s' := by
  simp only [cancelAward, bind_eq_ok, loadAward_ok, refuseIf_eq_ok, exists_unit, not_lt,
    Bool.not_eq_false, advanceAwardVersion_ok, closeAward_ok, isLegalTransition_cancelled] at h
  obtain ⟨_, award, hstored, _, ⟨rfl, _, rfl⟩, hunpaid, hlive, hheld, rfl⟩ := h
  exact .close hstored (.cancel hlive hunpaid) hheld

theorem terminateAward_effect {admin : Address} {id : Bytes32} {version reasonCode : Nat}
    {recovery : Int}
    (h : terminateAward env s admin id version reasonCode recovery = .ok s') :
    Effect env s (.terminateAward admin id version reasonCode recovery) s' := by
  simp only [terminateAward, bind_eq_ok, loadAward_ok, refuseIf_eq_ok, exists_unit, not_or, not_lt,
    Bool.not_eq_false, advanceAwardVersion_ok, closeAward_ok, isLegalTransition_terminated] at h
  obtain ⟨_, award, hstored, _, ⟨rfl, _, rfl⟩, _, hbounds, hstatus, hheld, rfl⟩ := h
  exact .close hstored (.terminate hstatus hbounds) hheld

/-- What an accepted entry point has done. -/
theorem execute_effect {call : Call} (h : execute env s call = .ok s') : Effect env s call s' := by
  cases call with
  | initializeContract admin =>
    simp only [execute, initializeContract, bind_eq_ok, refuseIf_eq_ok, exists_unit, pure_eq_ok,
      Bool.not_eq_true, Option.isSome_eq_false_iff, Option.isNone_iff_eq_none] at h
    obtain ⟨habsent, _, rfl⟩ := h
    exact .appoint habsent
  | createAward => exact createAward_effect h
  | acceptAward => exact acceptAward_effect h
  | declineAward => exact declineAward_effect h
  | expireAward => exact expireAward_effect h
  | cancelAward => exact cancelAward_effect h
  | terminateAward => exact terminateAward_effect h
  | recordDisbursement => exact recordDisbursement_effect h

theorem step_effect {i : Input contract} {o : Unit} (h : (machine contract).step s i = .ok (o, s')) :
    Effect i.env s i.call s' := by
  simp only [machine, map_eq_ok, Prod.mk.injEq] at h
  obtain ⟨_, hexecute, _, rfl⟩ := h
  exact execute_effect hexecute

end Inversion

end ChainVerse.ScholarshipAwards
