import ChainVerse.Budgets.Contract

namespace ChainVerse.ScholarshipDecisions

variable {contract : Address} {env : Env contract} {s s' : State} {caller : Address} {key : Application}

/-- An accepted call of a run, with the stores around it. -/
abbrev Step (contract : Address) := Entry State (Input contract) Unit

/-- The application whose reservation a call dissolves. -/
def Call.dissolves : Call → Option Application
  | .acceptAward applicant programId => some (programId, applicant)
  | .releaseReservation _ programId applicant => some (programId, applicant)
  | .expireReservation _ programId applicant => some (programId, applicant)
  | _ => none

/-- The application on which a call decides. -/
def Call.decides : Call → Option Application
  | .finalizeDecision _ programId applicant => some (programId, applicant)
  | .finalizeAppeal _ programId applicant => some (programId, applicant)
  | _ => none

/-- The budget of an award is set aside. -/
def State.hold (s : State) (key : Application) (config : DecisionProgramConfig)
    (reservation : Reservation) : State :=
  setReservation (setProgramConfig s key.1 { config with
    reservedAmount := config.reservedAmount + reservation.amount }) key reservation

/-- What is checked before the budget of an award is set aside. -/
structure Holds (s : State) (key : Application) (config : DecisionProgramConfig)
    (reservation : Reservation) : Prop where
  found : s.programConfig key.1 = some config
  amount : reservation.amount = config.perAwardAmount
  status : reservation.status = .reserved
  within : config.reservedAmount + config.awardedAmount + reservation.amount ≤ config.totalBudget

/-- The ways in which a reservation comes to an end, and the times at which they are open. -/
inductive Ends (now expiresAt : Nat) (key : Application) : Call → ReservationStatus → Prop where
  | claimed (timely : now ≤ expiresAt) :
      Ends now expiresAt key (.acceptAward key.2 key.1) .claimed
  | released {caller : Address} :
      Ends now expiresAt key (.releaseReservation caller key.1 key.2) .released
  | expired {caller : Address} (late : expiresAt < now) :
      Ends now expiresAt key (.expireReservation caller key.1 key.2) .expired

/-- What the end of a reservation leaves of its program's budget. -/
def DecisionProgramConfig.settle (config : DecisionProgramConfig) (amount : Int)
    (status : ReservationStatus) : DecisionProgramConfig :=
  { config with
    reservedAmount := config.reservedAmount - amount
    awardedAmount := if status = .claimed then config.awardedAmount + amount
      else config.awardedAmount }

/-- Everything an accepted call can have done. -/
inductive Effect (env : Env contract) (s : State) : Call → State → Prop where
  | configure {call : Call} {s' : State} (quiet : call.dissolves = none)
      (programs : s'.programConfig = s.programConfig) (decisions : s'.decision = s.decision)
      (reservations : s'.reservation = s.reservation) (appeals : s'.appeal = s.appeal) :
      Effect env s call s'
  | register {call : Call} {programId : Bytes32} {config : DecisionProgramConfig}
      (quiet : call.dissolves = none) (absent : s.programConfig programId = none)
      (unreserved : config.reservedAmount = 0) (unawarded : config.awardedAmount = 0)
      (positive : 0 < config.perAwardAmount) (covers : 0 ≤ config.totalBudget)
      (fits : config.totalBudget < 2^127) :
      Effect env s call (setProgramConfig s programId config)
  | activate {call : Call} {programId : Bytes32} {config : DecisionProgramConfig} {active : Bool}
      (quiet : call.dissolves = none) (found : s.programConfig programId = some config) :
      Effect env s call (setProgramConfig s programId { config with active := active })
  | deliberate {call : Call} {key : Application} {written : Decision} (quiet : call.dissolves = none)
      (undecided : ∀ decision, s.decision key = some decision → decision.status = .opened)
      (pending : written.status = .opened → written.outcome = .pending)
      (unawarded : written.outcome ≠ .awarded) : Effect env s call (setDecision s key written)
  | ballot {call : Call} {key : Application} {decision written : Decision}
      (quiet : call.dissolves = none) (found : s.decision key = some decision)
      (status : written.status = decision.status) (outcome : written.outcome = decision.outcome) :
      Effect env s call (setDecision s key written)
  | award {call : Call} {key : Application} {decision written : Decision}
      {config : DecisionProgramConfig} {reservation : Reservation} (decides : call.decides = some key)
      (quiet : call.dissolves = none) (found : s.decision key = some decision)
      (undecided : decision.status = .opened) (holds : Holds s key config reservation)
      (finalized : written.status = .finalized) (awarded : written.outcome = .awarded) :
      Effect env s call (setDecision (s.hold key config reservation) key written)
  | dissolve {call : Call} {key : Application} {reservation : Reservation}
      {config : DecisionProgramConfig} {status : ReservationStatus}
      (dissolves : call.dissolves = some key) (held : s.reservation key = some reservation)
      (reserved : reservation.status = .reserved) (found : s.programConfig key.1 = some config)
      (ends : Ends env.timestamp reservation.expiresAt key call status) :
      Effect env s call (setReservation (setProgramConfig s key.1
        (config.settle reservation.amount status)) key { reservation with status := status })
  | contest {call : Call} {key : Application} {written : Appeal} (quiet : call.dissolves = none)
      (contestable : (∃ appeal, s.appeal key = some appeal ∧ appeal.status = .opened) ∨
        ∃ decision, s.decision key = some decision ∧ decision.status = .finalized ∧
          decision.outcome ≠ .awarded) : Effect env s call (setAppeal s key written)
  | resolve {call : Call} {key : Application} {appeal resolved : Appeal} {decision written : Decision}
      (decides : call.decides = some key) (quiet : call.dissolves = none)
      (contested : s.appeal key = some appeal)
      (pending : appeal.status = .opened) (found : s.decision key = some decision)
      (status : written.status = decision.status) (settled : resolved.status = .resolved)
      (held : written.outcome = .awarded → s.reservation key ≠ none) :
      Effect env s call (setAppeal (setDecision s key written) key resolved)
  | overturn {call : Call} {key : Application} {appeal resolved : Appeal}
      {decision written : Decision} {config : DecisionProgramConfig} {reservation : Reservation}
      (decides : call.decides = some key) (quiet : call.dissolves = none)
      (contested : s.appeal key = some appeal) (pending : appeal.status = .opened)
      (found : s.decision key = some decision) (status : written.status = decision.status)
      (settled : resolved.status = .resolved) (awarded : written.outcome = .awarded)
      (vacant : s.reservation key = none) (holds : Holds s key config reservation) :
      Effect env s call (setAppeal (setDecision (s.hold key config reservation) key written) key
        resolved)

section Inversion

variable {programId : Bytes32} {applicant : Address}

theorem reserveBudget_ok {amount : Int}
    (h : reserveBudget env s programId applicant amount = .ok s') :
    ∃ config reservation, s' = s.hold (programId, applicant) config reservation ∧
      s.programConfig programId = some config ∧ reservation.amount = amount ∧
      reservation.status = .reserved ∧
      config.reservedAmount + config.awardedAmount + amount ≤ config.totalBudget := by
  simp only [reserveBudget, loadProgramConfig, bind_eq_ok, exists_unit, orRefuse_eq_ok,
    fitsI128_eq_some, fitsU_eq_some, refuseIf_eq_ok, pure_eq_ok, not_lt] at h
  obtain ⟨config, hfound, _, ⟨_, rfl⟩, _, ⟨_, rfl⟩, hwithin, _, ⟨_, rfl⟩, _, ⟨_, rfl⟩, rfl⟩ := h
  refine ⟨config, ⟨programId, applicant, amount, env.timestamp,
    env.timestamp + config.reservationTtl, .reserved⟩, ?_⟩
  exact ⟨rfl, hfound, rfl, rfl, hwithin⟩

/-- The budget of one award of a program is set aside when there is one. -/
theorem reserveWhen_ok {awarded : Prop} [Decidable awarded]
    (h : reserveWhen awarded env s programId applicant = .ok s') :
    (¬ awarded ∧ s' = s) ∨ (awarded ∧ ∃ config reservation,
      s' = s.hold (programId, applicant) config reservation ∧
        Holds s (programId, applicant) config reservation) := by
  by_cases hawarded : awarded
  · rw [reserveWhen, if_pos hawarded] at h
    simp only [loadProgramConfig, bind_eq_ok, orRefuse_eq_ok] at h
    obtain ⟨config, hfound, hreserve⟩ := h
    obtain ⟨config', reservation, rfl, hfound', hamount, hstatus, hwithin⟩ := reserveBudget_ok hreserve
    rw [hfound, Option.some.injEq] at hfound'
    subst hfound'
    rw [← hamount] at hwithin
    exact .inr ⟨hawarded, config, reservation, rfl, hfound, hamount, hstatus, hwithin⟩
  · rw [reserveWhen, if_neg hawarded, pure_eq_ok] at h
    exact .inl ⟨hawarded, h.symm⟩

theorem heldReservation_eq_ok {reservation : Reservation} :
    heldReservation s key = .ok reservation ↔
      s.reservation key = some reservation ∧ reservation.status = .reserved := by
  simp only [heldReservation, bind_eq_ok, exists_unit, orRefuse_eq_ok, refuseIf_eq_ok, pure_eq_ok,
    not_not]
  constructor
  · intro h
    obtain ⟨_, hfound, hstatus, rfl⟩ := h
    exact ⟨hfound, hstatus⟩
  · exact fun h => ⟨reservation, h.1, h.2, rfl⟩

theorem releaseCapacity_eq_ok {amount : Int} : releaseCapacity s programId amount = .ok s' ↔
    ∃ config, s.programConfig programId = some config ∧
      (-2^127 ≤ config.reservedAmount - amount ∧ config.reservedAmount - amount < 2^127) ∧
      setProgramConfig s programId { config with
        reservedAmount := config.reservedAmount - amount } = s' := by
  simp only [releaseCapacity, loadProgramConfig, bind_eq_ok, orRefuse_eq_ok, fitsI128_eq_some,
    pure_eq_ok]
  constructor
  · intro h
    obtain ⟨config, hfound, _, ⟨hfits, rfl⟩, rfl⟩ := h
    exact ⟨config, hfound, hfits, rfl⟩
  · intro h
    obtain ⟨config, hfound, hfits, rfl⟩ := h
    exact ⟨config, hfound, _, ⟨hfits, rfl⟩, rfl⟩

theorem vote_effect {member : Address} {choice : VoteChoice} {call : Call}
    (hquiet : call.dissolves = none) (h : vote env s member programId applicant choice = .ok s') :
    Effect env s call s' := by
  simp only [vote, loadDecision, bind_eq_ok, exists_unit, orRefuse_eq_ok, refuseIf_eq_ok, pure_eq_ok,
    not_not] at h
  obtain ⟨_, decision, hfound, _, _, rfl⟩ := h
  refine .ballot hquiet hfound ?_ ?_
  · rfl
  · rfl

theorem finalizeDecision_effect (h : finalizeDecision env s caller programId applicant = .ok s') :
    Effect env s (.finalizeDecision caller programId applicant) s' := by
  simp only [finalizeDecision, loadDecision, bind_eq_ok, exists_unit, orRefuse_eq_ok,
    refuseIf_eq_ok, pure_eq_ok, not_not] at h
  obtain ⟨_, decision, hfound, hopen, outcome, _, t, hreserve, rfl⟩ := h
  rcases reserveWhen_ok hreserve with ⟨hnot, rfl⟩ | ⟨hawarded, config, reservation, rfl, hholds⟩
  · refine .deliberate rfl ?_ ?_ ?_
    · intro other hother
      rw [hfound, Option.some.injEq] at hother
      exact hother ▸ hopen
    · intro hstill
      cases hstill
    · exact hnot
  · refine .award rfl rfl hfound hopen hholds ?_ ?_
    · rfl
    · exact hawarded

theorem acceptAward_effect (h : acceptAward env s applicant programId = .ok s') :
    Effect env s (.acceptAward applicant programId) s' := by
  simp only [acceptAward, loadProgramConfig, bind_eq_ok, exists_unit, heldReservation_eq_ok,
    orRefuse_eq_ok, fitsI128_eq_some, refuseIf_eq_ok, pure_eq_ok, not_lt] at h
  obtain ⟨_, reservation, ⟨hheld, hreserved⟩, htimely, config, hconfig, _, ⟨_, rfl⟩, _, ⟨_, rfl⟩,
    rfl⟩ := h
  exact .dissolve rfl hheld hreserved hconfig (.claimed htimely)

theorem releaseReservation_effect
    (h : releaseReservation env s caller programId applicant = .ok s') :
    Effect env s (.releaseReservation caller programId applicant) s' := by
  simp only [releaseReservation, bind_eq_ok, exists_unit, heldReservation_eq_ok,
    releaseCapacity_eq_ok, pure_eq_ok] at h
  obtain ⟨_, reservation, ⟨hheld, hreserved⟩, _, ⟨config, hconfig, _, rfl⟩, rfl⟩ := h
  exact .dissolve rfl hheld hreserved hconfig .released

theorem expireReservation_effect (h : expireReservation env s caller programId applicant = .ok s') :
    Effect env s (.expireReservation caller programId applicant) s' := by
  simp only [expireReservation, bind_eq_ok, exists_unit, heldReservation_eq_ok, refuseIf_eq_ok,
    releaseCapacity_eq_ok, pure_eq_ok, not_le] at h
  obtain ⟨_, reservation, ⟨hheld, hreserved⟩, hlate, _, ⟨config, hconfig, _, rfl⟩, rfl⟩ := h
  exact .dissolve rfl hheld hreserved hconfig (.expired hlate)

theorem fileAppeal_effect {groundsHash evidenceHash : Bytes32}
    (h : fileAppeal env s applicant programId groundsHash evidenceHash = .ok s') :
    Effect env s (.fileAppeal applicant programId groundsHash evidenceHash) s' := by
  simp only [fileAppeal, loadDecision, bind_eq_ok, exists_unit, orRefuse_eq_ok, refuseIf_eq_ok,
    pure_eq_ok, not_not] at h
  obtain ⟨_, _, _, _, decision, hfound, hfinalized, houtcome, _, _, _, _, rfl⟩ := h
  refine .contest rfl (.inr ⟨decision, hfound, hfinalized, ?_⟩)
  intro hawarded
  rw [hawarded] at houtcome
  exact houtcome ⟨by decide, by decide⟩

theorem voteAppeal_effect {member : Address} {choice : VoteChoice}
    (h : voteAppeal env s member programId applicant choice = .ok s') :
    Effect env s (.voteAppeal member programId applicant choice) s' := by
  simp only [voteAppeal, bind_eq_ok, exists_unit, orRefuse_eq_ok, refuseIf_eq_ok, pure_eq_ok,
    not_not] at h
  obtain ⟨_, appeal, hfound, hopen, _, _, _, _, rfl⟩ := h
  exact .contest rfl (.inl ⟨appeal, hfound, hopen⟩)

theorem finalizeAppeal_effect (h : finalizeAppeal env s caller programId applicant = .ok s') :
    Effect env s (.finalizeAppeal caller programId applicant) s' := by
  simp only [finalizeAppeal, loadDecision, bind_eq_ok, exists_unit, orRefuse_eq_ok, refuseIf_eq_ok,
    fitsU_eq_some, pure_eq_ok, not_not] at h
  obtain ⟨_, appeal, hcontested, hopen, outcome, _, t, hreserve, decision, hfound, _, ⟨_, rfl⟩,
    rfl⟩ := h
  rcases reserveWhen_ok hreserve with ⟨hnot, rfl⟩ | ⟨hawarded, config, reservation, rfl, hholds⟩
  · refine .resolve rfl rfl hcontested hopen hfound ?_ ?_ ?_
    · rfl
    · rfl
    · exact fun hnow hvacant => hnot ⟨hnow, hvacant⟩
  · refine .overturn rfl rfl hcontested hopen hfound ?_ ?_ ?_ hawarded.2 hholds
    · rfl
    · rfl
    · exact hawarded.1

/-- Every accepted call does one of the effects. -/
theorem step_effect {i : Input contract} {u : Unit} (h : (machine contract).step s i = .ok (u, s')) :
    Effect i.env s i.call s' := by
  obtain ⟨env, call⟩ := i
  simp only [machine, map_eq_ok, Prod.mk.injEq, true_and] at h
  obtain ⟨_, h, rfl⟩ := h
  cases call with
  | initializeContract =>
    simp only [execute, initializeContract, bind_eq_ok, exists_unit, pure_eq_ok] at h
    obtain ⟨_, _, rfl⟩ := h
    exact .configure rfl rfl rfl rfl rfl
  | addMember =>
    simp only [execute, addMember, bind_eq_ok, exists_unit, pure_eq_ok] at h
    obtain ⟨_, _, rfl⟩ := h
    exact .configure rfl rfl rfl rfl rfl
  | removeMember =>
    simp only [execute, removeMember, bind_eq_ok, exists_unit, pure_eq_ok] at h
    obtain ⟨_, rfl⟩ := h
    exact .configure rfl rfl rfl rfl rfl
  | setQuorum =>
    simp only [execute, setQuorum, bind_eq_ok, exists_unit, pure_eq_ok] at h
    obtain ⟨_, _, rfl⟩ := h
    exact .configure rfl rfl rfl rfl rfl
  | registerProgram admin programId totalBudget perAwardAmount =>
    simp only [execute, registerProgram, bind_eq_ok, exists_unit, refuseIf_eq_ok, pure_eq_ok, not_or,
      not_le, not_not] at h
    obtain ⟨_, ⟨htotal, hpositive, _⟩, habsent, rfl⟩ := h
    exact .register rfl habsent rfl rfl hpositive htotal.le totalBudget.property.2
  | setProgramActive =>
    simp only [execute, setProgramActive, loadProgramConfig, bind_eq_ok, exists_unit, orRefuse_eq_ok,
      pure_eq_ok] at h
    obtain ⟨_, config, hfound, rfl⟩ := h
    exact .activate rfl hfound
  | openDecision =>
    simp only [execute, openDecision, bind_eq_ok, exists_unit, refuseIf_eq_ok, pure_eq_ok,
      not_not] at h
    obtain ⟨_, _, _, _, _, habsent, rfl⟩ := h
    refine .deliberate rfl ?_ ?_ ?_
    · intro decision hfound
      rw [habsent] at hfound
      cases hfound
    · exact fun _ => rfl
    · exact DecisionOutcome.noConfusion
  | vote => exact vote_effect rfl h
  | recuse => exact vote_effect rfl h
  | finalizeDecision => exact finalizeDecision_effect h
  | acceptAward => exact acceptAward_effect h
  | releaseReservation => exact releaseReservation_effect h
  | expireReservation => exact expireReservation_effect h
  | fileAppeal => exact fileAppeal_effect h
  | voteAppeal => exact voteAppeal_effect h
  | finalizeAppeal => exact finalizeAppeal_effect h

end Inversion

end ChainVerse.ScholarshipDecisions
