import ChainVerse.Budgets.Votes

namespace ChainVerse.ScholarshipDecisions

variable {contract : Address} {env : Env contract} {s s' : State} {call : Call} {key other : Application}

section Dockets

/-- The decision on an application and the appeal against it. -/
structure Docket where
  decision : Option Decision
  appeal : Option Appeal

def State.docket (s : State) (key : Application) : Docket := ⟨s.decision key, s.appeal key⟩

/-- What a call does to a docket. -/
inductive Deed where
  | opening
  | vote
  | finalization
  | filing
  | appealVote
  | resolution
  deriving DecidableEq

def Call.deed : Call → Option (Deed × Application)
  | .openDecision _ programId applicant _ _ => some (.opening, programId, applicant)
  | .vote _ programId applicant _ => some (.vote, programId, applicant)
  | .recuse _ programId applicant => some (.vote, programId, applicant)
  | .finalizeDecision _ programId applicant => some (.finalization, programId, applicant)
  | .fileAppeal applicant programId _ _ => some (.filing, programId, applicant)
  | .voteAppeal _ programId applicant _ => some (.appealVote, programId, applicant)
  | .finalizeAppeal _ programId applicant => some (.resolution, programId, applicant)
  | _ => none

/-- The member that votes with a call, and the choice. -/
def Call.ballot : Call → Option (Address × VoteChoice)
  | .vote member _ _ choice => some (member, choice)
  | .recuse member _ _ => some (member, .recuse)
  | .voteAppeal member _ _ choice => some (member, choice)
  | _ => none

/-- A member of the committee casts a vote. -/
structure Casts (env : Env contract) (s : State) (call : Call) (vote : Vote) : Prop where
  ballot : call.ballot = some (vote.member, vote.choice)
  active : s.member vote.member = true
  signed : env.signers vote.member = true
  castAt : vote.castAt = env.timestamp

def Decision.cast (decision : Decision) (vote : Vote) : Decision :=
  { decision with votes := decision.votes ++ [vote] }

def Decision.conclude (decision : Decision) (outcome : DecisionOutcome) (now : Nat) : Decision :=
  { decision with
    outcome := outcome
    status := .finalized
    finalizedAt := now
    outcomeVersion := 1 }

/-- The outcome of an appeal takes the place of the one of the decision. -/
def Decision.supersede (decision : Decision) (outcome : DecisionOutcome) : Decision :=
  { decision with
    outcome := outcome
    outcomeVersion := decision.outcomeVersion + 1 }

def Appeal.cast (appeal : Appeal) (vote : Vote) : Appeal :=
  { appeal with votes := appeal.votes ++ [vote] }

def Appeal.resolve (appeal : Appeal) (outcome : DecisionOutcome) (now : Nat) : Appeal :=
  { appeal with
    status := .resolved
    outcome := outcome
    resolvedAt := now }

/-- The decision may be appealed against at this time. -/
structure Appealable (env : Env contract) (s : State) (key : Application) (decision : Decision) :
    Prop where
  signed : env.signers key.2 = true
  finalized : decision.status = .finalized
  unawarded : decision.outcome = .rejected ∨ decision.outcome = .waitlisted
  timely : ∃ config, s.programConfig key.1 = some config ∧
    env.timestamp ≤ decision.finalizedAt + config.appealWindow

/-- Everything an accepted call can have done to the docket of an application. -/
inductive Turn (env : Env contract) (s : State) (key : Application) :
    Call → Docket → Docket → Prop where
  | kept {call : Call} {docket : Docket} (elsewhere : ∀ deed, call.deed ≠ some (deed, key)) :
      Turn env s key call docket docket
  | opened {call : Call} {decision : Decision} {appeal : Option Appeal}
      (deed : call.deed = some (.opening, key)) (undecided : decision.status = .opened)
      (votes : decision.votes = []) : Turn env s key call ⟨none, appeal⟩ ⟨some decision, appeal⟩
  | voted {call : Call} {decision : Decision} {appeal : Option Appeal} {vote : Vote}
      (deed : call.deed = some (.vote, key)) (undecided : decision.status = .opened)
      (casts : Casts env s call vote) (fresh : vote.member ∉ decision.votes.map Vote.member) :
      Turn env s key call ⟨some decision, appeal⟩ ⟨some (decision.cast vote), appeal⟩
  | finalized {call : Call} {decision : Decision} {appeal : Option Appeal} {outcome : DecisionOutcome}
      (deed : call.deed = some (.finalization, key)) (undecided : decision.status = .opened)
      (concluded : concludeVote s decision.votes = .ok outcome) :
      Turn env s key call ⟨some decision, appeal⟩
        ⟨some (decision.conclude outcome env.timestamp), appeal⟩
  | filed {call : Call} {decision : Decision} {appeal : Appeal}
      (deed : call.deed = some (.filing, key)) (appealable : Appealable env s key decision)
      (unresolved : appeal.status = .opened) (votes : appeal.votes = []) :
      Turn env s key call ⟨some decision, none⟩ ⟨some decision, some appeal⟩
  | appealVoted {call : Call} {decision : Decision} {appeal : Appeal} {vote : Vote}
      (deed : call.deed = some (.appealVote, key)) (unresolved : appeal.status = .opened)
      (casts : Casts env s call vote) (uninvolved : vote.member ∉ decision.votes.map Vote.member)
      (fresh : vote.member ∉ appeal.votes.map Vote.member) :
      Turn env s key call ⟨some decision, some appeal⟩ ⟨some decision, some (appeal.cast vote)⟩
  | resolved {call : Call} {decision : Decision} {appeal : Appeal} {outcome : DecisionOutcome}
      (deed : call.deed = some (.resolution, key)) (unresolved : appeal.status = .opened)
      (concluded : concludeVote s appeal.votes = .ok outcome) :
      Turn env s key call ⟨some decision, some appeal⟩
        ⟨some (decision.supersede outcome), some (appeal.resolve outcome env.timestamp)⟩

end Dockets

section Inversion

variable {programId : Bytes32} {applicant member caller : Address}

/-- A call that is about another docket leaves this one. -/
theorem turn_elsewhere (hcall : ∀ deed, call.deed ≠ some (deed, key))
    (hdecision : s'.decision key = s.decision key) (happeal : s'.appeal key = s.appeal key) :
    Turn env s key call (s.docket key) (s'.docket key) := by
  have hsame : s'.docket key = s.docket key := by rw [State.docket, hdecision, happeal]; rfl
  rw [hsame]
  exact .kept hcall

/-- A call about one docket is a turn there, and leaves the others. -/
theorem turn_at {deed : Deed} (hdeed : call.deed = some (deed, other))
    (hdecision : ∀ key, key ≠ other → s'.decision key = s.decision key)
    (happeal : ∀ key, key ≠ other → s'.appeal key = s.appeal key)
    (hturn : Turn env s other call (s.docket other) (s'.docket other)) :
    Turn env s key call (s.docket key) (s'.docket key) := by
  by_cases hkey : key = other
  · rw [hkey]
    exact hturn
  · refine turn_elsewhere ?_ (hdecision key hkey) (happeal key hkey)
    intro deed' h
    rw [hdeed, Option.some.injEq] at h
    exact hkey (congrArg Prod.snd h).symm

theorem openDecision_turn {evidenceVersion : Nat} {evidenceHash : Bytes32}
    (h : openDecision env s caller programId applicant evidenceVersion evidenceHash = .ok s') :
    Turn env s key (.openDecision caller programId applicant evidenceVersion evidenceHash)
      (s.docket key) (s'.docket key) := by
  simp only [openDecision, bind_eq_ok, exists_unit, refuseIf_eq_ok, pure_eq_ok, not_not] at h
  obtain ⟨_, _, _, _, _, habsent, rfl⟩ := h
  refine turn_at rfl (fun _ hne => Function.update_of_ne hne _ _) (fun _ _ => rfl) ?_
  simp only [State.docket, setDecision, Function.update_self, habsent]
  exact .opened rfl rfl rfl

/-- A vote and a recusal are the same turn. -/
theorem vote_turn {choice : VoteChoice} (hdeed : call.deed = some (.vote, programId, applicant))
    (hballot : call.ballot = some (member, choice))
    (h : vote env s member programId applicant choice = .ok s') :
    Turn env s key call (s.docket key) (s'.docket key) := by
  simp only [vote, requireMember, loadDecision, bind_eq_ok, exists_unit, orRefuse_eq_ok,
    refuseIf_eq_ok, requireAuth_eq_ok, pure_eq_ok, not_not, hasVoted_iff, Bool.not_eq_false] at h
  obtain ⟨⟨hactive, hsigned⟩, decision, hfound, hopen, hfresh, rfl⟩ := h
  refine turn_at hdeed (fun _ hne => Function.update_of_ne hne _ _) (fun _ _ => rfl) ?_
  simp only [State.docket, setDecision, Function.update_self, hfound]
  exact .voted hdeed hopen ⟨hballot, hactive, hsigned, rfl⟩ hfresh

/-- What a finalization sets aside for an award leaves the dockets. -/
theorem reserveWhen_docket {awarded : Prop} [Decidable awarded]
    (h : reserveWhen awarded env s programId applicant = .ok s') :
    s'.decision = s.decision ∧ s'.appeal = s.appeal := by
  rcases reserveWhen_ok h with ⟨_, rfl⟩ | ⟨_, _, _, rfl, _⟩
  · exact ⟨rfl, rfl⟩
  · exact ⟨rfl, rfl⟩

theorem finalizeDecision_turn (h : finalizeDecision env s caller programId applicant = .ok s') :
    Turn env s key (.finalizeDecision caller programId applicant) (s.docket key) (s'.docket key) := by
  simp only [finalizeDecision, loadDecision, bind_eq_ok, exists_unit, orRefuse_eq_ok,
    refuseIf_eq_ok, pure_eq_ok, not_not] at h
  obtain ⟨_, decision, hfound, hopen, outcome, hconcluded, t, hreserve, rfl⟩ := h
  obtain ⟨hdecision, happeal⟩ := reserveWhen_docket hreserve
  refine turn_at rfl ?_ (fun key _ => congrFun happeal key) ?_
  · intro other hne
    exact (Function.update_of_ne hne _ _).trans (congrFun hdecision other)
  · simp only [State.docket, setDecision, Function.update_self, hfound, happeal]
    exact .finalized rfl hopen hconcluded

theorem fileAppeal_turn {groundsHash evidenceHash : Bytes32}
    (h : fileAppeal env s applicant programId groundsHash evidenceHash = .ok s') :
    Turn env s key (.fileAppeal applicant programId groundsHash evidenceHash) (s.docket key)
      (s'.docket key) := by
  simp only [fileAppeal, loadDecision, loadProgramConfig, bind_eq_ok, exists_unit, orRefuse_eq_ok,
    refuseIf_eq_ok, requireAuth_eq_ok, fitsU_eq_some, pure_eq_ok, not_not, not_lt] at h
  obtain ⟨hsigned, config, hconfig, _, decision, hfound, hfinalized, hunawarded, habsent, _,
    ⟨_, rfl⟩, htimely, rfl⟩ := h
  have heither : decision.outcome = .rejected ∨ decision.outcome = .waitlisted := by
    by_contra hneither
    exact hunawarded (not_or.mp hneither)
  refine turn_at rfl (fun _ _ => rfl) (fun _ hne => Function.update_of_ne hne _ _) ?_
  simp only [State.docket, setAppeal, Function.update_self, hfound, habsent]
  exact .filed rfl ⟨hsigned, hfinalized, heither, config, hconfig, htimely⟩ rfl rfl

theorem voteAppeal_turn {choice : VoteChoice}
    (h : voteAppeal env s member programId applicant choice = .ok s') :
    Turn env s key (.voteAppeal member programId applicant choice) (s.docket key)
      (s'.docket key) := by
  simp only [voteAppeal, requireMember, loadDecision, bind_eq_ok, exists_unit, orRefuse_eq_ok,
    refuseIf_eq_ok, requireAuth_eq_ok, pure_eq_ok, not_not, hasVoted_iff, Bool.not_eq_false] at h
  obtain ⟨⟨hactive, hsigned⟩, appeal, happeal, hopen, decision, hfound, huninvolved, hfresh, rfl⟩ := h
  refine turn_at rfl (fun _ _ => rfl) (fun _ hne => Function.update_of_ne hne _ _) ?_
  simp only [State.docket, setAppeal, Function.update_self, hfound, happeal]
  exact .appealVoted rfl hopen ⟨rfl, hactive, hsigned, rfl⟩ huninvolved hfresh

theorem finalizeAppeal_turn (h : finalizeAppeal env s caller programId applicant = .ok s') :
    Turn env s key (.finalizeAppeal caller programId applicant) (s.docket key) (s'.docket key) := by
  simp only [finalizeAppeal, loadDecision, bind_eq_ok, exists_unit, orRefuse_eq_ok, refuseIf_eq_ok,
    fitsU_eq_some, pure_eq_ok, not_not] at h
  obtain ⟨_, appeal, happeal, hopen, outcome, hconcluded, t, hreserve, decision, hfound, _,
    ⟨_, rfl⟩, rfl⟩ := h
  obtain ⟨hdecision, hsame⟩ := reserveWhen_docket hreserve
  rw [hdecision] at hfound
  refine turn_at rfl ?_ ?_ ?_
  · intro other hne
    exact (Function.update_of_ne hne _ _).trans (congrFun hdecision other)
  · intro other hne
    exact (Function.update_of_ne hne _ _).trans (congrFun hsame other)
  · simp only [State.docket, setDecision, setAppeal, Function.update_self, hfound, happeal]
    exact .resolved rfl hopen hconcluded

/-- A call without a deed leaves every docket. -/
theorem turn_quiet (hcall : call.deed = none) (hdecision : s'.decision = s.decision)
    (happeal : s'.appeal = s.appeal) : Turn env s key call (s.docket key) (s'.docket key) := by
  refine turn_elsewhere ?_ (congrFun hdecision key) (congrFun happeal key)
  intro deed h
  rw [hcall] at h
  cases h

/-- Every accepted call takes a turn at every docket. -/
theorem step_turn {i : Input contract} {u : Unit} (h : (machine contract).step s i = .ok (u, s'))
    (key : Application) : Turn i.env s key i.call (s.docket key) (s'.docket key) := by
  obtain ⟨env, call⟩ := i
  simp only [machine, map_eq_ok, Prod.mk.injEq, true_and] at h
  obtain ⟨_, h, rfl⟩ := h
  cases call with
  | openDecision => exact openDecision_turn h
  | vote => exact vote_turn rfl rfl h
  | recuse => exact vote_turn rfl rfl h
  | finalizeDecision => exact finalizeDecision_turn h
  | fileAppeal => exact fileAppeal_turn h
  | voteAppeal => exact voteAppeal_turn h
  | finalizeAppeal => exact finalizeAppeal_turn h
  | initializeContract =>
    simp only [execute, initializeContract, bind_eq_ok, exists_unit, pure_eq_ok] at h
    obtain ⟨_, _, rfl⟩ := h
    exact turn_quiet rfl rfl rfl
  | addMember =>
    simp only [execute, addMember, bind_eq_ok, exists_unit, pure_eq_ok] at h
    obtain ⟨_, _, rfl⟩ := h
    exact turn_quiet rfl rfl rfl
  | removeMember =>
    simp only [execute, removeMember, bind_eq_ok, exists_unit, pure_eq_ok] at h
    obtain ⟨_, rfl⟩ := h
    exact turn_quiet rfl rfl rfl
  | setQuorum =>
    simp only [execute, setQuorum, bind_eq_ok, exists_unit, pure_eq_ok] at h
    obtain ⟨_, _, rfl⟩ := h
    exact turn_quiet rfl rfl rfl
  | registerProgram =>
    simp only [execute, registerProgram, bind_eq_ok, exists_unit, pure_eq_ok] at h
    obtain ⟨_, _, _, rfl⟩ := h
    exact turn_quiet rfl rfl rfl
  | setProgramActive =>
    simp only [execute, setProgramActive, bind_eq_ok, exists_unit, pure_eq_ok] at h
    obtain ⟨_, _, _, rfl⟩ := h
    exact turn_quiet rfl rfl rfl
  | acceptAward =>
    simp only [execute, acceptAward, bind_eq_ok, exists_unit, pure_eq_ok] at h
    obtain ⟨_, _, _, _, _, _, _, _, _, _, rfl⟩ := h
    exact turn_quiet rfl rfl rfl
  | releaseReservation =>
    simp only [execute, releaseReservation, bind_eq_ok, exists_unit, releaseCapacity_eq_ok,
      pure_eq_ok] at h
    obtain ⟨_, _, _, _, ⟨_, _, _, rfl⟩, rfl⟩ := h
    exact turn_quiet rfl rfl rfl
  | expireReservation =>
    simp only [execute, expireReservation, bind_eq_ok, exists_unit, releaseCapacity_eq_ok,
      pure_eq_ok] at h
    obtain ⟨_, _, _, _, _, ⟨_, _, _, rfl⟩, rfl⟩ := h
    exact turn_quiet rfl rfl rfl

end Inversion

end ChainVerse.ScholarshipDecisions
