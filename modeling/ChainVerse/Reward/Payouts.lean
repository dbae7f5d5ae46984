import ChainVerse.Reward.Contract
import ChainVerse.Framework.Accounts

namespace ChainVerse.RewardContract

variable {contract : Address} {env : Env contract} {allowance : Allowance} {s s' : State} {call : Call}

section Newcomers

/-- The students of a list who have no mark, each where the list names them first. -/
def newcomers (rewarded : Address → Bool) : List Address → List Address
  | [] => []
  | student :: students =>
    if rewarded student then newcomers rewarded students
    else student :: newcomers (Function.update rewarded student true) students

variable {rewarded : Address → Bool} {student : Address}

theorem mem_newcomers {students : List Address} :
    student ∈ newcomers rewarded students ↔ student ∈ students ∧ rewarded student = false := by
  induction students generalizing rewarded with
  | nil => simp [newcomers]
  | cons first students ih =>
    by_cases hfirst : rewarded first = true
    · rw [newcomers, if_pos hfirst, ih, List.mem_cons]
      constructor
      · exact fun h => ⟨.inr h.1, h.2⟩
      · rintro ⟨rfl | hrest, hunmarked⟩
        · rw [hfirst] at hunmarked
          cases hunmarked
        · exact ⟨hrest, hunmarked⟩
    · have hunmarked : rewarded first = false := Bool.eq_false_iff.mpr hfirst
      rw [newcomers, if_neg hfirst, List.mem_cons, List.mem_cons, ih]
      by_cases hsame : student = first
      · simp [hsame, hunmarked]
      · simp [hsame]

theorem newcomers_nodup (rewarded : Address → Bool) (students : List Address) :
    (newcomers rewarded students).Nodup := by
  induction students generalizing rewarded with
  | nil => exact List.nodup_nil
  | cons first students ih =>
    by_cases hfirst : rewarded first = true
    · rw [newcomers, if_pos hfirst]
      exact ih rewarded
    · rw [newcomers, if_neg hfirst, List.nodup_cons]
      refine ⟨?_, ih _⟩
      rw [mem_newcomers, Function.update_self]
      simp

end Newcomers

section Steps

/-- A student who comes to be rewarded: the amount configured then, and whether by a claim. -/
structure Rewarding where
  student : Address
  amount : Int
  claimed : Bool
  deriving DecidableEq, Repr

/-- What the contract has the treasury pay for it: a claim is paid twice. -/
def Rewarding.payment (r : Rewarding) : Int := if r.claimed then 2 * r.amount else r.amount

/-- The transfers that the contract orders for it. -/
def Rewarding.transfers (token treasury : Address) (r : Rewarding) : List Transfer :=
  List.replicate (if r.claimed then 2 else 1) ⟨token, treasury, r.student, r.amount⟩

/-- The rewarded students of a call. -/
def Call.rewardings (s : State) : Call → List Rewarding
  | .claimReward user => [⟨user, s.rewardAmount.getD 0, true⟩]
  | .batchClaimReward recipients =>
      (newcomers s.rewarded recipients).map fun student => ⟨student, s.rewardAmount.getD 0, false⟩
  | _ => []

/-- The state after students have been rewarded. -/
def State.rewards (s : State) (token treasury : Address) (rs : List Rewarding) : State :=
  { s with
    rewarded := fun student => s.rewarded student || decide (student ∈ rs.map Rewarding.student)
    tokens := (rs.flatMap (Rewarding.transfers token treasury)).foldl Tokens.move s.tokens }

theorem rewards_nil (s : State) (token treasury : Address) : s.rewards token treasury [] = s := by
  simp [State.rewards]

theorem rewards_cons (s : State) (token treasury : Address) (r : Rewarding) (rs : List Rewarding) :
    s.rewards token treasury (r :: rs) = (s.rewards token treasury [r]).rewards token treasury rs := by
  simp only [State.rewards, List.map_cons, List.map_nil, List.flatMap_cons, List.flatMap_nil,
    List.append_nil, List.foldl_append, List.mem_cons, List.not_mem_nil, or_false, Bool.decide_or,
    Bool.or_assoc]

/-- A student is marked by name. -/
theorem rewards_one (s : State) (token treasury : Address) (r : Rewarding) :
    s.rewards token treasury [r] = { s with
      rewarded := Function.update s.rewarded r.student true
      tokens := (r.transfers token treasury).foldl Tokens.move s.tokens } := by
  have hmark : (fun student => s.rewarded student || decide (student ∈ [r].map Rewarding.student)) =
      Function.update s.rewarded r.student true := by
    funext student
    by_cases hsame : student = r.student
    · simp [hsame]
    · simp [hsame]
  simp only [State.rewards, List.flatMap_cons, List.flatMap_nil, List.append_nil, hmark]

/-- The loop rewards the newcomers of the list. -/
theorem rewardStudents_eq_ok {token treasury : Address} {amount : Int} {recipients : List Address}
    (h : recipients.foldlM (rewardStudent env token treasury amount) s = .ok s') :
    s' = s.rewards token treasury
      ((newcomers s.rewarded recipients).map fun student => ⟨student, amount, false⟩) := by
  induction recipients generalizing s with
  | nil =>
    simp only [List.foldlM_nil, pure_eq_ok] at h
    rw [newcomers, List.map_nil, rewards_nil, h]
  | cons student recipients ih =>
    simp only [List.foldlM_cons, bind_eq_ok] at h
    obtain ⟨middle, hround, hrest⟩ := h
    unfold rewardStudent hasBeenRewarded at hround
    by_cases hmarked : s.rewarded student = true
    · rw [if_pos hmarked, pure_eq_ok] at hround
      subst hround
      rw [newcomers, if_pos hmarked]
      exact ih hrest
    · rw [if_neg hmarked] at hround
      simp only [setRewarded, bind_eq_ok, Tokens.transfer_eq_ok, pure_eq_ok] at hround
      obtain ⟨_, ⟨_, _, _, rfl⟩, rfl⟩ := hround
      have hone := rewards_one s token treasury ⟨student, amount, false⟩
      rw [newcomers, if_neg hmarked, List.map_cons, rewards_cons, hone]
      exact ih hrest

/-- Everything that an accepted call can have done but the withdrawal of penalties. -/
inductive Effect (s : State) (call : Call) : State → Prop where
  | configure {s' : State} (nobody : call.rewardings s = []) (rewarded : s'.rewarded = s.rewarded)
      (tokens : s'.tokens = s.tokens)
      (parties : s'.initialized = s.initialized ∧ s'.token = s.token ∧ s'.treasury = s.treasury) :
      Effect s call s'
  | install {s' : State} (token treasury : Address) (nobody : call.rewardings s = [])
      (fresh : s.initialized = false) (rewarded : s'.rewarded = s.rewarded)
      (tokens : s'.tokens = s.tokens)
      (parties : s'.initialized = true ∧ s'.token = some token ∧ s'.treasury = some treasury) :
      Effect s call s'
  | reward (token treasury : Address) (stored : s.token = some token)
      (pays : s.treasury = some treasury)
      (unmarked : ∀ r ∈ call.rewardings s, s.rewarded r.student = false)
      (once : ((call.rewardings s).map Rewarding.student).Nodup)
      (positive : ∀ r ∈ call.rewardings s, r.claimed = true → 0 < r.amount) :
      Effect s call (s.rewards token treasury (call.rewardings s))

theorem claimReward_effect {user : Address} (h : claimReward env allowance s user = .ok s') :
    Effect s (.claimReward user) s' := by
  simp only [claimReward, assertEligible, getTreasury, getToken, getRewardAmount,
    setRewarded, bind_eq_ok, refuseIf_eq_ok, orRefuse_eq_ok, requireAuth_eq_ok, exists_unit,
    Tokens.transfer_eq_ok, pure_eq_ok, Bool.not_eq_true, not_le] at h
  obtain ⟨_, _, ⟨hunmarked, _, hamount, hpositive, _⟩, treasury, htreasury, token, htoken, amount,
    hsame, _, _, ⟨_, _, _, rfl⟩, _, ⟨_, _, _, rfl⟩, rfl⟩ := h
  have hlist : Call.rewardings s (.claimReward user) = [⟨user, amount, true⟩] := by
    rw [Call.rewardings, hsame, Option.getD_some]
  have hpaid : 0 < amount := by
    rw [hsame] at hamount
    cases hamount
    exact hpositive
  have hone := rewards_one s token treasury ⟨user, amount, true⟩
  have heffect := @Effect.reward s (.claimReward user) token treasury htoken htreasury
  rw [hlist] at heffect
  rw [hone] at heffect
  apply heffect
  · intro r hr
    rw [List.mem_singleton.mp hr]
    exact hunmarked
  · exact List.nodup_singleton user
  · intro r hr _
    rw [List.mem_singleton.mp hr]
    exact hpaid

theorem batchClaimReward_effect {recipients : List Address}
    (h : batchClaimReward env s recipients = .ok s') : Effect s (.batchClaimReward recipients) s' := by
  simp only [batchClaimReward, getTreasury, getToken, getRewardAmount, bind_eq_ok, refuseIf_eq_ok,
    orRefuse_eq_ok, exists_unit] at h
  obtain ⟨_, _, _, treasury, htreasury, token, htoken, amount, hamount, hloop⟩ := h
  have hlist : Call.rewardings s (.batchClaimReward recipients) =
      (newcomers s.rewarded recipients).map fun student => ⟨student, amount, false⟩ := by
    rw [Call.rewardings, hamount, Option.getD_some]
  rw [rewardStudents_eq_ok hloop, ← hlist]
  apply Effect.reward token treasury htoken htreasury
  · intro r hr
    rw [hlist] at hr
    obtain ⟨student, hstudent, rfl⟩ := List.mem_map.mp hr
    exact (mem_newcomers.mp hstudent).2
  · rw [hlist, List.map_map]
    have hnames : (Rewarding.student ∘ fun student => (⟨student, amount, false⟩ : Rewarding)) = id := rfl
    rw [hnames, List.map_id]
    exact newcomers_nodup _ _
  · intro r hr hclaimed
    rw [hlist] at hr
    obtain ⟨student, _, rfl⟩ := List.mem_map.mp hr
    cases hclaimed

theorem execute_effect (hcall : ∀ admin recipient, call ≠ .withdrawPenalties admin recipient)
    (h : execute env allowance s call = .ok s') : Effect s call s' := by
  cases call with
  | claimReward user => exact claimReward_effect h
  | batchClaimReward recipients => exact batchClaimReward_effect h
  | withdrawPenalties admin recipient => exact absurd rfl (hcall admin recipient)
  | initializeContract admin treasury token rewardAmount =>
    simp only [execute, initializeContract, bind_eq_ok, refuseIf_eq_ok, exists_unit, pure_eq_ok,
      Bool.not_eq_true] at h
    obtain ⟨hfresh, _, rfl⟩ := h
    exact .install token treasury rfl hfresh rfl rfl ⟨rfl, rfl, rfl⟩
  | rotateBackendPubkey newPubkey =>
    simp only [execute, rotateBackendPubkey, bind_eq_ok, exists_unit, pure_eq_ok] at h
    obtain ⟨_, _, _, rfl⟩ := h
    exact .configure rfl rfl rfl ⟨rfl, rfl, rfl⟩
  | setRewardAmount newAmount =>
    simp only [execute, updateRewardAmount, bind_eq_ok, exists_unit, pure_eq_ok] at h
    obtain ⟨_, _, _, rfl⟩ := h
    exact .configure rfl rfl rfl ⟨rfl, rfl, rfl⟩
  | recordPenalty amount =>
    simp only [execute, recordPenalty, bind_eq_ok, exists_unit, pure_eq_ok] at h
    obtain ⟨_, _, _, rfl⟩ := h
    exact .configure rfl rfl rfl ⟨rfl, rfl, rfl⟩
  | pause caller | unpause caller =>
    simp only [execute, pause, unpause, setPaused, bind_eq_ok, exists_unit, pure_eq_ok] at h
    obtain ⟨_, _, _, rfl⟩ := h
    exact .configure rfl rfl rfl ⟨rfl, rfl, rfl⟩

end Steps

section Runs

abbrev Step (contract : Address) := Entry State (Input contract) Unit

/-- The students whom a line rewards. -/
def Step.rewardings (e : Step contract) : List Rewarding :=
  match e.input with
  | .invoke _ _ call => call.rewardings e.pre
  | .drift .. => []

/-- The students whom the lines of a run have rewarded. -/
def rewardings (es : List (Step contract)) : List Rewarding := es.flatMap Step.rewardings

def Step.Claims (e : Step contract) : Prop :=
  ∃ env allowance user, e.input = .invoke env allowance (.claimReward user)

def Step.Withdraws (e : Step contract) : Prop :=
  ∃ env allowance admin recipient, e.input = .invoke env allowance (.withdrawPenalties admin recipient)

/-- What a student has received from the treasury. -/
def received (s : State) (student : Address) : Int :=
  match s.token, s.treasury with
  | some token, some treasury => Tokens.paid token treasury student s.tokens.transfers
  | _, _ => 0

/-- What the treasury has paid. -/
def spent (s : State) : Int :=
  match s.token, s.treasury with
  | some token, some treasury => Tokens.outflow token treasury s.tokens.transfers
  | _, _ => 0

/-- Each student is rewarded once and exactly: with the amount that was configured then. -/
structure Exact (es : List (Step contract)) (s : State) : Prop where
  once : ((rewardings es).map Rewarding.student).Nodup
  marked : ∀ student, s.rewarded student = true ↔ student ∈ (rewardings es).map Rewarding.student
  unmarked : ∀ student, s.rewarded student = false → received s student = 0
  amounts : ∀ r ∈ rewardings es, received s r.student = r.amount
  outflow : spent s = ((rewardings es).map Rewarding.amount).sum

/-- The treasury has paid what the contract ordered for the rewarded students. -/
def Ordered (es : List (Step contract)) (s : State) : Prop :=
  s.initialized = false ∧ s.token = none ∧ s.tokens.transfers = [] ∧ rewardings es = [] ∨
    ∃ token treasury, s.initialized = true ∧ s.token = some token ∧ s.treasury = some treasury ∧
      s.tokens.transfers = (rewardings es).flatMap (Rewarding.transfers token treasury)

/-- The marks and the transfers of a run are those of its rewarded students. -/
structure Booked (es : List (Step contract)) (s : State) : Prop where
  once : ((rewardings es).map Rewarding.student).Nodup
  marked : ∀ student, s.rewarded student = true ↔ student ∈ (rewardings es).map Rewarding.student
  positive : ∀ r ∈ rewardings es, r.claimed = true → 0 < r.amount
  ordered : Ordered es s

variable {es : List (Step contract)} {e : Step contract} {i : Input contract} {u : Unit}

theorem rewardings_snoc : rewardings (es ++ [e]) = rewardings es ++ e.rewardings := by
  simp [rewardings]

/-- A line that rewards nobody. -/
theorem Booked.quiet (h : Booked es s) (hnobody : Step.rewardings e = [])
    (hrewarded : s'.rewarded = s.rewarded) (hordered : Ordered es s → Ordered (es ++ [e]) s') :
    Booked (es ++ [e]) s' where
  once := by
    rw [rewardings_snoc, hnobody, List.append_nil]
    exact h.once
  marked := by
    rw [rewardings_snoc, hnobody, List.append_nil, hrewarded]
    exact h.marked
  positive := by
    rw [rewardings_snoc, hnobody, List.append_nil]
    exact h.positive
  ordered := hordered h.ordered

/-- A line that rewards students who had no mark, each once. -/
theorem Booked.reward (h : Booked es s) {token treasury : Address}
    (htoken : s.token = some token) (htreasury : s.treasury = some treasury)
    (hunmarked : ∀ r ∈ Step.rewardings e, s.rewarded r.student = false)
    (honce : ((Step.rewardings e).map Rewarding.student).Nodup)
    (hpositive : ∀ r ∈ Step.rewardings e, r.claimed = true → 0 < r.amount) :
    Booked (es ++ [e]) (s.rewards token treasury e.rewardings) where
  once := by
    rw [rewardings_snoc, List.map_append, List.nodup_append']
    refine ⟨h.once, honce, ?_⟩
    intro student hold hnew
    obtain ⟨r, hr, rfl⟩ := List.mem_map.mp hnew
    have hmarked := (h.marked r.student).mpr hold
    rw [hunmarked r hr] at hmarked
    cases hmarked
  marked := by
    intro student
    rw [rewardings_snoc, List.map_append, List.mem_append, ← h.marked student]
    simp [State.rewards]
  positive := by
    intro r hr
    rw [rewardings_snoc] at hr
    rcases List.mem_append.mp hr with hold | hnew
    · exact h.positive r hold
    · exact hpositive r hnew
  ordered := by
    rcases h.ordered with ⟨_, hnone, _⟩ | ⟨token', treasury', hinit, htoken', htreasury', hordered⟩
    · rw [hnone] at htoken
      cases htoken
    · obtain rfl := Option.some.inj (htoken.symm.trans htoken')
      obtain rfl := Option.some.inj (htreasury.symm.trans htreasury')
      refine .inr ⟨token, treasury, hinit, htoken, htreasury, ?_⟩
      rw [rewardings_snoc, List.flatMap_append, ← hordered]
      exact Tokens.foldl_move_transfers _ _

theorem step_booked (h : Booked es s) (hkept : ¬ Step.Withdraws (⟨s, i, u, s'⟩ : Step contract))
    (hstep : (machine contract).step s i = .ok (u, s')) : Booked (es ++ [⟨s, i, u, s'⟩]) s' := by
  cases i with
  | drift token holder delta =>
    cases hstep
    refine h.quiet rfl ?_ ?_
    · rfl
    intro hordered
    unfold Ordered at hordered ⊢
    rw [rewardings_snoc]
    simpa [Step.rewardings] using hordered
  | invoke env allowance call =>
    have hcall : ∀ admin recipient, call ≠ .withdrawPenalties admin recipient := by
      rintro admin recipient rfl
      exact hkept ⟨env, allowance, admin, recipient, rfl⟩
    simp only [machine, map_eq_ok, Prod.mk.injEq] at hstep
    obtain ⟨_, hexecuted, _, rfl⟩ := hstep
    cases execute_effect hcall hexecuted with
    | configure nobody rewarded tokens parties =>
      refine h.quiet ?_ rewarded ?_
      · exact nobody
      intro hordered
      unfold Ordered at hordered ⊢
      rw [rewardings_snoc, tokens, parties.1, parties.2.1, parties.2.2]
      simpa [Step.rewardings, nobody] using hordered
    | install token treasury nobody fresh rewarded tokens parties =>
      refine h.quiet ?_ rewarded ?_
      · exact nobody
      intro hordered
      rcases hordered with ⟨_, _, hempty, hnone⟩ | ⟨_, _, hinit, _⟩
      · refine .inr ⟨token, treasury, parties.1, parties.2.1, parties.2.2, ?_⟩
        rw [rewardings_snoc, tokens, hempty, hnone]
        simp [Step.rewardings, nobody]
      · rw [fresh] at hinit
        cases hinit
    | reward token treasury stored pays unmarked once positive =>
      exact h.reward stored pays unmarked once positive

theorem booked_empty (balance : Address → Address → Int) :
    Booked ([] : List (Step contract)) (State.empty balance) where
  once := List.nodup_nil
  marked student := by simp [State.empty, rewardings]
  positive r hr := by
    cases hr
  ordered := .inl ⟨rfl, rfl, rfl, rfl⟩

theorem run_booked {balance : Address → Address → Int} {is : List (Input contract)}
    (h : ∀ e ∈ (machine contract).journal (State.empty balance) is, ¬ Step.Withdraws e) :
    Booked ((machine contract).journal (State.empty balance) is)
      ((machine contract).run (State.empty balance) is) :=
  Machine.run_journal_invariant_on (m := machine contract) (A := fun e => ¬ Step.Withdraws e)
    (P := fun s es => Booked es s) (booked_empty balance)
    (fun _ _ _ _ _ hkept hbooked hstep => step_booked hbooked hkept hstep) h

end Runs

section Payments

variable {rs : List Rewarding} {es : List (Step contract)}

def Rewarding.entry (r : Rewarding) : Address × Int := (r.student, r.payment)

theorem paid_transfers (token treasury student : Address) (rs : List Rewarding) :
    Tokens.paid token treasury student (rs.flatMap (Rewarding.transfers token treasury)) =
      ((rs.map Rewarding.entry).map fun entry => if entry.1 = student then entry.2 else 0).sum := by
  induction rs with
  | nil => rfl
  | cons r rs ih =>
    unfold Tokens.paid at ih ⊢
    rw [List.flatMap_cons, List.map_append, List.sum_append, ih, List.map_cons, List.map_cons,
      List.sum_cons]
    congr 1
    cases hclaimed : r.claimed
    · simp [Rewarding.transfers, Rewarding.entry, Rewarding.payment, hclaimed, eq_comm]
    · by_cases hstudent : r.student = student
      · simp [Rewarding.transfers, Rewarding.entry, Rewarding.payment, hclaimed, hstudent]
        omega
      · simp [Rewarding.transfers, Rewarding.entry, hclaimed, hstudent, Ne.symm hstudent]

theorem outflow_transfers (token treasury : Address) (rs : List Rewarding) :
    Tokens.outflow token treasury (rs.flatMap (Rewarding.transfers token treasury)) =
      (rs.map Rewarding.payment).sum := by
  induction rs with
  | nil => rfl
  | cons r rs ih =>
    rw [List.flatMap_cons, Tokens.outflow_append, ih, List.map_cons, List.sum_cons]
    congr 1
    cases hclaimed : r.claimed
    · simp [Tokens.outflow, Rewarding.transfers, Rewarding.payment, hclaimed]
    · simp [Tokens.outflow, Rewarding.transfers, Rewarding.payment, hclaimed]
      omega

/-- What each student has received, and what the treasury has paid. -/
theorem Booked.received (h : Booked es s) (student : Address) : received s student =
    (((rewardings es).map Rewarding.entry).map fun entry =>
      if entry.1 = student then entry.2 else 0).sum := by
  rcases h.ordered with ⟨_, htoken, _, hnone⟩ | ⟨token, treasury, _, htoken, htreasury, hordered⟩
  · rw [hnone]
    simp [RewardContract.received, htoken]
  · simp only [RewardContract.received, htoken, htreasury]
    rw [hordered, paid_transfers]

theorem Booked.spent (h : Booked es s) :
    spent s = ((rewardings es).map Rewarding.payment).sum := by
  rcases h.ordered with ⟨_, htoken, _, hnone⟩ | ⟨token, treasury, _, htoken, htreasury, hordered⟩
  · rw [hnone]
    simp [RewardContract.spent, htoken]
  · simp only [RewardContract.spent, htoken, htreasury]
    rw [hordered, outflow_transfers]

theorem Booked.received_by {r : Rewarding} (h : Booked es s) (hr : r ∈ rewardings es) :
    RewardContract.received s r.student = r.payment := by
  rw [h.received]
  apply sum_under_key
  · rw [List.map_map]
    exact h.once
  · exact List.mem_map_of_mem hr

/-- A line of `claim_reward` rewards its user, as a claim. -/
theorem Step.Claims.rewards {e : Step contract} (h : e.Claims) :
    ∃ r ∈ Step.rewardings e, r.claimed = true := by
  obtain ⟨env, allowance, user, hinput⟩ := h
  refine ⟨⟨user, e.pre.rewardAmount.getD 0, true⟩, ?_, rfl⟩
  rw [Step.rewardings, hinput]
  exact List.mem_singleton_self _

theorem unclaimed {e : Step contract} (h : ¬ e.Claims) {r : Rewarding}
    (hr : r ∈ Step.rewardings e) : r.claimed = false := by
  unfold Step.rewardings at hr
  cases hinput : e.input with
  | drift token holder delta =>
    rw [hinput] at hr
    cases hr
  | invoke env allowance call =>
    rw [hinput] at hr
    cases call with
    | claimReward user => exact absurd ⟨env, allowance, user, hinput⟩ h
    | batchClaimReward recipients =>
      obtain ⟨student, _, rfl⟩ := List.mem_map.mp hr
      rfl
    | initializeContract | rotateBackendPubkey | setRewardAmount | recordPenalty | withdrawPenalties
      | pause | unpause => cases hr

theorem Booked.exact_iff (h : Booked es s) : Exact es s ↔ ∀ e ∈ es, ¬ Step.Claims e := by
  constructor
  · intro hexact e he hclaims
    obtain ⟨r, hline, hclaimed⟩ := hclaims.rewards
    have hr : r ∈ rewardings es := List.mem_flatMap.mpr ⟨e, he, hline⟩
    have htwice := h.received_by hr
    have hone := hexact.amounts r hr
    have hpositive := h.positive r hr hclaimed
    rw [Rewarding.payment, if_pos hclaimed] at htwice
    omega
  · intro hbatches
    have hpayment : ∀ r ∈ rewardings es, r.payment = r.amount := by
      intro r hr
      obtain ⟨e, he, hline⟩ := List.mem_flatMap.mp hr
      rw [Rewarding.payment, unclaimed (hbatches e he) hline]
      rfl
    refine ⟨h.once, h.marked, ?_, ?_, ?_⟩
    · intro student hunmarked
      rw [h.received]
      apply sum_under_other
      rw [List.map_map]
      intro hmem
      have hmarked := (h.marked student).mpr hmem
      rw [hunmarked] at hmarked
      cases hmarked
    · intro r hr
      rw [h.received_by hr, hpayment r hr]
    · rw [h.spent, List.map_congr_left hpayment]

/-- In the runs without a withdrawal of penalties the students are rewarded once and exactly when, and
only when, no `claim_reward` has been accepted. -/
theorem rewarded_exactly_iff {balance : Address → Address → Int} {is : List (Input contract)}
    (h : ∀ e ∈ (machine contract).journal (State.empty balance) is, ¬ Step.Withdraws e) :
    Exact ((machine contract).journal (State.empty balance) is)
        ((machine contract).run (State.empty balance) is) ↔
      ∀ e ∈ (machine contract).journal (State.empty balance) is, ¬ Step.Claims e :=
  (run_booked h).exact_iff

/-- The treasury `⟨2⟩` with 1000 units of the token `⟨3⟩`. -/
def sampleTreasury (token holder : Address) : Int :=
  if token = ⟨3⟩ ∧ holder = ⟨2⟩ then 1000 else 0

def sampleAllowance : Allowance := fun _ _ _ => 1000

def sampleSetup : Input ⟨0⟩ := .invoke .sample sampleAllowance (.initializeContract ⟨1⟩ ⟨2⟩ ⟨3⟩ 100)

/-- Two batches that name students more than once, with another amount in between. -/
def sampleBatches : List (Input ⟨0⟩) :=
  [sampleSetup, .invoke .sample sampleAllowance (.batchClaimReward [⟨4⟩, ⟨5⟩, ⟨4⟩]),
    .invoke .sample sampleAllowance (.setRewardAmount 70),
    .invoke .sampleLater sampleAllowance (.batchClaimReward [⟨5⟩, ⟨6⟩])]

/-- Neither withdrawals nor claims are among them. -/
theorem sampleBatches_only {e : Step ⟨0⟩}
    (he : e ∈ (machine ⟨0⟩).journal (State.empty sampleTreasury) sampleBatches) :
    ¬ e.Withdraws ∧ ¬ e.Claims := by
  have hinput : e.input ∈ sampleBatches :=
    ((machine ⟨0⟩).journal_inputs _ _).subset (List.mem_map_of_mem he)
  constructor
  · rintro ⟨env, allowance, admin, recipient, h⟩
    rw [h] at hinput
    simp [sampleBatches, sampleSetup] at hinput
  · rintro ⟨env, allowance, user, h⟩
    rw [h] at hinput
    simp [sampleBatches, sampleSetup] at hinput

theorem sampleBatches_exact :
    let s := (machine ⟨0⟩).run (State.empty sampleTreasury) sampleBatches
    let es := (machine ⟨0⟩).journal (State.empty sampleTreasury) sampleBatches
    rewardings es = [⟨⟨4⟩, 100, false⟩, ⟨⟨5⟩, 100, false⟩, ⟨⟨6⟩, 70, false⟩] ∧ spent s = 270 ∧
      Exact es s :=
  ⟨by decide +kernel, by decide +kernel,
    (rewarded_exactly_iff fun _ he => (sampleBatches_only he).1).mpr
      fun _ he => (sampleBatches_only he).2⟩

def sampleClaim : List (Input ⟨0⟩) :=
  [sampleSetup, .invoke .sample sampleAllowance (.claimReward ⟨4⟩)]

theorem claim_pays_twice :
    let s := (machine ⟨0⟩).run (State.empty sampleTreasury) sampleClaim
    let es := (machine ⟨0⟩).journal (State.empty sampleTreasury) sampleClaim
    rewardings es = [⟨⟨4⟩, 100, true⟩] ∧ received s ⟨4⟩ = 200 ∧ ¬ Exact es s := by
  intro s es
  have hlist : rewardings es = [⟨⟨4⟩, 100, true⟩] := by decide +kernel
  have hreceived : received s ⟨4⟩ = 200 := by decide +kernel
  refine ⟨hlist, hreceived, ?_⟩
  intro hexact
  have hamount := hexact.amounts ⟨⟨4⟩, 100, true⟩ (by rw [hlist]; exact List.mem_singleton_self _)
  rw [hreceived] at hamount
  cases hamount

end Payments

end ChainVerse.RewardContract
