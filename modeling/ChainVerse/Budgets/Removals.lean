import ChainVerse.Budgets.Verdicts

namespace ChainVerse.ScholarshipDecisions

variable {contract : Address} {env : Env contract} {s s' : State} {key : Application}
  {votes : List Vote} {vote : Vote} {outcome : DecisionOutcome} {e : Step contract}

section Active

/-- The votes of those who are members of the committee at the moment. -/
def activeVotes (s : State) (votes : List Vote) : List Vote :=
  votes.filter fun vote => s.member vote.member

/-- A finalization has concluded these votes with this outcome. -/
inductive Concludes (key : Application) (e : Step contract) : List Vote → DecisionOutcome → Prop where
  | decision {decision : Decision} {outcome : DecisionOutcome} (does : Does .finalization key e = true)
      (found : e.pre.decision key = some decision)
      (left : e.post.decision key = some (decision.conclude outcome e.input.env.timestamp)) :
      Concludes key e decision.votes outcome
  | appeal {appeal : Appeal} {outcome : DecisionOutcome} (does : Does .resolution key e = true)
      (found : e.pre.appeal key = some appeal)
      (left : e.post.appeal key = some (appeal.resolve outcome e.input.env.timestamp)) :
      Concludes key e appeal.votes outcome

/-- The active members' votes alone conclude with the outcome, and no vote of a removed member counts. -/
structure ActiveDecide (s : State) (votes : List Vote) (outcome : DecisionOutcome) : Prop where
  concluded : concludeVote s (activeVotes s votes) = .ok outcome
  discounted : ∀ vote ∈ votes, s.member vote.member = false → tally (votes.erase vote) = tally votes

/-- The only votes on record of removed members are recusals. -/
def RemovedRecuse (s : State) (votes : List Vote) : Prop :=
  ∀ vote ∈ votes, s.member vote.member = false → vote.choice = .recuse

theorem votesFor_erase {choice : VoteChoice} (hvote : vote ∈ votes) :
    votesFor choice votes =
      votesFor choice (votes.erase vote) + if vote.choice = choice then 1 else 0 := by
  rw [votesFor_perm choice (List.perm_cons_erase hvote), votesFor_cons]

/-- Where the removed members have recused themselves the active members have all the votes. -/
theorem RemovedRecuse.votesFor_active (h : RemovedRecuse s votes) {choice : VoteChoice}
    (hchoice : choice ≠ .recuse) : votesFor choice (activeVotes s votes) = votesFor choice votes := by
  rw [activeVotes, votesFor, votesFor, List.countP_filter]
  apply List.countP_congr
  intro vote hvote
  rw [Bool.and_eq_true, decide_eq_true_eq]
  refine and_iff_left_of_imp fun hsame => ?_
  by_contra hremoved
  exact hchoice (hsame ▸ h vote hvote (Bool.eq_false_iff.mpr hremoved))

theorem RemovedRecuse.leads (h : RemovedRecuse s votes) {choice : VoteChoice}
    (hleads : Leads votes choice) : Leads (activeVotes s votes) choice where
  eligible := hleads.eligible
  most other hother := by
    rw [h.votesFor_active hother, h.votesFor_active hleads.eligible]
    exact hleads.most other hother
  ties other hother := by
    rw [h.votesFor_active hother, h.votesFor_active hleads.eligible]
    exact hleads.ties other hother

theorem RemovedRecuse.votesCast_active (h : RemovedRecuse s votes) :
    votesCast (activeVotes s votes) = votesCast votes := by
  rw [votesCast_eq, votesCast_eq, h.votesFor_active (by decide), h.votesFor_active (by decide),
    h.votesFor_active (by decide)]

/-- The tally depends on the counts alone. -/
theorem tally_congr {others : List Vote} {counts : Nat × Nat × Nat} (hok : tally votes = .ok counts)
    (h : ∀ choice, choice ≠ .recuse → votesFor choice others = votesFor choice votes) :
    tally others = tally votes := by
  have hsame : tally others = .ok counts := by
    rw [tally_eq_ok] at hok ⊢
    rw [h .award (by decide), h .waitlist (by decide), h .reject (by decide)]
    exact hok
  rw [hsame, hok]

/-- A vote that is concluded has been tallied. -/
theorem tally_of_concluded (h : concludeVote s votes = .ok outcome) :
    ∃ counts, tally votes = .ok counts := by
  rw [concludeVote, bind_eq_ok] at h
  obtain ⟨counts, hcounts, _⟩ := h
  exact ⟨counts, hcounts⟩

/-- A vote counts unless it is a recusal. -/
theorem recuse_of_tally {counts : Nat × Nat × Nat} (hok : tally votes = .ok counts)
    (hvote : vote ∈ votes) (h : tally (votes.erase vote) = tally votes) :
    vote.choice = .recuse := by
  have hfewer := h.trans hok
  rw [tally_eq_ok] at hok hfewer
  have hcounts := hfewer.2.2.2.trans hok.2.2.2.symm
  simp only [Prod.mk.injEq] at hcounts
  obtain ⟨haward, hwaitlist, hreject⟩ := hcounts
  rw [votesFor_erase hvote] at haward hwaitlist hreject
  cases hchoice : vote.choice with
  | award => simp [hchoice] at haward
  | waitlist => simp [hchoice] at hwaitlist
  | reject => simp [hchoice] at hreject
  | recuse => rfl

/-- The active members decide alone just where the removed members have recused themselves. -/
theorem activeDecide_iff (h : concludeVote s votes = .ok outcome) :
    ActiveDecide s votes outcome ↔ RemovedRecuse s votes := by
  obtain ⟨counts, hcounts⟩ := tally_of_concluded h
  constructor
  · intro hactive vote hvote hremoved
    exact recuse_of_tally hcounts hvote (hactive.discounted vote hvote hremoved)
  · intro hrecuse
    obtain ⟨hfits, hset, hreached, choice, hleads, houtcome⟩ := concludeVote_eq_ok.mp h
    refine ⟨concludeVote_eq_ok.mpr ⟨?_, hset, ?_, choice, hrecuse.leads hleads, houtcome⟩, ?_⟩
    · rwa [hrecuse.votesCast_active]
    · rwa [hrecuse.votesCast_active]
    · intro vote hvote hremoved
      apply tally_congr hcounts
      intro choice hchoice
      have hother : vote.choice ≠ choice := by
        rw [hrecuse vote hvote hremoved]
        exact hchoice.symm
      rw [votesFor_erase hvote, if_neg hother, Nat.add_zero]

/-- The active members' votes alone conclude with the outcome just where they reach the quorum and the
choice that leads all votes leads them too. -/
theorem concluded_active_iff (h : concludeVote s votes = .ok outcome) :
    concludeVote s (activeVotes s votes) = .ok outcome ↔
      s.quorum ≤ votesCast (activeVotes s votes) ∧
        ∀ choice, Leads votes choice → Leads (activeVotes s votes) choice := by
  obtain ⟨hfits, hset, _, helected⟩ := concludeVote_eq_ok.mp h
  obtain ⟨leader, hleader, hverdict⟩ := helected
  rw [concludeVote_eq_ok]
  constructor
  · intro hactive
    obtain ⟨_, _, hreached, chosen, hchosen, hsame⟩ := hactive
    refine ⟨hreached, ?_⟩
    intro choice hleads
    rw [hleads.unique hleader]
    have heq : chosen = leader :=
      VoteChoice.verdict_injective hchosen.eligible hleader.eligible (hsame.trans hverdict.symm)
    rw [← heq]
    exact hchosen
  · intro hactive
    obtain ⟨hreached, hleads⟩ := hactive
    have hfewer : votesCast (activeVotes s votes) ≤ votesCast votes :=
      List.filter_sublist.countP_le
    exact ⟨Nat.lt_of_le_of_lt hfewer hfits, hset, hreached, leader, hleads leader hleader, hverdict⟩

end Active

section Runs

/-- A finalization that has been accepted has concluded its votes. -/
theorem Concludes.concluded (h : Concludes key e votes outcome)
    (hturn : Turn e.input.env e.pre key e.input.call (e.pre.docket key) (e.post.docket key)) :
    concludeVote e.pre votes = .ok outcome := by
  cases h with
  | @decision decision _ hdoes hfound hleft =>
    obtain ⟨given, outcome', hgiven, _, hconcluded, hpost⟩ :=
      hturn.of_finalization (of_decide_eq_true hdoes)
    obtain rfl : given = decision := Option.some.inj (hgiven.symm.trans hfound)
    have hsame := Option.some.inj (hpost.symm.trans hleft)
    have houtcome : outcome' = outcome := congrArg Decision.outcome hsame
    rw [← houtcome]
    exact hconcluded
  | @appeal appeal _ hdoes hfound hleft =>
    obtain ⟨_, given, outcome', _, hgiven, _, hconcluded, _, hpost⟩ :=
      hturn.of_resolution (of_decide_eq_true hdoes)
    obtain rfl : given = appeal := Option.some.inj (hgiven.symm.trans hfound)
    have hsame := Option.some.inj (hpost.symm.trans hleft)
    have houtcome : outcome' = outcome := congrArg Appeal.outcome hsame
    rw [← houtcome]
    exact hconcluded

theorem exists_concludes
    (hturn : Turn e.input.env e.pre key e.input.call (e.pre.docket key) (e.post.docket key))
    (hdecides : e.input.call.decides = some key) : ∃ votes outcome, Concludes key e votes outcome := by
  have hdeed : e.input.call.deed = some (.finalization, key) ∨
      e.input.call.deed = some (.resolution, key) := by
    revert hdecides
    cases e.input.call <;> simp [Call.decides, Call.deed]
  rcases hdeed with hdeed | hdeed
  · obtain ⟨decision, outcome, hfound, _, _, hpost⟩ := hturn.of_finalization hdeed
    exact ⟨_, outcome, .decision (decide_eq_true hdeed) hfound hpost⟩
  · obtain ⟨_, appeal, outcome, _, hfound, _, _, _, hpost⟩ := hturn.of_resolution hdeed
    exact ⟨_, outcome, .appeal (decide_eq_true hdeed) hfound hpost⟩

/-- Whenever a decision or an appeal is finalized, the active members decide alone just where the
removed members have recused themselves. -/
theorem run_deciders (is : List (Input contract)) :
    let es := (machine contract).journal State.empty is
    (∀ e ∈ es, ∀ key, e.input.call.decides = some key →
        ∃ votes outcome, Concludes key e votes outcome) ∧
      (∀ e ∈ es, ∀ key votes outcome, Concludes key e votes outcome →
        (ActiveDecide e.pre votes outcome ↔ RemovedRecuse e.pre votes)) ∧
      ∀ e ∈ es, ∀ key votes outcome, Concludes key e votes outcome →
        (concludeVote e.pre (activeVotes e.pre votes) = .ok outcome ↔
          e.pre.quorum ≤ votesCast (activeVotes e.pre votes) ∧
            ∀ choice, Leads votes choice → Leads (activeVotes e.pre votes) choice) := by
  intro es
  have hturn : ∀ e ∈ es, ∀ key,
      Turn e.input.env e.pre key e.input.call (e.pre.docket key) (e.post.docket key) :=
    fun e he key => step_turn (Machine.journal_step he).1 key
  refine ⟨?_, ?_, ?_⟩
  · exact fun e he key => exists_concludes (hturn e he key)
  · intro e he key votes outcome h
    exact activeDecide_iff (h.concluded (hturn e he key))
  · intro e he key votes outcome h
    exact concluded_active_iff (h.concluded (hturn e he key))

/-- One of the two members who have voted is removed before the decision is finalized. -/
def sampleRemoved : List (Input ⟨0⟩) :=
  [⟨.sample, .initializeContract ⟨1⟩⟩,
    ⟨.sample, .addMember ⟨1⟩ ⟨2⟩ .chair⟩,
    ⟨.sample, .addMember ⟨1⟩ ⟨3⟩ .reviewer⟩,
    ⟨.sample, .setQuorum ⟨1⟩ 2⟩,
    ⟨.sample, .registerProgram ⟨1⟩ 7 ⟨1000, by decide⟩ ⟨100, by decide⟩ 50 50⟩,
    ⟨.sample, .openDecision ⟨2⟩ 7 ⟨4⟩ 1 8⟩,
    ⟨.sample, .vote ⟨2⟩ 7 ⟨4⟩ .reject⟩,
    ⟨.sample, .vote ⟨3⟩ 7 ⟨4⟩ .award⟩,
    ⟨.sample, .removeMember ⟨1⟩ ⟨2⟩⟩]

/-- The vote of the removed member makes up the quorum, and decides. -/
theorem sampleRemoved_decides :
    ∃ e ∈ (machine ⟨0⟩).journal State.empty
        (sampleRemoved ++ [⟨.sample, .finalizeDecision ⟨1⟩ 7 ⟨4⟩⟩]),
      e.pre = (machine ⟨0⟩).run State.empty sampleRemoved ∧
        ∃ votes, Concludes (7, ⟨4⟩) e votes .rejected ∧ ¬ActiveDecide e.pre votes .rejected ∧
          concludeVote e.pre (activeVotes e.pre votes) = .error (.err .quorumNotMet) := by
  have haccepted : ((machine ⟨0⟩).step ((machine ⟨0⟩).run State.empty sampleRemoved)
      ⟨.sample, .finalizeDecision ⟨1⟩ 7 ⟨4⟩⟩).isOk = true := by decide +kernel
  have hvotes : (((machine ⟨0⟩).run State.empty sampleRemoved).decision (7, ⟨4⟩)).map
      Decision.votes = some [⟨⟨2⟩, .reject, 10⟩, ⟨⟨3⟩, .award, 10⟩] := by decide +kernel
  have hrejected : concludeVote ((machine ⟨0⟩).run State.empty sampleRemoved)
      [⟨⟨2⟩, .reject, 10⟩, ⟨⟨3⟩, .award, 10⟩] = .ok .rejected := by decide +kernel
  have hactive : concludeVote ((machine ⟨0⟩).run State.empty sampleRemoved)
      (activeVotes ((machine ⟨0⟩).run State.empty sampleRemoved)
        [⟨⟨2⟩, .reject, 10⟩, ⟨⟨3⟩, .award, 10⟩]) = .error (.err .quorumNotMet) := by decide +kernel
  rcases hstep : (machine ⟨0⟩).step ((machine ⟨0⟩).run State.empty sampleRemoved)
      ⟨.sample, .finalizeDecision ⟨1⟩ 7 ⟨4⟩⟩ with err | ⟨u, s'⟩
  · rw [hstep] at haccepted
    cases haccepted
  · refine ⟨_, Machine.mem_journal hstep, rfl, [⟨⟨2⟩, .reject, 10⟩, ⟨⟨3⟩, .award, 10⟩], ?_, ?_, hactive⟩
    · obtain ⟨decision, outcome, hfound, _, hconcluded, hpost⟩ :=
        (step_turn hstep (7, ⟨4⟩)).of_finalization rfl
      rw [hfound, Option.map_some, Option.some.injEq] at hvotes
      rw [hvotes, hrejected, Except.ok.injEq] at hconcluded
      subst hconcluded
      rw [← hvotes]
      exact .decision rfl hfound hpost
    · intro h
      cases h.concluded.symm.trans hactive

end Runs

end ChainVerse.ScholarshipDecisions
