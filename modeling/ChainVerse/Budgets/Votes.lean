import ChainVerse.Budgets.Steps

namespace ChainVerse.ScholarshipDecisions

variable {s : State} {votes others : List Vote} {outcome : DecisionOutcome} {member : Address}

section Counts

def votesFor (choice : VoteChoice) (votes : List Vote) : Nat :=
  votes.countP fun vote => vote.choice = choice

/-- The votes other than recusals. -/
def votesCast (votes : List Vote) : Nat := votes.countP fun vote => vote.choice ≠ .recuse

theorem votesFor_cons (choice : VoteChoice) (vote : Vote) (votes : List Vote) :
    votesFor choice (vote :: votes) =
      votesFor choice votes + if vote.choice = choice then 1 else 0 := by
  simp [votesFor, List.countP_cons]

theorem votesFor_perm (choice : VoteChoice) (h : votes.Perm others) :
    votesFor choice votes = votesFor choice others := h.countP_eq _

theorem votesCast_eq (votes : List Vote) : votesCast votes =
    votesFor .award votes + votesFor .waitlist votes + votesFor .reject votes := by
  induction votes with
  | nil => rfl
  | cons vote votes ih =>
    have hcast : votesCast (vote :: votes) =
        votesCast votes + if vote.choice = .recuse then 0 else 1 := by
      simp [votesCast, List.countP_cons]
    rw [hcast, ih, votesFor_cons, votesFor_cons, votesFor_cons]
    cases vote.choice with
    | award => simp only [reduceCtorEq, if_true, if_false]; omega
    | waitlist => simp only [reduceCtorEq, if_true, if_false]; omega
    | reject => simp only [reduceCtorEq, if_true, if_false]; omega
    | recuse => simp only [reduceCtorEq, if_true, if_false]; omega

theorem votesCast_perm (h : votes.Perm others) : votesCast votes = votesCast others := h.countP_eq _

@[simp] theorem hasVoted_iff : hasVoted votes member = true ↔ member ∈ votes.map Vote.member := by
  simp [hasVoted]

end Counts

section Tally

/-- One round of the loop of `tally`. -/
def tallyVote (counts : Nat × Nat × Nat) (vote : Vote) : Outcome (Nat × Nat × Nat) :=
  let (award, waitlist, reject) := counts
  match vote.choice with
  | .award => do pure (← orRefuse (fitsU 32 (award + 1)) .overflow, waitlist, reject)
  | .waitlist => do pure (award, ← orRefuse (fitsU 32 (waitlist + 1)) .overflow, reject)
  | .reject => do pure (award, waitlist, ← orRefuse (fitsU 32 (reject + 1)) .overflow)
  | .recuse => pure (award, waitlist, reject)

theorem tally_eq (votes : List Vote) : tally votes = votes.foldlM tallyVote (0, 0, 0) := rfl

/-- One vote raises the count of its choice, as long as the counters have room. -/
theorem tallyVote_eq_ok {award waitlist reject : Nat} {vote : Vote} {counts : Nat × Nat × Nat}
    (haward : award < 2^32) (hwaitlist : waitlist < 2^32) (hreject : reject < 2^32) :
    tallyVote (award, waitlist, reject) vote = .ok counts ↔
      award + votesFor .award [vote] < 2^32 ∧ waitlist + votesFor .waitlist [vote] < 2^32 ∧
        reject + votesFor .reject [vote] < 2^32 ∧
        (award + votesFor .award [vote], waitlist + votesFor .waitlist [vote],
          reject + votesFor .reject [vote]) = counts := by
  have hone : ∀ choice, votesFor choice [vote] = if vote.choice = choice then 1 else 0 := by
    intro choice
    rw [votesFor_cons]
    exact Nat.zero_add _
  rw [hone, hone, hone, tallyVote]
  cases vote.choice with
  | award => simp [-Nat.reducePow, hwaitlist, hreject]
  | waitlist => simp [-Nat.reducePow, haward, hreject]
  | reject => simp [-Nat.reducePow, haward, hwaitlist]
  | recuse => simp [-Nat.reducePow, haward, hwaitlist, hreject]

/-- The loop counts the votes for each choice on top of what it starts from. -/
theorem foldlM_tallyVote (votes : List Vote) {award waitlist reject : Nat}
    {counts : Nat × Nat × Nat} (haward : award < 2^32) (hwaitlist : waitlist < 2^32)
    (hreject : reject < 2^32) :
    votes.foldlM tallyVote (award, waitlist, reject) = .ok counts ↔
      award + votesFor .award votes < 2^32 ∧ waitlist + votesFor .waitlist votes < 2^32 ∧
        reject + votesFor .reject votes < 2^32 ∧
        (award + votesFor .award votes, waitlist + votesFor .waitlist votes,
          reject + votesFor .reject votes) = counts := by
  induction votes generalizing award waitlist reject with
  | nil =>
    rw [List.foldlM_nil, pure_eq_ok]
    exact ⟨fun h => ⟨haward, hwaitlist, hreject, h⟩, fun h => h.2.2.2⟩
  | cons vote votes ih =>
    have hsplit : ∀ choice, votesFor choice (vote :: votes) =
        votesFor choice [vote] + votesFor choice votes := by
      intro choice
      rw [votesFor_cons, votesFor_cons, Nat.add_comm]
      exact congrArg (· + votesFor choice votes) (Nat.zero_add _).symm
    rw [List.foldlM_cons, bind_eq_ok, hsplit, hsplit, hsplit, ← Nat.add_assoc, ← Nat.add_assoc,
      ← Nat.add_assoc]
    constructor
    · intro h
      obtain ⟨next, hnext, hrest⟩ := h
      obtain ⟨ha, hw, hr, rfl⟩ := (tallyVote_eq_ok haward hwaitlist hreject).mp hnext
      exact (ih ha hw hr).mp hrest
    · intro h
      obtain ⟨ha, hw, hr, hcounts⟩ := h
      have ha' : award + votesFor .award [vote] < 2^32 := Nat.lt_of_le_of_lt (Nat.le_add_right _ _) ha
      have hw' : waitlist + votesFor .waitlist [vote] < 2^32 :=
        Nat.lt_of_le_of_lt (Nat.le_add_right _ _) hw
      have hr' : reject + votesFor .reject [vote] < 2^32 :=
        Nat.lt_of_le_of_lt (Nat.le_add_right _ _) hr
      refine ⟨_, (tallyVote_eq_ok haward hwaitlist hreject).mpr ⟨ha', hw', hr', rfl⟩, ?_⟩
      exact (ih ha' hw' hr').mpr ⟨ha, hw, hr, hcounts⟩

theorem tally_eq_ok {counts : Nat × Nat × Nat} : tally votes = .ok counts ↔
    votesFor .award votes < 2^32 ∧ votesFor .waitlist votes < 2^32 ∧ votesFor .reject votes < 2^32 ∧
      (votesFor .award votes, votesFor .waitlist votes, votesFor .reject votes) = counts := by
  rw [tally_eq, foldlM_tallyVote votes (by decide) (by decide) (by decide)]
  simp only [Nat.zero_add]

end Tally

section Election

/-- The outcome that a choice stands for. -/
def VoteChoice.verdict : VoteChoice → DecisionOutcome
  | .award => .awarded
  | .waitlist => .waitlisted
  | .reject => .rejected
  | .recuse => .pending

/-- How conservative a choice is. -/
def VoteChoice.rank : VoteChoice → Nat
  | .award => 0
  | .waitlist => 1
  | .reject => 2
  | .recuse => 0

/-- A choice leads the vote: none has more votes, and none that has as many is more conservative. -/
structure Leads (votes : List Vote) (choice : VoteChoice) : Prop where
  eligible : choice ≠ .recuse
  most : ∀ other, other ≠ .recuse → votesFor other votes ≤ votesFor choice votes
  ties : ∀ other, other ≠ .recuse → votesFor other votes = votesFor choice votes →
    other.rank ≤ choice.rank

/-- The outcome is the one of the choice that leads the vote. -/
def Elected (votes : List Vote) (outcome : DecisionOutcome) : Prop :=
  ∃ choice, Leads votes choice ∧ choice.verdict = outcome

theorem VoteChoice.rank_injective {choice other : VoteChoice} (hchoice : choice ≠ .recuse)
    (hother : other ≠ .recuse) (h : choice.rank = other.rank) : choice = other := by
  cases choice <;> cases other <;> simp_all [rank]

theorem VoteChoice.verdict_injective {choice other : VoteChoice} (hchoice : choice ≠ .recuse)
    (hother : other ≠ .recuse) (h : choice.verdict = other.verdict) : choice = other := by
  cases choice <;> cases other <;> simp_all [verdict]

/-- Only one choice leads. -/
theorem Leads.unique {choice other : VoteChoice} (h : Leads votes choice) (h' : Leads votes other) :
    choice = other := by
  have hsame : votesFor other votes = votesFor choice votes :=
    Nat.le_antisymm (h.most other h'.eligible) (h'.most choice h.eligible)
  have hle := h.ties other h'.eligible hsame
  have hge := h'.ties choice h.eligible hsame.symm
  exact VoteChoice.rank_injective h.eligible h'.eligible (Nat.le_antisymm hge hle)

theorem Leads.perm {choice : VoteChoice} (h : Leads votes choice) (hperm : votes.Perm others) :
    Leads others choice where
  eligible := h.eligible
  most other hother := by
    rw [← votesFor_perm _ hperm, ← votesFor_perm _ hperm]
    exact h.most other hother
  ties other hother := by
    rw [← votesFor_perm _ hperm, ← votesFor_perm _ hperm]
    exact h.ties other hother

theorem Elected.unique {other : DecisionOutcome} (h : Elected votes outcome)
    (h' : Elected votes other) : outcome = other := by
  obtain ⟨choice, hleads, rfl⟩ := h
  obtain ⟨choice', hleads', rfl⟩ := h'
  rw [hleads.unique hleads']

theorem Elected.perm (h : Elected votes outcome) (hperm : votes.Perm others) :
    Elected others outcome := by
  obtain ⟨choice, hleads, rfl⟩ := h
  exact ⟨choice, hleads.perm hperm, rfl⟩

/-- A choice has no more votes than another one, and is no more conservative if it has as many. -/
def Trails (votes : List Vote) (other choice : VoteChoice) : Prop :=
  votesFor other votes ≤ votesFor choice votes ∧
    (votesFor other votes = votesFor choice votes → other.rank ≤ choice.rank)

theorem elected_of_trails {choice : VoteChoice} (heligible : choice ≠ .recuse)
    (haward : Trails votes .award choice) (hwaitlist : Trails votes .waitlist choice)
    (hreject : Trails votes .reject choice) : Elected votes choice.verdict := by
  have hall : ∀ other, other ≠ .recuse → Trails votes other choice := by
    intro other hother
    cases other with
    | award => exact haward
    | waitlist => exact hwaitlist
    | reject => exact hreject
    | recuse => exact absurd rfl hother
  exact ⟨choice, ⟨heligible, fun other h => (hall other h).1, fun other h => (hall other h).2⟩, rfl⟩

theorem trails_self (choice : VoteChoice) : Trails votes choice choice :=
  ⟨Nat.le_refl _, fun _ => Nat.le_refl _⟩

theorem trails_of_lt {other choice : VoteChoice} (h : votesFor other votes < votesFor choice votes) :
    Trails votes other choice :=
  ⟨Nat.le_of_lt h, fun hsame => absurd hsame (Nat.ne_of_lt h)⟩

theorem trails_of_rank {other choice : VoteChoice} (h : votesFor other votes ≤ votesFor choice votes)
    (hrank : other.rank ≤ choice.rank) : Trails votes other choice := ⟨h, fun _ => hrank⟩

/-- The outcome that the counts decide is elected. -/
theorem decideOutcome_elected (votes : List Vote) : Elected votes
    (decideOutcome (votesFor .award votes) (votesFor .waitlist votes) (votesFor .reject votes)) := by
  unfold decideOutcome
  by_cases hwaitlist : votesFor .award votes ≤ votesFor .waitlist votes
  · simp only [if_pos hwaitlist]
    by_cases hreject : votesFor .waitlist votes ≤ votesFor .reject votes
    · rw [if_pos hreject]
      exact @elected_of_trails votes .reject (by decide)
        (trails_of_rank (Nat.le_trans hwaitlist hreject) (by decide))
        (trails_of_rank hreject (by decide)) (trails_self _)
    · rw [if_neg hreject]
      exact @elected_of_trails votes .waitlist (by decide)
        (trails_of_rank hwaitlist (by decide)) (trails_self _) (trails_of_lt (Nat.lt_of_not_le hreject))
  · simp only [if_neg hwaitlist]
    have hless := Nat.lt_of_not_le hwaitlist
    by_cases hreject : votesFor .award votes ≤ votesFor .reject votes
    · rw [if_pos hreject]
      exact @elected_of_trails votes .reject (by decide) (trails_of_rank hreject (by decide))
        (trails_of_lt (Nat.lt_of_lt_of_le hless hreject)) (trails_self _)
    · rw [if_neg hreject]
      exact @elected_of_trails votes .award (by decide) (trails_self _) (trails_of_lt hless)
        (trails_of_lt (Nat.lt_of_not_le hreject))

/-- A vote is concluded just when a quorum is set and reached, with the outcome that is elected. -/
theorem concludeVote_eq_ok : concludeVote s votes = .ok outcome ↔
    votesCast votes < 2^32 ∧ s.quorum ≠ 0 ∧ s.quorum ≤ votesCast votes ∧ Elected votes outcome := by
  have helected := decideOutcome_elected votes
  have hcast := votesCast_eq votes
  simp only [concludeVote, bind_eq_ok, tally_eq_ok, orRefuse_eq_ok, fitsU_eq_some, exists_unit,
    refuseIf_eq_ok, pure_eq_ok, not_or, not_lt]
  constructor
  · intro h
    obtain ⟨_, ⟨_, _, _, rfl⟩, _, ⟨_, rfl⟩, _, ⟨hfits, rfl⟩, ⟨hset, hreached⟩, rfl⟩ := h
    rw [← hcast] at hfits hreached
    exact ⟨hfits, hset, hreached, helected⟩
  · intro h
    obtain ⟨hfits, hset, hreached, houtcome⟩ := h
    rw [hcast] at hfits hreached
    refine ⟨_, ⟨?_, ?_, ?_, rfl⟩, _, ⟨?_, rfl⟩, _, ⟨hfits, rfl⟩, ⟨hset, hreached⟩,
      helected.unique houtcome⟩
    · omega
    · omega
    · omega
    · show votesFor .award votes + votesFor .waitlist votes < 2^32
      omega

/-- The order of the votes does not matter. -/
theorem concludeVote_perm (h : concludeVote s votes = .ok outcome) (hperm : votes.Perm others) :
    concludeVote s others = .ok outcome := by
  obtain ⟨hfits, hset, hreached, helected⟩ := concludeVote_eq_ok.mp h
  rw [votesCast_perm hperm] at hfits hreached
  exact concludeVote_eq_ok.mpr ⟨hfits, hset, hreached, helected.perm hperm⟩

end Election

end ChainVerse.ScholarshipDecisions
