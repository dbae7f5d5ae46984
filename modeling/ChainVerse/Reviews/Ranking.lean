import ChainVerse.Reviews.Accuracy
import Mathlib.Data.Prod.Lex
import Mathlib.Order.OrderDual

namespace ChainVerse.ScholarshipReviews

variable {contract : Address} {s s' : State} {key : Application} {es : List (Step contract)}

section Definitions

inductive CompareOutcome where
  | aBetter
  | bBetter
  | tie
  deriving DecidableEq, Repr

/-- The earliest time once there is one more. -/
def sooner (earliest : Option Nat) (submittedAt : Nat) : Option Nat :=
  match earliest with
  | none => some submittedAt
  | some current => if submittedAt < current then some submittedAt else some current

def withReview (s : State) (key : Application) (earliest : Option Nat) (reviewer : Address) :
    Outcome (Option Nat) := do
  let review ← orRefuse (s.review (key, reviewer)) (.err .reviewNotFound)
  pure (sooner earliest review.submittedAt)

def firstReviewTime (s : State) (key : Application) : Outcome Nat := do
  let earliest ← (s.reviewers key).foldlM (withReview s key) none
  orRefuse earliest (.err .insufficientReviews)

/-- The better score wins, and of two equal ones that of the application that was reviewed first. -/
def compareApplicants (s : State) (programId : Bytes32) (applicantA applicantB : Address) :
    Outcome CompareOutcome := do
  let scoreA ← aggregateScore s programId applicantA
  let scoreB ← aggregateScore s programId applicantB
  if scoreB < scoreA then pure .aBetter
  else if scoreA < scoreB then pure .bBetter
  else do
    let timeA ← firstReviewTime s (programId, applicantA)
    let timeB ← firstReviewTime s (programId, applicantB)
    if timeA < timeB then pure .aBetter
    else if timeB < timeA then pure .bBetter
    else pure .tie

end Definitions

section FirstReviews

/-- The loop goes over the times of the reviews. -/
theorem foldlM_withReview {reviewers : List Address} (hreviewed : ∀ r ∈ reviewers, ∃ review,
    s.review (key, r) = some review) (start : Option Nat) :
    reviewers.foldlM (withReview s key) start =
      .ok (((s.reviewsBy key reviewers).map Review.submittedAt).foldl sooner start) := by
  induction reviewers generalizing start with
  | nil => rfl
  | cons reviewer reviewers ih =>
    obtain ⟨⟨review, hreview⟩, hrest⟩ := List.forall_mem_cons.mp hreviewed
    have hfirst : withReview s key start reviewer = .ok (sooner start review.submittedAt) := by
      rw [withReview, hreview]
      rfl
    have hreviews : s.reviewsBy key (reviewer :: reviewers) = review :: s.reviewsBy key reviewers := by
      rw [State.reviewsBy, List.filterMap_cons, hreview]
      rfl
    rw [List.foldlM_cons, hfirst, ok_bind, ih hrest, hreviews]
    rfl

theorem foldl_sooner (times : List Nat) (start : Nat) :
    times.foldl sooner (some start) = some (times.foldl min start) := by
  induction times generalizing start with
  | nil => rfl
  | cons time times ih =>
    have hmin : sooner (some start) time = some (min start time) := by
      unfold sooner
      dsimp only
      split_ifs with hlt
      · rw [Nat.min_eq_right hlt.le]
      · rw [Nat.min_eq_left (Nat.le_of_not_lt hlt)]
    rw [List.foldl_cons, List.foldl_cons, hmin, ih]

/-- The time of the first review is the least of those of the reviews. -/
theorem Books.firstReviewTime (hs : Books s) (key : Application) :
    firstReviewTime s key =
      orRefuse ((s.reviewsOf key).map Review.submittedAt).min? (.err .insufficientReviews) := by
  have hreviewed : ∀ r ∈ s.reviewers key, ∃ review, s.review (key, r) = some review := by
    intro r hr
    obtain ⟨review, _, _, hreview, _⟩ := hs.reviewed key r hr
    exact ⟨review, hreview⟩
  rw [ScholarshipReviews.firstReviewTime, foldlM_withReview hreviewed, ok_bind, State.reviewsOf]
  cases (s.reviewsBy key (s.reviewers key)).map Review.submittedAt with
  | nil => rfl
  | cons time times =>
    rw [List.foldl_cons, List.min?_cons']
    exact congrArg (orRefuse · _) (foldl_sooner times time)

/-- The times of the reviews of an application, in the order of the reviews. -/
def State.times (s : State) (key : Application) : List Nat := (s.reviewsOf key).map Review.submittedAt

theorem submitReview_stored {env : Env contract} {reviewer applicant : Address} {programId : Bytes32}
    {scores : List Nat} {total : Nat}
    (h : submitReview env s reviewer programId applicant scores = .ok (total, s')) :
    ∃ review, s' = saveReview s (programId, applicant) review ∧ review.submittedAt = env.timestamp ∧
      s.review ((programId, applicant), review.reviewer) = none := by
  simp only [submitReview, bind_eq_ok, exists_unit, orRefuse_eq_ok, refuseIf_eq_ok, pure_eq_ok, Prod.mk.injEq,
    not_not] at h
  obtain ⟨_, _, _, _, _, _, hfresh, _, _, _, _, rfl⟩ := h
  exact ⟨_, rfl, rfl, hfresh⟩

/-- A review goes on the list of its application, and leaves the others. -/
theorem times_saveReview (hs : Books s) {review : Review} (hfresh : s.review (key, review.reviewer) = none)
    (other : Application) : (saveReview s key review).times other =
      s.times other ++ if some key = some other then [review.submittedAt] else [] := by
  have hold : ∀ reviewer ∈ s.reviewers other,
      (saveReview s key review).review (other, reviewer) = s.review (other, reviewer) := by
    intro reviewer hmem
    obtain ⟨stored, _, _, hstored, _, _⟩ := hs.reviewed other reviewer hmem
    rw [hstored]
    exact update_keeps_row hfresh hstored
  have hreviews : (saveReview s key review).reviewsBy other (s.reviewers other) = s.reviewsOf other :=
    List.filterMap_congr hold
  by_cases hsame : key = other
  · subst hsame
    have hlist : (saveReview s key review).reviewers key = s.reviewers key ++ [review.reviewer] :=
      Function.update_self _ _ _
    have hnew : (saveReview s key review).review (key, review.reviewer) = some review :=
      Function.update_self _ _ _
    have hlast : (saveReview s key review).reviewsOf key = s.reviewsOf key ++ [review] := by
      rw [State.reviewsOf, hlist, ← hreviews, State.reviewsBy, State.reviewsBy, List.filterMap_append,
        List.filterMap_cons, hnew]
      rfl
    rw [if_pos rfl, State.times, hlast, List.map_append]
    rfl
  · have hlist : (saveReview s key review).reviewers other = s.reviewers other :=
      Function.update_of_ne (Ne.symm hsame) _ _
    rw [if_neg fun heq => hsame (Option.some.inj heq), List.append_nil, State.times, State.reviewsOf, hlist,
      hreviews]
    rfl

/-- The other calls leave the reviews. -/
theorem Effect.times {call : Call} (h : Effect s call s') (hquiet : call.reviews = none) (key : Application) :
    s'.times key = s.times key := by
  cases h with
  | quiet _ _ _ _ _ hreviews hreviewers =>
    rw [State.times, State.reviewsOf, State.reviewsBy, hreviews, hreviewers]
    rfl
  | configured => rfl
  | published => rfl
  | reviewed hreviews =>
    rw [hquiet] at hreviews
    cases hreviews

/-- An accepted review is recorded with the time of its call. -/
theorem step_times {i : Input contract} {o : Answer} (hs : Books s)
    (hstep : (machine contract).step s i = .ok (o, s')) (key : Application) :
    s'.times key = s.times key ++ if i.call.reviews = some key then [i.env.timestamp] else [] := by
  by_cases hcall : i.call.reviews = none
  · rw [hcall, if_neg (Option.some_ne_none key).symm, List.append_nil]
    exact (step_effect hstep).times hcall key
  · obtain ⟨env, call⟩ := i
    cases call with
    | submitReview reviewer programId applicant scores =>
      simp only [machine, execute, map_eq_ok] at hstep
      obtain ⟨⟨total, t⟩, hsubmit, heq⟩ := hstep
      cases heq
      obtain ⟨review, rfl, hdated, hfresh⟩ := submitReview_stored hsubmit
      have htimes := times_saveReview hs hfresh key
      rw [hdated] at htimes
      exact htimes
    | _ => exact absurd rfl hcall

/-- The calls that have reviewed an application, in their order. -/
def reviewing (es : List (Step contract)) (key : Application) : List (Step contract) :=
  es.filter fun e => e.input.call.reviews = some key

def dated (e : Step contract) : Nat := e.input.env.timestamp

/-- Over every run, the times of an application's reviews are those of the calls that recorded them. -/
theorem run_times (is : List (Input contract)) (key : Application) :
    ((machine contract).run State.empty is).times key =
      (reviewing ((machine contract).journal State.empty is) key).map dated := by
  have hboth : Books ((machine contract).run State.empty is) ∧
      ((machine contract).run State.empty is).times key =
        (reviewing ((machine contract).journal State.empty is) key).map dated := by
    apply Machine.run_journal_invariant (P := fun s es => Books s ∧ s.times key = (reviewing es key).map dated)
    · exact ⟨books_empty, rfl⟩
    · rintro es s i o s' ⟨hs, htimes⟩ hstep
      refine ⟨(step_effect hstep).books hs, ?_⟩
      rw [step_times hs hstep, htimes, reviewing, reviewing, List.filter_append, List.map_append]
      congr 1
      by_cases hkey : i.call.reviews = some key
      · simp [hkey, dated]
      · simp [hkey]
  exact hboth.2

/-- While the ledger's time does not go back, the first review is the earliest. -/
theorem min_dated {es : List (Step contract)} (hordered : es.Pairwise fun e e' => dated e ≤ dated e')
    (key : Application) : ((reviewing es key).map dated).min? = (reviewing es key).head?.map dated := by
  have hsorted : ((reviewing es key).map dated).Pairwise fun a b => min a b = a := by
    apply (hordered.filter _).map
    intro e e' hle
    exact Nat.min_eq_left hle
  rw [List.min?_eq_head? hsorted, List.head?_map]

end FirstReviews

section Orders

/-- What a comparison goes by: the score, and among equal scores the time of the first review, where sooner
is better. -/
abbrev Standing := ℕ ×ₗ ℕᵒᵈ

def State.standing (s : State) (programId : Bytes32) (applicant : Address) : Outcome Standing := do
  let score ← aggregateScore s programId applicant
  let time ← firstReviewTime s (programId, applicant)
  pure (toLex (score, OrderDual.toDual time))

/-- The verdict on two standings. -/
def verdict (x y : Standing) : CompareOutcome :=
  if y < x then .aBetter else if x < y then .bBetter else .tie

theorem verdict_eq_tie {x y : Standing} : verdict x y = .tie ↔ x = y := by
  unfold verdict
  split_ifs with hyx hxy
  · simp [hyx.ne']
  · simp [hxy.ne]
  · simp [le_antisymm (not_lt.mp hyx) (not_lt.mp hxy)]

theorem verdict_eq_aBetter {x y : Standing} : verdict x y = .aBetter ↔ y < x := by
  unfold verdict
  split_ifs with hyx hxy
  · simp [hyx]
  · simp [hyx]
  · simp [hyx]

theorem verdict_eq_bBetter {x y : Standing} : verdict x y = .bBetter ↔ x < y := by
  unfold verdict
  split_ifs with hyx hxy
  · simp [hyx.not_gt]
  · simp [hxy]
  · simp [hxy]

/-- The comparison of scores and then of times is that of the standings. -/
theorem verdict_scores (scoreA scoreB timeA timeB : Nat) :
    verdict (toLex (scoreA, OrderDual.toDual timeA)) (toLex (scoreB, OrderDual.toDual timeB)) =
      if scoreB < scoreA then .aBetter
      else if scoreA < scoreB then .bBetter
      else if timeA < timeB then .aBetter
      else if timeB < timeA then .bBetter
      else .tie := by
  have hlex : ∀ score score' time time' : Nat,
      toLex (score, OrderDual.toDual time) < toLex (score', OrderDual.toDual time') ↔
        score < score' ∨ score = score' ∧ time' < time :=
    fun _ _ _ _ => Prod.Lex.toLex_lt_toLex
  simp only [verdict, hlex]
  split_ifs <;> first | rfl | omega

/-- Whoever has a score has a first review. -/
theorem Books.timed (hs : Books s) {score : Nat} (hscore : aggregateScore s key.1 key.2 = .ok score) :
    ∃ time, ScholarshipReviews.firstReviewTime s key = .ok time := by
  simp only [aggregateScore, bind_eq_ok, exists_unit, orRefuse_eq_ok] at hscore
  obtain ⟨_, _, _, firstReviewer, hfirst, firstReview, hreview, _⟩ := hscore
  have hin : firstReview ∈ s.reviewsOf key :=
    List.mem_filterMap.mpr ⟨firstReviewer, List.mem_of_head? hfirst, hreview⟩
  have hsome : ((s.reviewsOf key).map Review.submittedAt).min?.isSome :=
    List.isSome_min?_of_mem (List.mem_map_of_mem hin)
  obtain ⟨time, htime⟩ := Option.isSome_iff_exists.mp hsome
  exact ⟨time, by rw [hs.firstReviewTime, htime]; rfl⟩

theorem standing_eq_ok {programId : Bytes32} {applicant : Address} {x : Standing} :
    s.standing programId applicant = .ok x ↔ ∃ score time, aggregateScore s programId applicant = .ok score ∧
      firstReviewTime s (programId, applicant) = .ok time ∧ toLex (score, OrderDual.toDual time) = x := by
  simp only [State.standing, bind_eq_ok, pure_eq_ok, exists_and_left]

theorem compareApplicants_eq {programId : Bytes32} {a b : Address} {scoreA scoreB timeA timeB : Nat}
    (hscoreA : aggregateScore s programId a = .ok scoreA) (hscoreB : aggregateScore s programId b = .ok scoreB)
    (htimeA : firstReviewTime s (programId, a) = .ok timeA)
    (htimeB : firstReviewTime s (programId, b) = .ok timeB) :
    compareApplicants s programId a b =
      .ok (verdict (toLex (scoreA, OrderDual.toDual timeA)) (toLex (scoreB, OrderDual.toDual timeB))) := by
  simp only [compareApplicants, hscoreA, hscoreB, htimeA, htimeB, ok_bind, verdict_scores]
  split_ifs <;> rfl

/-- A comparison is the verdict on the two standings, and there is one where both have a score. -/
theorem Books.compareApplicants (hs : Books s) {programId : Bytes32} {a b : Address} {r : CompareOutcome} :
    compareApplicants s programId a b = .ok r ↔
      ∃ x y, s.standing programId a = .ok x ∧ s.standing programId b = .ok y ∧ verdict x y = r := by
  constructor
  · intro h
    have hfound := h
    simp only [ScholarshipReviews.compareApplicants, bind_eq_ok] at hfound
    obtain ⟨scoreA, hscoreA, scoreB, hscoreB, _⟩ := hfound
    obtain ⟨timeA, htimeA⟩ := @Books.timed s (programId, a) hs _ hscoreA
    obtain ⟨timeB, htimeB⟩ := @Books.timed s (programId, b) hs _ hscoreB
    rw [compareApplicants_eq hscoreA hscoreB htimeA htimeB, Except.ok.injEq] at h
    exact ⟨_, _, standing_eq_ok.mpr ⟨_, _, hscoreA, htimeA, rfl⟩, standing_eq_ok.mpr ⟨_, _, hscoreB, htimeB, rfl⟩,
      h⟩
  · rintro ⟨x, y, hx, hy, rfl⟩
    obtain ⟨scoreA, timeA, hscoreA, htimeA, rfl⟩ := standing_eq_ok.mp hx
    obtain ⟨scoreB, timeB, hscoreB, htimeB, rfl⟩ := standing_eq_ok.mp hy
    exact compareApplicants_eq hscoreA hscoreB htimeA htimeB

/-- Over every run, two applicants of a program can be compared exactly when both have a score. The
comparisons then rank the applicants: exchanging the two exchanges the verdict, whoever is not behind somebody
is not behind anybody that one is not behind either, and is ahead where one of the two steps is. A tie means
the same score and the same time of the first review, and while the time of the ledger does not go back, this
is the time of the first call that reviewed the application, which later reviews do not move. -/
theorem comparisons_rank_applicants (is : List (Input contract)) (programId : Bytes32) :
    let s := (machine contract).run State.empty is
    (∀ a b, (∃ r, compareApplicants s programId a b = .ok r) ↔
      (∃ score, aggregateScore s programId a = .ok score) ∧ ∃ score, aggregateScore s programId b = .ok score) ∧
    (∀ a b, compareApplicants s programId a b = .ok .aBetter ↔ compareApplicants s programId b a = .ok .bBetter) ∧
    (∀ a b, compareApplicants s programId a b = .ok .tie ↔
      ∃ x, s.standing programId a = .ok x ∧ s.standing programId b = .ok x) ∧
    (∀ a b c r r', compareApplicants s programId a b = .ok r → compareApplicants s programId b c = .ok r' →
      r ≠ .bBetter → r' ≠ .bBetter →
        compareApplicants s programId a c = .ok (if r = .aBetter ∨ r' = .aBetter then .aBetter else .tie)) ∧
    ((((machine contract).journal State.empty is).Pairwise fun e e' => dated e ≤ dated e') →
      ∀ applicant, firstReviewTime s (programId, applicant) =
        orRefuse ((reviewing ((machine contract).journal State.empty is) (programId, applicant)).head?.map dated)
          (.err .insufficientReviews)) := by
  intro s
  have hs : Books s := run_books is
  refine ⟨?_, ?_, ?_, ?_, ?_⟩
  · intro a b
    constructor
    · rintro ⟨r, h⟩
      obtain ⟨x, y, hx, hy, _⟩ := hs.compareApplicants.mp h
      obtain ⟨scoreA, _, hscoreA, _⟩ := standing_eq_ok.mp hx
      obtain ⟨scoreB, _, hscoreB, _⟩ := standing_eq_ok.mp hy
      exact ⟨⟨scoreA, hscoreA⟩, ⟨scoreB, hscoreB⟩⟩
    · rintro ⟨⟨scoreA, hscoreA⟩, ⟨scoreB, hscoreB⟩⟩
      obtain ⟨timeA, htimeA⟩ := @Books.timed s (programId, a) hs _ hscoreA
      obtain ⟨timeB, htimeB⟩ := @Books.timed s (programId, b) hs _ hscoreB
      exact ⟨_, compareApplicants_eq hscoreA hscoreB htimeA htimeB⟩
  · intro a b
    simp only [hs.compareApplicants, verdict_eq_aBetter, verdict_eq_bBetter]
    constructor
    · rintro ⟨x, y, hx, hy, hlt⟩
      exact ⟨y, x, hy, hx, hlt⟩
    · rintro ⟨y, x, hy, hx, hlt⟩
      exact ⟨x, y, hx, hy, hlt⟩
  · intro a b
    simp only [hs.compareApplicants, verdict_eq_tie]
    constructor
    · rintro ⟨x, _, hx, hy, rfl⟩
      exact ⟨x, hx, hy⟩
    · rintro ⟨x, hx, hy⟩
      exact ⟨x, x, hx, hy, rfl⟩
  · intro a b c r r' hab hbc hr hr'
    obtain ⟨x, y, hx, hy, rfl⟩ := hs.compareApplicants.mp hab
    obtain ⟨y', z, hy', hz, rfl⟩ := hs.compareApplicants.mp hbc
    rw [hy, Except.ok.injEq] at hy'
    subst hy'
    rw [hs.compareApplicants]
    refine ⟨x, z, hx, hz, ?_⟩
    rw [ne_eq, verdict_eq_bBetter, not_lt] at hr hr'
    simp only [verdict_eq_aBetter]
    split_ifs with hahead
    · rw [verdict_eq_aBetter]
      rcases hahead with hyx | hzy
      · exact hr'.trans_lt hyx
      · exact hzy.trans_le hr
    · rw [not_or, not_lt, not_lt] at hahead
      rw [verdict_eq_tie]
      exact le_antisymm (hahead.1.trans hahead.2) (hr'.trans hr)
  · intro hordered applicant
    have htimes := run_times is (programId, applicant)
    rw [State.times] at htimes
    rw [hs.firstReviewTime, htimes, min_dated hordered]

end Orders

end ChainVerse.ScholarshipReviews
