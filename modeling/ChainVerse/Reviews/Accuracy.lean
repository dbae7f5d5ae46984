import ChainVerse.Framework.FloorSums
import ChainVerse.Reviews.Aggregates

namespace ChainVerse.ScholarshipReviews

variable {contract : Address} {s s' : State} {key : Application} {rubric : Rubric}
  {criteria : List Criterion} {scores : List Nat}

section Rubrics

/-- A rubric that passes the checks of its publication. -/
structure ValidRubric (criteria : List Criterion) : Prop where
  scorable : ∀ criterion ∈ criteria, 0 < criterion.maxScore
  bounded : ∀ criterion ∈ criteria, criterion.maxScore ≤ maxCriterionScore
  weights : (criteria.map Criterion.weightBps).sum = bpsDenominator

/-- One turn of the loop of `validateRubric`. -/
def addWeight (totalWeight : Nat) (criterion : Criterion) : Outcome Nat := do
  refuseIf (criterion.maxScore = 0 ∨ maxCriterionScore < criterion.maxScore) (.err .invalidRubric)
  orRefuse (fitsU 64 (totalWeight + criterion.weightBps)) (.err .arithmeticOverflow)

theorem validateRubric_loop : validateRubric criteria = (do
    refuseIf (criteria.length = 0 ∨ maxCriteria < criteria.length) (.err .invalidRubric)
    let totalWeight ← criteria.foldlM addWeight 0
    refuseIf (totalWeight ≠ bpsDenominator) (.err .invalidRubric)) := rfl

/-- The loop checks every maximum and adds up the weights. -/
theorem foldlM_addWeight {start totalWeight : Nat}
    (h : criteria.foldlM addWeight start = .ok totalWeight) :
    (∀ criterion ∈ criteria, 0 < criterion.maxScore ∧ criterion.maxScore ≤ maxCriterionScore) ∧
      totalWeight = start + (criteria.map Criterion.weightBps).sum := by
  induction criteria generalizing start with
  | nil =>
    rw [List.foldlM_nil, pure_eq_ok] at h
    exact ⟨fun _ hmem => absurd hmem List.not_mem_nil, h.symm⟩
  | cons criterion criteria ih =>
    simp only [List.foldlM_cons, addWeight, bind_eq_ok, refuseIf_eq_ok, orRefuse_eq_ok, exists_unit,
      fitsU_eq_some, not_or, not_lt] at h
    obtain ⟨next, ⟨⟨hpos, hmax⟩, _, rfl⟩, hrest⟩ := h
    obtain ⟨hall, hsum⟩ := ih hrest
    refine ⟨List.forall_mem_cons.mpr ⟨⟨Nat.pos_of_ne_zero hpos, hmax⟩, hall⟩, ?_⟩
    rw [hsum, List.map_cons, List.sum_cons, Nat.add_assoc]

theorem validateRubric_valid {u : Unit} (h : validateRubric criteria = .ok u) :
    ValidRubric criteria := by
  simp only [validateRubric_loop, bind_eq_ok, exists_unit, refuseIf_eq_ok, not_not] at h
  obtain ⟨_, totalWeight, hfold, hweight⟩ := h
  obtain ⟨hall, hsum⟩ := foldlM_addWeight hfold
  exact ⟨fun c hc => (hall c hc).1, fun c hc => (hall c hc).2, by omega⟩

/-- Every stored rubric has passed the checks of its publication. -/
def ValidRubrics (s : State) : Prop := ∀ slot, ∀ rubric ∈ s.rubric slot, ValidRubric rubric.criteria

theorem ValidRubrics.save (hs : ValidRubrics s) {programId : Bytes32}
    (hvalid : ValidRubric rubric.criteria) : ValidRubrics (saveRubric s programId rubric) := by
  intro slot stored hstored
  rcases update_row_cases hstored with ⟨rfl, rfl⟩ | ⟨_, hold⟩
  · exact hvalid
  · exact hs slot stored hold

theorem step_validRubrics {i : Input contract} {o : Answer} (hs : ValidRubrics s)
    (h : (machine contract).step s i = .ok (o, s')) : ValidRubrics s' := by
  cases step_effect h with
  | quiet _ _ _ _ hrubrics =>
    unfold ValidRubrics
    rw [hrubrics]
    exact hs
  | configured => exact hs
  | published _ _ hvalid => exact hs.save (validateRubric_valid hvalid)
  | reviewed => exact hs

theorem run_validRubrics (is : List (Input contract)) :
    ValidRubrics ((machine contract).run State.empty is) :=
  Machine.run_invariant (fun _ _ h => nomatch h) (fun _ _ _ _ hs h => step_validRubrics hs h) is

end Rubrics

section Totals

/-- A score for every criterion, none above its maximum. -/
def Scored (criteria : List Criterion) (scores : List Nat) : Prop :=
  List.Forall₂ (fun criterion score => score ≤ criterion.maxScore) criteria scores

/-- The basis points of a review: each weighted criterion, rounded down. -/
def points (criteria : List Criterion) (scores : List Nat) : Nat :=
  flooredSum bpsDenominator Prod.snd (fun p => p.1.maxScore) (fun p => p.1.weightBps)
    (criteria.zip scores)

/-- The weighted sum of a review without any rounding. -/
def exactTotal (criteria : List Criterion) (scores : List Nat) : ℚ :=
  exactSum Prod.snd (fun p => p.1.maxScore) (fun p => p.1.weightBps) (criteria.zip scores)

theorem Scored.within (h : Scored criteria scores) :
    ∀ p ∈ criteria.zip scores, p.2 ≤ p.1.maxScore := fun _ hp =>
  List.forall₂_zip h hp

theorem Scored.weights (h : Scored criteria scores) :
    ((criteria.zip scores).map fun p => p.1.weightBps).sum =
      (criteria.map Criterion.weightBps).sum := by
  have hfst : (criteria.zip scores).map Prod.fst = criteria :=
    List.map_fst_zip (le_of_eq h.length_eq)
  calc ((criteria.zip scores).map fun p => p.1.weightBps).sum
      = (((criteria.zip scores).map Prod.fst).map Criterion.weightBps).sum := by
        rw [List.map_map]
        rfl
    _ = (criteria.map Criterion.weightBps).sum := by rw [hfst]

theorem Scored.scorable (h : ValidRubric criteria) :
    ∀ p ∈ criteria.zip scores, 0 < p.1.maxScore := fun p hp =>
  h.scorable p.1 (List.of_mem_zip (show (p.1, p.2) ∈ _ from hp)).1

/-- The points are at most those of a review with every maximum. -/
theorem points_le (hvalid : ValidRubric criteria) (h : Scored criteria scores) :
    points criteria scores ≤ bpsDenominator * bpsDenominator := by
  have hle : points criteria scores ≤ _ := flooredSum_le_whole h.within
  rwa [h.weights, hvalid.weights] at hle

theorem points_mono {scores' : List Nat} (hmore : List.Forall₂ (· ≤ ·) scores scores') :
    points criteria scores ≤ points criteria scores' := by
  unfold points flooredSum
  induction criteria generalizing scores scores' with
  | nil => exact le_rfl
  | cons criterion criteria ih =>
    cases hmore with
    | nil => exact le_rfl
    | cons hscore hrest =>
      rw [List.zip_cons_cons, List.zip_cons_cons, List.map_cons, List.map_cons, List.sum_cons,
        List.sum_cons]
      exact Nat.add_le_add (flooredShare_mono hscore) (ih hrest)

/-- One turn of the loop of `weightedTotal`. -/
def addScore (acc : Nat) (p : Criterion × Nat) : Outcome Nat := do
  refuseIf (p.1.maxScore < p.2) (.err .invalidScores)
  refuseIf (p.1.maxScore = 0) .overflow
  let normalized := p.2 * bpsDenominator / p.1.maxScore
  let weighted ← orRefuse (fitsU 64 (normalized * p.1.weightBps)) (.err .arithmeticOverflow)
  orRefuse (fitsU 64 (acc + weighted)) (.err .arithmeticOverflow)

theorem weightedTotal_loop : weightedTotal rubric scores = (do
    refuseIf (scores.length ≠ rubric.criteria.length) (.err .invalidScores)
    let acc ← (rubric.criteria.zip scores).foldlM addScore 0
    pure (acc / bpsDenominator % 2^32)) := rfl

/-- The loop adds up the points of scores that are within the maxima. -/
theorem foldlM_addScore {pairs : List (Criterion × Nat)} {start : Nat}
    (hwithin : ∀ p ∈ pairs, p.2 ≤ p.1.maxScore) (hpos : ∀ p ∈ pairs, 0 < p.1.maxScore)
    (hfits : start + flooredSum bpsDenominator Prod.snd (fun p => p.1.maxScore)
      (fun p => p.1.weightBps) pairs < 2^64) :
    pairs.foldlM addScore start = .ok (start + flooredSum bpsDenominator Prod.snd
      (fun p => p.1.maxScore) (fun p => p.1.weightBps) pairs) := by
  induction pairs generalizing start with
  | nil => rfl
  | cons p pairs ih =>
    have hsum : flooredSum bpsDenominator Prod.snd (fun p => p.1.maxScore)
        (fun p => p.1.weightBps) (p :: pairs) =
        p.2 * bpsDenominator / p.1.maxScore * p.1.weightBps +
          flooredSum bpsDenominator Prod.snd (fun p => p.1.maxScore) (fun p => p.1.weightBps)
            pairs := by
      rw [flooredSum, List.map_cons, List.sum_cons]
      rfl
    rw [hsum, ← Nat.add_assoc] at hfits
    have hrest := ih (fun q hq => hwithin q (List.mem_cons_of_mem p hq))
      (fun q hq => hpos q (List.mem_cons_of_mem p hq)) hfits
    rw [List.foldlM_cons, bind_eq_ok]
    refine ⟨start + p.2 * bpsDenominator / p.1.maxScore * p.1.weightBps, ?_, ?_⟩
    · simp only [addScore, bind_eq_ok, exists_unit, refuseIf_eq_ok, orRefuse_eq_ok, fitsU_eq_some,
        not_lt]
      exact ⟨hwithin p List.mem_cons_self, (hpos p List.mem_cons_self).ne', _, ⟨by omega, rfl⟩,
        by omega, rfl⟩
    · rw [hsum, ← Nat.add_assoc]
      exact hrest

/-- The loop refuses a score above its maximum. -/
theorem foldlM_addScore_within {pairs : List (Criterion × Nat)} {start acc : Nat}
    (h : pairs.foldlM addScore start = .ok acc) : ∀ p ∈ pairs, p.2 ≤ p.1.maxScore := by
  induction pairs generalizing start with
  | nil => exact fun p hp => absurd hp List.not_mem_nil
  | cons p pairs ih =>
    simp only [List.foldlM_cons, addScore, bind_eq_ok, exists_unit, refuseIf_eq_ok, not_lt] at h
    obtain ⟨next, ⟨hwithin, _⟩, hrest⟩ := h
    exact List.forall_mem_cons.mpr ⟨hwithin, ih hrest⟩

/-- The total is made of the points of a review that is within the maxima. -/
theorem weightedTotal_eq (hvalid : ValidRubric rubric.criteria)
    (h : Scored rubric.criteria scores) :
    weightedTotal rubric scores = .ok (points rubric.criteria scores / bpsDenominator) := by
  have hle : points rubric.criteria scores ≤ 10000 * 10000 := points_le hvalid h
  have hfold := @foldlM_addScore (rubric.criteria.zip scores) 0 h.within (Scored.scorable hvalid) (by
    rw [Nat.zero_add]
    exact lt_of_le_of_lt hle (by decide))
  have hsmall : points rubric.criteria scores / bpsDenominator < 2^32 := by
    unfold bpsDenominator
    omega
  simp only [weightedTotal_loop, bind_eq_ok, exists_unit, refuseIf_eq_ok, not_not, pure_eq_ok]
  refine ⟨h.length_eq.symm, _, hfold, ?_⟩
  rw [Nat.zero_add]
  exact Nat.mod_eq_of_lt hsmall

theorem weightedTotal_scored {total : Nat} (h : weightedTotal rubric scores = .ok total) :
    Scored rubric.criteria scores := by
  simp only [weightedTotal_loop, bind_eq_ok, exists_unit, refuseIf_eq_ok, not_not] at h
  obtain ⟨hlength, acc, hfold, _⟩ := h
  exact List.forall₂_iff_zip.mpr ⟨hlength.symm, fun hp => foldlM_addScore_within hfold _ hp⟩

/-- The total of a review that is within the maxima of a published rubric: in basis points, never
above the exact weighted sum and less than two below it, monotone in every score, and full exactly
when every criterion that counts is. -/
theorem weightedTotal_accurate (hvalid : ValidRubric rubric.criteria)
    (h : Scored rubric.criteria scores) :
    ∃ total, weightedTotal rubric scores = .ok total ∧ total ≤ bpsDenominator ∧
      (total : ℚ) ≤ exactTotal rubric.criteria scores ∧
      exactTotal rubric.criteria scores < total + 2 ∧
      (∀ scores' total', List.Forall₂ (· ≤ ·) scores scores' →
        weightedTotal rubric scores' = .ok total' → total ≤ total') ∧
      (total = bpsDenominator ↔
        ∀ p ∈ rubric.criteria.zip scores, 0 < p.1.weightBps → p.2 = p.1.maxScore) := by
  have hle := points_le hvalid h
  have hweights := h.weights.trans hvalid.weights
  obtain ⟨hbelow, habove⟩ := @flooredSum_div_bounds _ bpsDenominator Prod.snd
    (fun p => p.1.maxScore) (fun p => p.1.weightBps) (rubric.criteria.zip scores) (by decide)
    hweights (Scored.scorable hvalid)
  refine ⟨_, weightedTotal_eq hvalid h, Nat.div_le_of_le_mul hle, hbelow, habove, ?_, ?_⟩
  · intro scores' total' hmore htotal'
    rw [weightedTotal_eq hvalid (weightedTotal_scored htotal'), Except.ok.injEq] at htotal'
    rw [← htotal']
    exact Nat.div_le_div_right (points_mono hmore)
  · have hfull := @flooredSum_eq_whole_iff _ bpsDenominator Prod.snd (fun p => p.1.maxScore)
      (fun p => p.1.weightBps) (rubric.criteria.zip scores) (by decide) (Scored.scorable hvalid)
      h.within
    rw [hweights] at hfull
    rw [← hfull]
    change points rubric.criteria scores / bpsDenominator = bpsDenominator ↔
      points rubric.criteria scores = bpsDenominator * bpsDenominator
    unfold bpsDenominator at hle ⊢
    omega

end Totals

section Aggregates

/-- The stored reviews by some reviewers of an application. -/
def State.reviewsBy (s : State) (key : Application) (reviewers : List Address) : List Review :=
  reviewers.filterMap fun reviewer => s.review (key, reviewer)

/-- The reviews of an application, in the order in which they were submitted. -/
def State.reviewsOf (s : State) (key : Application) : List Review :=
  s.reviewsBy key (s.reviewers key)

/-- The mean of the exact totals of reviews that are scored against one rubric. -/
def exactMean (rubric : Rubric) (reviews : List Review) : ℚ :=
  (reviews.map fun review => exactTotal rubric.criteria review.scores).sum / reviews.length

/-- The total of a review that is within the maxima. -/
def totalOf (rubric : Rubric) (review : Review) : Nat :=
  points rubric.criteria review.scores / bpsDenominator

theorem totalOf_le {review : Review} (hvalid : ValidRubric rubric.criteria)
    (h : Scored rubric.criteria review.scores) : totalOf rubric review ≤ bpsDenominator :=
  Nat.div_le_of_le_mul (points_le hvalid h)

theorem totalOf_bounds {review : Review} (hvalid : ValidRubric rubric.criteria)
    (h : Scored rubric.criteria review.scores) :
    (totalOf rubric review : ℚ) ≤ exactTotal rubric.criteria review.scores ∧
      exactTotal rubric.criteria review.scores < totalOf rubric review + 2 :=
  flooredSum_div_bounds (by decide) (h.weights.trans hvalid.weights) (Scored.scorable hvalid)

/-- The loop goes over the reviews of the reviewers, one for each. -/
theorem foldlM_addTotal {version start sum : Nat} {reviewers : List Address}
    (hvalid : ValidRubric rubric.criteria)
    (h : reviewers.foldlM (addTotal s key version rubric) start = .ok sum) :
    (s.reviewsBy key reviewers).length = reviewers.length ∧
      (∀ review ∈ s.reviewsBy key reviewers,
        review.rubricVersion = version ∧ Scored rubric.criteria review.scores) ∧
      sum = start + ((s.reviewsBy key reviewers).map (totalOf rubric)).sum := by
  induction reviewers generalizing start with
  | nil =>
    rw [List.foldlM_nil, pure_eq_ok] at h
    exact ⟨rfl, fun _ hmem => absurd hmem List.not_mem_nil, h.symm⟩
  | cons reviewer reviewers ih =>
    simp only [List.foldlM_cons, bind_eq_ok, addTotal_eq_ok] at h
    obtain ⟨next, ⟨review, total, hreview, hversion, htotal, _, rfl⟩, hrest⟩ := h
    obtain ⟨hlength, hall, hsum⟩ := ih hrest
    have hscored := weightedTotal_scored htotal
    rw [weightedTotal_eq hvalid hscored, Except.ok.injEq] at htotal
    have hcons : s.reviewsBy key (reviewer :: reviewers) = review :: s.reviewsBy key reviewers :=
      List.filterMap_cons_some (f := fun reviewer => s.review (key, reviewer)) hreview
    rw [hcons]
    refine ⟨by rw [List.length_cons, List.length_cons, hlength],
      List.forall_mem_cons.mpr ⟨⟨hversion, hscored⟩, hall⟩, ?_⟩
    rw [hsum, List.map_cons, List.sum_cons, totalOf, htotal, Nat.add_assoc]

theorem sumOfTotals_eq {version sum : Nat} {reviewers : List Address}
    (hvalid : ValidRubric rubric.criteria)
    (h : sumOfTotals s key version rubric reviewers = .ok sum) :
    (s.reviewsBy key reviewers).length = reviewers.length ∧
      (∀ review ∈ s.reviewsBy key reviewers,
        review.rubricVersion = version ∧ Scored rubric.criteria review.scores) ∧
      sum = ((s.reviewsBy key reviewers).map (totalOf rubric)).sum := by
  obtain ⟨hlength, hall, hsum⟩ := foldlM_addTotal hvalid (sumOfTotals_loop.symm.trans h)
  exact ⟨hlength, hall, by rw [hsum, Nat.zero_add]⟩

/-- An aggregate is in basis points, never above the mean of the exact totals and less than three
below it. -/
theorem aggregateScore_accurate (hrubrics : ValidRubrics s) {score : Nat}
    (h : aggregateScore s key.1 key.2 = .ok score) :
    (s.reviewsOf key).length = (s.reviewers key).length ∧
      ∃ rubric, (∀ review ∈ s.reviewsOf key,
        s.rubric (key.1, review.rubricVersion) = some rubric ∧
          Scored rubric.criteria review.scores) ∧
      score ≤ bpsDenominator ∧ (score : ℚ) ≤ exactMean rubric (s.reviewsOf key) ∧
      exactMean rubric (s.reviewsOf key) < score + 3 := by
  simp only [aggregateScore, bind_eq_ok, exists_unit, orRefuse_eq_ok, refuseIf_eq_ok, pure_eq_ok]
    at h
  obtain ⟨config, _, _, first, hfirst, firstReview, _, rubric, hrubric, sum, hsum, hscore⟩ := h
  have hvalid := hrubrics _ rubric hrubric
  obtain ⟨hlength, hall, hsum⟩ := sumOfTotals_eq hvalid hsum
  change (s.reviewsOf key).length = (s.reviewers key).length at hlength
  change ∀ review ∈ s.reviewsOf key, _ at hall
  change sum = ((s.reviewsOf key).map (totalOf rubric)).sum at hsum
  change sum / (s.reviewers key).length % 2^32 = score at hscore
  rw [← hlength, hsum] at hscore
  have hsome : s.reviewsOf key ≠ [] := by
    have hfirst' : (s.reviewers key).head? = some first := hfirst
    intro hnil
    rw [hnil, List.length_nil, eq_comm, List.length_eq_zero_iff] at hlength
    rw [hlength] at hfirst'
    cases hfirst'
  have hmean : ((s.reviewsOf key).map (totalOf rubric)).sum / (s.reviewsOf key).length ≤
      bpsDenominator := by
    apply Nat.div_le_of_le_mul
    have hle := List.sum_le_card_nsmul ((s.reviewsOf key).map (totalOf rubric)) bpsDenominator
      (List.forall_mem_map.mpr fun review hmem => totalOf_le hvalid (hall review hmem).2)
    rwa [List.length_map, nsmul_eq_mul, Nat.cast_id] at hle
  have hexact : ((s.reviewsOf key).map (totalOf rubric)).sum / (s.reviewsOf key).length = score := by
    rw [← hscore]
    exact (Nat.mod_eq_of_lt (lt_of_le_of_lt hmean (by decide))).symm
  obtain ⟨hbelow, habove⟩ := mean_bounds hsome
    (fun review hmem => (totalOf_bounds hvalid (hall review hmem).2).1)
    (fun review hmem => (totalOf_bounds hvalid (hall review hmem).2).2)
  rw [hexact] at hmean hbelow habove
  refine ⟨hlength, rubric, fun review hmem => ⟨?_, (hall review hmem).2⟩, hmean, hbelow, ?_⟩
  · rw [(hall review hmem).1]
    exact hrubric
  · exact habove.trans_eq (by ring)

/-- Every published rubric scores the reviews within its maxima accurately, and every application
with enough reviews, all against one rubric, has an accurate aggregate. -/
theorem run_accurate (is : List (Input contract)) :
    let s := (machine contract).run State.empty is
    (∀ (env : Env contract) admin programId expectedVersion criteria version s',
      publishRubric env s admin programId expectedVersion criteria = .ok (version, s') →
      ∃ rubric, s'.rubric (programId, version) = some rubric ∧ rubric.criteria = criteria ∧
        ∀ scores, Scored criteria scores →
          ∃ total, weightedTotal rubric scores = .ok total ∧ total ≤ bpsDenominator ∧
            (total : ℚ) ≤ exactTotal criteria scores ∧ exactTotal criteria scores < total + 2 ∧
            (∀ scores' total', List.Forall₂ (· ≤ ·) scores scores' →
              weightedTotal rubric scores' = .ok total' → total ≤ total') ∧
            (total = bpsDenominator ↔
              ∀ p ∈ criteria.zip scores, 0 < p.1.weightBps → p.2 = p.1.maxScore)) ∧
      ∀ key, FullyReviewed s key → Uniform (s.versions key) →
        (s.reviewsOf key).length = (s.reviewers key).length ∧
        ∃ rubric score, (∀ review ∈ s.reviewsOf key,
            s.rubric (key.1, review.rubricVersion) = some rubric ∧
              Scored rubric.criteria review.scores) ∧
          aggregateScore s key.1 key.2 = .ok score ∧ score ≤ bpsDenominator ∧
          (score : ℚ) ≤ exactMean rubric (s.reviewsOf key) ∧
          exactMean rubric (s.reviewsOf key) < score + 3 := by
  intro s
  have hs : Books s := run_books is
  constructor
  · intro env admin programId expectedVersion criteria version s' h
    obtain ⟨rubric, rfl, rfl, rfl, _, hvalid⟩ := publishRubric_ok h
    refine ⟨rubric, Function.update_self _ _ _, rfl, fun scores hscored => ?_⟩
    exact weightedTotal_accurate (validateRubric_valid hvalid) hscored
  · intro key hfull huniform
    obtain ⟨score, hscore⟩ := (aggregate_defined hs hfull).mpr huniform
    obtain ⟨hlength, rubric, hall, haccurate⟩ :=
      aggregateScore_accurate (run_validRubrics is) hscore
    exact ⟨hlength, rubric, score, hall, hscore, haccurate⟩

end Aggregates

end ChainVerse.ScholarshipReviews
