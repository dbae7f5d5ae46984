import ChainVerse.Framework.Tables
import ChainVerse.Reviews.Contract

namespace ChainVerse.ScholarshipReviews

section Steps

variable {contract : Address} {env : Env contract} {s s' : State} {call : Call} {key : Application}

/-- An accepted call of a run, with the stores around it. -/
abbrev Step (contract : Address) := Entry State (Input contract) Answer

/-- The application that a call reviews. -/
def Call.reviews : Call → Option Application
  | .submitReview _ programId applicant _ => some (programId, applicant)
  | _ => none

def Call.publishes : Call → Bool
  | .publishRubric .. => true
  | _ => false

/-- What is found before a review is recorded. -/
structure Reviewable (s : State) (key : Application) (config : ProgramConfig) (rubric : Rubric)
    (review : Review) : Prop where
  configured : s.programConfig key.1 = some config
  room : (s.reviewers key).length < config.maxReviews
  latest : ∃ version, s.rubricVersion key.1 = some version ∧ s.rubric (key.1, version) = some rubric
  version : review.rubricVersion = rubric.version
  fresh : s.review (key, review.reviewer) = none
  scored : ∃ total, weightedTotal rubric review.scores = .ok total

/-- Everything that an accepted call can have done. -/
inductive Effect (s : State) : Call → State → Prop where
  | quiet {call : Call} {s' : State} (unreviewed : call.reviews = none)
      (unpublished : call.publishes = false) (programs : s'.programConfig = s.programConfig)
      (versions : s'.rubricVersion = s.rubricVersion) (rubrics : s'.rubric = s.rubric)
      (reviews : s'.review = s.review) (reviewers : s'.reviewers = s.reviewers) : Effect s call s'
  | configured {call : Call} {programId : Bytes32} {config : ProgramConfig}
      (unreviewed : call.reviews = none) (unpublished : call.publishes = false)
      (valid : 1 ≤ config.minReviews ∧ config.maxReviews ≤ maxReviewers ∨
        ∃ old, s.programConfig programId = some old ∧ config.minReviews = old.minReviews ∧
          config.maxReviews = old.maxReviews) :
      Effect s call (saveProgramConfig s programId config)
  | published {call : Call} {programId : Bytes32} {rubric : Rubric} (unreviewed : call.reviews = none)
      (next : rubric.version = (s.rubricVersion programId).getD 0 + 1)
      (valid : validateRubric rubric.criteria = .ok ()) : Effect s call (saveRubric s programId rubric)
  | reviewed {call : Call} {key : Application} {config : ProgramConfig} {rubric : Rubric}
      {review : Review} (reviews : call.reviews = some key) (unpublished : call.publishes = false)
      (reviewable : Reviewable s key config rubric review) : Effect s call (saveReview s key review)

theorem publishRubric_ok {admin : Address} {programId : Bytes32} {expectedVersion version : Nat}
    {criteria : List Criterion}
    (h : publishRubric env s admin programId expectedVersion criteria = .ok (version, s')) :
    ∃ rubric, s' = saveRubric s programId rubric ∧ rubric.version = version ∧
      rubric.criteria = criteria ∧ version = (s.rubricVersion programId).getD 0 + 1 ∧
      validateRubric criteria = .ok () := by
  simp only [publishRubric, bind_eq_ok, exists_unit, orRefuse_eq_ok, refuseIf_eq_ok, fitsU_eq_some,
    pure_eq_ok, Prod.mk.injEq] at h
  obtain ⟨_, _, hvalid, _, _, ⟨_, rfl⟩, rfl, rfl⟩ := h
  exact ⟨_, rfl, rfl, rfl, rfl, hvalid⟩

theorem submitReview_ok {reviewer applicant : Address} {programId : Bytes32} {scores : List Nat}
    {total : Nat} (h : submitReview env s reviewer programId applicant scores = .ok (total, s')) :
    ∃ config rubric review, s' = saveReview s (programId, applicant) review ∧
      Reviewable s (programId, applicant) config rubric review := by
  simp only [submitReview, latestRubric, bind_eq_ok, exists_unit, orRefuse_eq_ok, refuseIf_eq_ok,
    pure_eq_ok, Prod.mk.injEq, not_not, not_le] at h
  obtain ⟨_, config, hconfig, _, rubric, ⟨version, hversion, hrubric⟩, hfresh, hroom, total, hscored,
    _, rfl⟩ := h
  refine ⟨config, rubric, _, rfl, ?_⟩
  exact ⟨hconfig, hroom, ⟨version, hversion, hrubric⟩, rfl, hfresh, total, hscored⟩

/-- Every accepted call does one of the effects. -/
theorem step_effect {i : Input contract} {o : Answer} (h : (machine contract).step s i = .ok (o, s')) :
    Effect s i.call s' := by
  obtain ⟨env, call⟩ := i
  simp only [machine] at h
  cases call with
  | initializeContract =>
    simp only [execute, initializeContract, map_eq_ok, bind_eq_ok, exists_unit, pure_eq_ok,
      Prod.mk.injEq] at h
    obtain ⟨_, ⟨_, _, rfl⟩, _, rfl⟩ := h
    exact .quiet rfl rfl rfl rfl rfl rfl rfl
  | registerProgram =>
    simp only [execute, registerProgram, map_eq_ok, bind_eq_ok, exists_unit, refuseIf_eq_ok,
      pure_eq_ok, Prod.mk.injEq, not_or, not_lt] at h
    obtain ⟨_, ⟨_, ⟨hmin, _, hmax⟩, _, rfl⟩, _, rfl⟩ := h
    exact .configured rfl rfl (.inl ⟨Nat.one_le_iff_ne_zero.mpr hmin, hmax⟩)
  | setProgramActive =>
    simp only [execute, setProgramActive, map_eq_ok, bind_eq_ok, exists_unit, orRefuse_eq_ok,
      pure_eq_ok] at h
    obtain ⟨_, ⟨_, config, hfound, _, _, _, rfl⟩, heq⟩ := h
    cases heq
    refine .configured rfl rfl (.inr ⟨config, hfound, ?_, ?_⟩)
    · rfl
    · rfl
  | publishRubric =>
    simp only [execute, map_eq_ok] at h
    obtain ⟨⟨version, t⟩, hpublish, heq⟩ := h
    cases heq
    obtain ⟨rubric, rfl, rfl, rfl, hnext, hvalid⟩ := publishRubric_ok hpublish
    exact .published rfl hnext hvalid
  | submitReview =>
    simp only [execute, map_eq_ok] at h
    obtain ⟨⟨total, t⟩, hsubmit, heq⟩ := h
    cases heq
    obtain ⟨config, rubric, review, rfl, hreviewable⟩ := submitReview_ok hsubmit
    exact .reviewed rfl rfl hreviewable

section Books

/-- The books of the reviews: every rubric under its version, and every review scored against one. -/
structure Books (s : State) : Prop where
  configs : ∀ programId config, s.programConfig programId = some config →
    1 ≤ config.minReviews ∧ config.maxReviews ≤ maxReviewers
  rubrics : ∀ slot rubric, s.rubric slot = some rubric →
    rubric.version = slot.2 ∧ slot.2 ≤ (s.rubricVersion slot.1).getD 0
  reviewed : ∀ key, ∀ reviewer ∈ s.reviewers key, ∃ review rubric total,
    s.review (key, reviewer) = some review ∧ s.rubric (key.1, review.rubricVersion) = some rubric ∧
      weightedTotal rubric review.scores = .ok total
  bounded : ∀ key, (s.reviewers key).length ≤ maxReviewers

theorem books_empty : Books State.empty where
  configs _ _ h := nomatch h
  rubrics _ _ h := nomatch h
  reviewed _ _ h := nomatch h
  bounded _ := Nat.zero_le _

theorem Books.configure (hs : Books s) {programId : Bytes32} {config : ProgramConfig}
    (hvalid : 1 ≤ config.minReviews ∧ config.maxReviews ≤ maxReviewers ∨
      ∃ old, s.programConfig programId = some old ∧ config.minReviews = old.minReviews ∧
        config.maxReviews = old.maxReviews) : Books (saveProgramConfig s programId config) where
  configs := by
    refine forall_update_row hs.configs rfl ?_
    rcases hvalid with hnew | ⟨old, hstored, hmin, hmax⟩
    · exact hnew
    · rw [hmin, hmax]
      exact hs.configs programId old hstored
  rubrics := hs.rubrics
  reviewed := hs.reviewed
  bounded := hs.bounded

/-- A rubric is published where none stood, so that every rubric stays. -/
theorem Books.unpublished (hs : Books s) {programId : Bytes32} {version : Nat}
    (hnext : version = (s.rubricVersion programId).getD 0 + 1) : s.rubric (programId, version) = none := by
  rcases hrow : s.rubric (programId, version) with _ | rubric
  · rfl
  · have hle : version ≤ (s.rubricVersion programId).getD 0 := (hs.rubrics _ rubric hrow).2
    omega

theorem Books.publish (hs : Books s) {programId : Bytes32} {rubric : Rubric}
    (hnext : rubric.version = (s.rubricVersion programId).getD 0 + 1) :
    Books (saveRubric s programId rubric) where
  configs := hs.configs
  rubrics := by
    intro slot row hrow
    have hversions : ((saveRubric s programId rubric).rubricVersion slot.1).getD 0 =
        if slot.1 = programId then rubric.version else (s.rubricVersion slot.1).getD 0 := by
      simp only [saveRubric, Function.update_apply]
      split_ifs
      · rfl
      · rfl
    rw [hversions]
    rcases update_row_cases hrow with ⟨rfl, rfl⟩ | ⟨_, hold⟩
    · rw [if_pos rfl]
      exact ⟨rfl, Nat.le_refl _⟩
    · obtain ⟨hversion, hle⟩ := hs.rubrics slot row hold
      refine ⟨hversion, ?_⟩
      split_ifs with hsame
      · rw [hsame] at hle
        omega
      · exact hle
  reviewed := by
    intro key reviewer hmem
    obtain ⟨review, scored, total, hreview, hrubric, htotal⟩ := hs.reviewed key reviewer hmem
    exact ⟨review, scored, total, hreview, update_keeps_row (hs.unpublished hnext) hrubric, htotal⟩
  bounded := hs.bounded

theorem Books.review (hs : Books s) {config : ProgramConfig} {rubric : Rubric} {review : Review}
    (h : Reviewable s key config rubric review) : Books (saveReview s key review) where
  configs := hs.configs
  rubrics := hs.rubrics
  reviewed := by
    intro other reviewer hmem
    have hold : reviewer ∈ s.reviewers other → ∃ review' rubric' total,
        (saveReview s key review).review (other, reviewer) = some review' ∧
          s.rubric (other.1, review'.rubricVersion) = some rubric' ∧
          weightedTotal rubric' review'.scores = .ok total := by
      intro hmem
      obtain ⟨review', rubric', total, hreview, hrubric, htotal⟩ := hs.reviewed other reviewer hmem
      exact ⟨review', rubric', total, update_keeps_row h.fresh hreview, hrubric, htotal⟩
    by_cases hsame : other = key
    · subst hsame
      have hlist : (saveReview s other review).reviewers other = s.reviewers other ++ [review.reviewer] :=
        Function.update_self _ _ _
      rw [hlist] at hmem
      rcases List.mem_append.mp hmem with hmem | hmem
      · exact hold hmem
      · obtain rfl := List.mem_singleton.mp hmem
        obtain ⟨version, _, hrubric⟩ := h.latest
        obtain ⟨total, htotal⟩ := h.scored
        refine ⟨review, rubric, total, Function.update_self _ _ _, ?_, htotal⟩
        rw [h.version, (hs.rubrics _ rubric hrubric).1]
        exact hrubric
    · have hlist : (saveReview s key review).reviewers other = s.reviewers other :=
        Function.update_of_ne hsame _ _
      rw [hlist] at hmem
      exact hold hmem
  bounded := by
    intro other
    by_cases hsame : other = key
    · have hlist : (saveReview s key review).reviewers other = s.reviewers key ++ [review.reviewer] := by
        rw [hsame]
        exact Function.update_self _ _ _
      have hroom := h.room
      have hmax := (hs.configs key.1 config h.configured).2
      rw [hlist, List.length_append, List.length_singleton]
      omega
    · have hlist : (saveReview s key review).reviewers other = s.reviewers other :=
        Function.update_of_ne hsame _ _
      rw [hlist]
      exact hs.bounded other

theorem Effect.books (h : Effect s call s') (hs : Books s) : Books s' := by
  cases h with
  | quiet _ _ hprograms hversions hrubrics hreviews hreviewers =>
    obtain ⟨hconfigs, hslots, hreviewed, hbounded⟩ := hs
    refine ⟨?_, ?_, ?_, ?_⟩
    · rwa [hprograms]
    · rwa [hrubrics, hversions]
    · rwa [hreviewers, hreviews, hrubrics]
    · rwa [hreviewers]
  | configured _ _ hvalid => exact hs.configure hvalid
  | published _ hnext => exact hs.publish hnext
  | reviewed _ _ hreviewable => exact hs.review hreviewable

theorem run_books (is : List (Input contract)) : Books ((machine contract).run State.empty is) :=
  Machine.run_invariant books_empty (fun _ _ _ _ hs h => (step_effect h).books hs) is

end Books

end Steps

variable {contract : Address} {s s' : State} {call : Call} {key : Application} {config : ProgramConfig}

section Versions

/-- The rubric versions of an application's reviews, in the order of the reviews. -/
def State.versions (s : State) (key : Application) : List (Option Nat) :=
  (s.reviewers key).map fun reviewer => (s.review (key, reviewer)).map Review.rubricVersion

/-- The reviews of an application are scored against one rubric. -/
def Uniform (versions : List (Option Nat)) : Prop := ∀ first ∈ versions.head?, ∀ v ∈ versions, v = first

theorem Uniform.of_append {versions later : List (Option Nat)} (h : Uniform (versions ++ later)) :
    Uniform versions := by
  cases versions with
  | nil =>
    intro first hfirst
    cases hfirst
  | cons v rest =>
    intro first hfirst w hw
    exact h first hfirst w (List.mem_append_left _ hw)

/-- One more review is scored against the same rubric when it is against that of the first one. -/
theorem uniform_snoc {versions : List (Option Nat)} {v : Option Nat} :
    Uniform (versions ++ [v]) ↔ Uniform versions ∧ ∀ first ∈ versions.head?, v = first := by
  cases versions with
  | nil =>
    constructor
    · intro h
      constructor
      · intro first hfirst
        cases hfirst
      · intro first hfirst
        cases hfirst
    · intro _ first hfirst w hw
      cases hfirst
      exact List.mem_singleton.mp hw
  | cons u rest =>
    constructor
    · intro h
      refine ⟨h.of_append, fun first hfirst => ?_⟩
      exact h first hfirst v List.mem_concat_self
    · rintro ⟨hold, hnew⟩ first hfirst w hw
      rcases List.mem_append.mp hw with hw | hw
      · exact hold first hfirst w hw
      · rw [List.mem_singleton.mp hw]
        exact hnew first hfirst

/-- A review adds its version to those of its application, and leaves the others. -/
theorem versions_reviewed {rubric : Rubric} {review : Review}
    (hs : Books s) (h : Reviewable s key config rubric review) (other : Application) :
    (saveReview s key review).versions other =
      if other = key then s.versions other ++ [s.rubricVersion key.1] else s.versions other := by
  obtain ⟨version, hversion, hrubric⟩ := h.latest
  have hold : ∀ reviewer ∈ s.reviewers other,
      ((saveReview s key review).review (other, reviewer)).map Review.rubricVersion =
        (s.review (other, reviewer)).map Review.rubricVersion := by
    intro reviewer hmem
    obtain ⟨stored, _, _, hstored, _, _⟩ := hs.reviewed other reviewer hmem
    have hkept : (saveReview s key review).review (other, reviewer) = some stored :=
      update_keeps_row h.fresh hstored
    rw [hkept, hstored]
  by_cases hsame : other = key
  · subst hsame
    have hlist : (saveReview s other review).reviewers other = s.reviewers other ++ [review.reviewer] :=
      Function.update_self _ _ _
    have hnew : (saveReview s other review).review (other, review.reviewer) = some review :=
      Function.update_self _ _ _
    rw [if_pos rfl, State.versions, hlist, List.map_append, List.map_singleton, hnew, Option.map_some,
      h.version, (hs.rubrics _ rubric hrubric).1, hversion, List.map_congr_left hold]
    rfl
  · have hlist : (saveReview s key review).reviewers other = s.reviewers other :=
      Function.update_of_ne hsame _ _
    rw [if_neg hsame, State.versions, hlist, List.map_congr_left hold]
    rfl

/-- What an accepted call adds to the versions of an application's reviews. -/
theorem Effect.versions (h : Effect s call s') (hs : Books s) (key : Application) :
    s'.versions key =
      if call.reviews = some key then s.versions key ++ [s.rubricVersion key.1] else s.versions key := by
  cases h with
  | quiet hunreviewed _ _ _ _ hreviews hreviewers =>
    rw [hunreviewed, if_neg (Option.some_ne_none key).symm, State.versions, hreviews, hreviewers]
    rfl
  | configured hunreviewed =>
    rw [hunreviewed, if_neg (Option.some_ne_none key).symm]
    rfl
  | published hunreviewed =>
    rw [hunreviewed, if_neg (Option.some_ne_none key).symm]
    rfl
  | @reviewed reviewed config rubric review hreviews _ hreviewable =>
    rw [hreviews, versions_reviewed hs hreviewable]
    by_cases hsame : key = reviewed
    · rw [if_pos hsame, if_pos (congrArg some hsame.symm), hsame]
    · rw [if_neg hsame, if_neg fun heq => hsame (Option.some.inj heq).symm]

end Versions

section Scores

/-- The least number of reviews that a program asks for has been recorded. -/
def FullyReviewed (s : State) (key : Application) : Prop :=
  ∃ config, s.programConfig key.1 = some config ∧ config.minReviews ≤ (s.reviewers key).length

theorem weightedTotal_lt {rubric : Rubric} {scores : List Nat} {total : Nat}
    (h : weightedTotal rubric scores = .ok total) : total < 2^32 := by
  simp only [weightedTotal, bind_eq_ok, pure_eq_ok] at h
  obtain ⟨_, _, acc, _, rfl⟩ := h
  exact Nat.mod_lt _ (by decide)

/-- One turn of the loop of `sumOfTotals`. -/
def addTotal (s : State) (key : Application) (version : Nat) (rubric : Rubric) (sum : Nat)
    (reviewer : Address) : Outcome Nat := do
  let review ← orRefuse (s.review (key, reviewer)) (.err .reviewNotFound)
  refuseIf (review.rubricVersion ≠ version) (.err .mixedRubricVersions)
  let total ← weightedTotal rubric review.scores
  orRefuse (fitsU 64 (sum + total)) (.err .arithmeticOverflow)

section Turns

variable {version sum next : Nat} {rubric : Rubric} {reviewer : Address} {reviewers : List Address}

theorem sumOfTotals_loop : sumOfTotals s key version rubric reviewers =
    reviewers.foldlM (addTotal s key version rubric) 0 := rfl

theorem addTotal_eq_ok : addTotal s key version rubric sum reviewer = .ok next ↔
    ∃ review total, s.review (key, reviewer) = some review ∧ review.rubricVersion = version ∧
      weightedTotal rubric review.scores = .ok total ∧ sum + total < 2^64 ∧ sum + total = next := by
  simp only [addTotal, bind_eq_ok, exists_unit, orRefuse_eq_ok, refuseIf_eq_ok, fitsU_eq_some, not_not]
  constructor
  · rintro ⟨review, hreview, hversion, total, htotal, hnext⟩
    exact ⟨review, total, hreview, hversion, htotal, hnext⟩
  · rintro ⟨review, total, hreview, hversion, htotal, hnext⟩
    exact ⟨review, hreview, hversion, total, htotal, hnext⟩

/-- The sum so far is below `bound` times 2^32, for as many reviews as have been added. -/
theorem exists_foldlM_addTotal {bound : Nat}
    (hreviews : ∀ reviewer ∈ reviewers, ∃ review total, s.review (key, reviewer) = some review ∧
      review.rubricVersion = version ∧ weightedTotal rubric review.scores = .ok total)
    (hsum : sum ≤ bound * 2^32) (hfew : bound + reviewers.length ≤ maxReviewers) :
    ∃ result, reviewers.foldlM (addTotal s key version rubric) sum = .ok result := by
  induction reviewers generalizing sum bound with
  | nil => exact ⟨sum, rfl⟩
  | cons reviewer rest ih =>
    obtain ⟨review, total, hreview, hversion, htotal⟩ := hreviews reviewer List.mem_cons_self
    have hlt := weightedTotal_lt htotal
    rw [List.length_cons, maxReviewers] at hfew
    have hfits : sum + total < 2^64 := by omega
    obtain ⟨result, hresult⟩ := @ih (sum + total) (bound + 1)
      (fun r hr => hreviews r (List.mem_cons_of_mem _ hr)) (by omega) (by rw [maxReviewers]; omega)
    refine ⟨result, ?_⟩
    rw [List.foldlM_cons, bind_eq_ok]
    exact ⟨sum + total, addTotal_eq_ok.mpr ⟨review, total, hreview, hversion, htotal, hfits, rfl⟩,
      hresult⟩

end Turns

/-- The totals of reviews scored against one rubric can be added up. -/
theorem exists_sum {version : Nat} {rubric : Rubric} {reviewers : List Address}
    (hreviews : ∀ reviewer ∈ reviewers, ∃ review total, s.review (key, reviewer) = some review ∧
      review.rubricVersion = version ∧ weightedTotal rubric review.scores = .ok total)
    (hfew : reviewers.length ≤ maxReviewers) :
    ∃ sum, sumOfTotals s key version rubric reviewers = .ok sum := by
  rw [sumOfTotals_loop]
  exact exists_foldlM_addTotal hreviews (Nat.zero_le (0 * 2^32)) (by omega)

/-- Totals that add up are of reviews of the version asked for. -/
theorem sum_versions {version sum : Nat} {rubric : Rubric} {reviewers : List Address}
    (h : sumOfTotals s key version rubric reviewers = .ok sum) :
    ∀ reviewer ∈ reviewers, (s.review (key, reviewer)).map Review.rubricVersion = some version := by
  rw [sumOfTotals_loop] at h
  generalize 0 = start at h
  induction reviewers generalizing start with
  | nil =>
    intro reviewer hmem
    cases hmem
  | cons first rest ih =>
    simp only [List.foldlM_cons, bind_eq_ok, addTotal_eq_ok] at h
    obtain ⟨next, ⟨review, _, hreview, hversion, _⟩, hrest⟩ := h
    intro reviewer hmem
    rcases List.mem_cons.mp hmem with rfl | hmem
    · rw [hreview, Option.map_some, hversion]
    · exact ih next hrest reviewer hmem

/-- A fully reviewed application has an aggregate just when its reviews are scored against one rubric. -/
theorem aggregate_defined (hs : Books s) (hfull : FullyReviewed s key) :
    (∃ score, aggregateScore s key.1 key.2 = .ok score) ↔ Uniform (s.versions key) := by
  obtain ⟨config, hconfig, henough⟩ := hfull
  have hmin := (hs.configs key.1 config hconfig).1
  rcases hreviewers : s.reviewers key with _ | ⟨first, rest⟩
  · rw [hreviewers, List.length_nil] at henough
    omega
  obtain ⟨review, rubric, total, hreview, hrubric, htotal⟩ :=
    hs.reviewed key first (by rw [hreviewers]; exact List.mem_cons_self)
  have hhead : (s.versions key).head? = some (some review.rubricVersion) := by
    rw [State.versions, hreviewers, List.map_cons, List.head?_cons, hreview, Option.map_some]
  have hmem : ∀ reviewer ∈ first :: rest, reviewer ∈ s.reviewers key := by
    rw [hreviewers]
    exact fun _ => id
  constructor
  · intro hscore
    obtain ⟨score, hscore⟩ := hscore
    simp only [aggregateScore, bind_eq_ok, exists_unit, orRefuse_eq_ok, pure_eq_ok] at hscore
    obtain ⟨_, _, _, firstReviewer, hfirst, firstReview, hfirstReview, _, _, sum, hsum, _⟩ := hscore
    intro version hversion v hv
    obtain ⟨reviewer, hreviewer, rfl⟩ := List.mem_map.mp hv
    have hsame := sum_versions hsum
    have hown : version = some firstReview.rubricVersion := by
      have hfirst' : (s.reviewers key).head? = some firstReviewer := hfirst
      rw [State.versions, List.head?_map, hfirst'] at hversion
      obtain rfl := Option.some.inj hversion
      exact congrArg (Option.map Review.rubricVersion) hfirstReview
    rw [hown]
    exact hsame reviewer hreviewer
  · intro huniform
    have heach : ∀ reviewer ∈ s.reviewers key, ∃ scored total, s.review (key, reviewer) = some scored ∧
        scored.rubricVersion = review.rubricVersion ∧ weightedTotal rubric scored.scores = .ok total := by
      intro reviewer hin
      obtain ⟨scored, rubric', total', hscored, hrubric', htotal'⟩ := hs.reviewed key reviewer hin
      have hversion : some scored.rubricVersion = some review.rubricVersion := by
        apply huniform _ hhead
        rw [← Option.map_some, ← hscored]
        exact List.mem_map_of_mem hin
      obtain hversion := Option.some.inj hversion
      rw [hversion, hrubric, Option.some.injEq] at hrubric'
      subst hrubric'
      exact ⟨scored, total', hscored, hversion, htotal'⟩
    obtain ⟨sum, hsum⟩ := exists_sum heach (hs.bounded key)
    refine ⟨sum / (s.reviewers key).length % 2^32, ?_⟩
    simp only [aggregateScore, bind_eq_ok, exists_unit, orRefuse_eq_ok, refuseIf_eq_ok, pure_eq_ok,
      not_lt]
    refine ⟨config, hconfig, henough, first, ?_, review, hreview, rubric, hrubric, sum, hsum, rfl⟩
    show (s.reviewers key).head? = some first
    rw [hreviewers]
    rfl

end Scores

section Runs

/-- Some further calls, or none, lead to an aggregate of the application. -/
def Scorable (contract : Address) (s : State) (key : Application) : Prop :=
  ∃ (is : List (Input contract)) (score : Nat),
    aggregateScore ((machine contract).run s is) key.1 key.2 = .ok score

/-- A review of the application finds the rubric of the first one still the latest. -/
def OnFirstRubric (key : Application) (e : Step contract) : Prop :=
  e.input.call.reviews = some key → ∀ first ∈ (e.pre.versions key).head?, e.pre.rubricVersion key.1 = first

theorem fullyReviewed_of_aggregate {score : Nat} (h : aggregateScore s key.1 key.2 = .ok score) :
    FullyReviewed s key := by
  simp only [aggregateScore, bind_eq_ok, exists_unit, orRefuse_eq_ok, refuseIf_eq_ok, not_lt] at h
  obtain ⟨config, hconfig, henough, _⟩ := h
  exact ⟨config, hconfig, henough⟩

/-- Reviews are permanent: those of an application start as they started before. -/
theorem run_versions_grow (hs : Books s) (key : Application) (is : List (Input contract)) :
    Books ((machine contract).run s is) ∧ s.versions key <+: ((machine contract).run s is).versions key := by
  refine @Machine.run_invariant _ _ _ _ (machine contract)
    (fun t => Books t ∧ s.versions key <+: t.versions key) s ⟨hs, List.prefix_rfl⟩ ?_ is
  intro t i o t' ht h
  obtain ⟨hbooks, hearlier⟩ := ht
  have heffect := step_effect h
  refine ⟨heffect.books hbooks, ?_⟩
  rw [heffect.versions hbooks]
  split_ifs
  · exact hearlier.trans (List.prefix_append _ _)
  · exact hearlier

/-- Reviews that are scored against several rubrics never have an aggregate again. -/
theorem uniform_of_scorable (hs : Books s) (h : Scorable contract s key) : Uniform (s.versions key) := by
  obtain ⟨is, score, hscore⟩ := h
  obtain ⟨hbooks, later, hversions⟩ := run_versions_grow hs key is
  have huniform := (aggregate_defined hbooks (fullyReviewed_of_aggregate hscore)).mp ⟨score, hscore⟩
  rw [← hversions] at huniform
  exact huniform.of_append

/-- The reviews of an application are scored against one rubric as long as each of them finds the
rubric of the first one. -/
theorem run_uniform (is : List (Input contract)) (key : Application) :
    Uniform (((machine contract).run State.empty is).versions key) ↔
      ∀ e ∈ (machine contract).journal State.empty is, OnFirstRubric key e := by
  refine (@Machine.run_journal_invariant _ _ _ _ (machine contract)
    (fun t es => Books t ∧ (Uniform (t.versions key) ↔ ∀ e ∈ es, OnFirstRubric key e)) State.empty
    ⟨books_empty, ?_⟩ ?_ is).2
  · constructor
    · intro _ e he
      cases he
    · intro _ first hfirst
      cases hfirst
  · intro es t i o t' ht h
    obtain ⟨hbooks, huniform⟩ := ht
    have heffect := step_effect h
    refine ⟨heffect.books hbooks, ?_⟩
    rw [heffect.versions hbooks, List.forall_mem_append, List.forall_mem_singleton, ← huniform,
      OnFirstRubric]
    split_ifs with hreviews
    · rw [uniform_snoc]
      simp only [hreviews, true_implies]
    · simp only [hreviews, false_implies, and_true]

/-- A new rubric leaves the aggregates of the reviews scored against the earlier ones. -/
theorem Effect.aggregate (h : Effect s call s') (hs : Books s) (hpublishes : call.publishes = true)
    {programId : Bytes32} {applicant : Address} {score : Nat}
    (hscore : aggregateScore s programId applicant = .ok score) :
    aggregateScore s' programId applicant = .ok score := by
  cases h with
  | quiet _ hunpublished =>
    rw [hunpublished] at hpublishes
    cases hpublishes
  | configured _ hunpublished =>
    rw [hunpublished] at hpublishes
    cases hpublishes
  | reviewed _ hunpublished =>
    rw [hunpublished] at hpublishes
    cases hpublishes
  | published _ hnext =>
    simp only [aggregateScore, bind_eq_ok, exists_unit, orRefuse_eq_ok] at hscore ⊢
    obtain ⟨config, hconfig, henough, firstReviewer, hfirst, firstReview, hreview, rubric, hrubric,
      hsum⟩ := hscore
    exact ⟨config, hconfig, henough, firstReviewer, hfirst, firstReview, hreview, rubric,
      update_keeps_row (hs.unpublished hnext) hrubric, hsum⟩

/-- In every state that any calls lead to, a fully reviewed application has an aggregate or can still
obtain one just when each of its reviews found the rubric of the first one, and a new rubric leaves
every aggregate that there is. -/
theorem run_scored (is : List (Input contract)) :
    let s := (machine contract).run State.empty is
    let es := (machine contract).journal State.empty is
    (∀ key, FullyReviewed s key → (Scorable contract s key ↔ ∀ e ∈ es, OnFirstRubric key e)) ∧
      ∀ e ∈ es, e.input.call.publishes = true → ∀ programId applicant score,
        aggregateScore e.pre programId applicant = .ok score →
          aggregateScore e.post programId applicant = .ok score := by
  intro s es
  constructor
  · intro key hfull
    rw [← run_uniform is key]
    constructor
    · exact uniform_of_scorable (run_books is)
    · intro huniform
      obtain ⟨score, hscore⟩ := (aggregate_defined (run_books is) hfull).mpr huniform
      exact ⟨[], score, hscore⟩
  · intro e he hpublishes programId applicant score hscore
    have heffect := step_effect (Machine.journal_step he).1
    exact heffect.aggregate (Machine.journal_found run_books he) hpublishes hscore

/-- Two reviewers score one application, and a rubric is published between their reviews. -/
def sampleRepublished : List (Input ⟨0⟩) :=
  [⟨.sample, .initializeContract ⟨1⟩⟩,
    ⟨.sample, .registerProgram ⟨1⟩ 7 2 3⟩,
    ⟨.sample, .publishRubric ⟨1⟩ 7 0 [⟨10000, 10⟩]⟩,
    ⟨.sample, .submitReview ⟨2⟩ 7 ⟨4⟩ [5]⟩,
    ⟨.sample, .publishRubric ⟨1⟩ 7 1 [⟨10000, 20⟩]⟩,
    ⟨.sample, .submitReview ⟨3⟩ 7 ⟨4⟩ [5]⟩]

/-- The application has the two reviews that its program asks for, and can never be scored. -/
theorem sampleRepublished_unscorable :
    FullyReviewed ((machine ⟨0⟩).run State.empty sampleRepublished) (7, ⟨4⟩) ∧
      ¬Scorable ⟨0⟩ ((machine ⟨0⟩).run State.empty sampleRepublished) (7, ⟨4⟩) := by
  constructor
  · exact ⟨⟨1, true, 2, 3⟩, by decide +kernel, by decide +kernel⟩
  · intro hscorable
    have huniform := uniform_of_scorable (run_books sampleRepublished) hscorable
    have hversions : ((machine ⟨0⟩).run State.empty sampleRepublished).versions (7, ⟨4⟩) =
        [some 1, some 2] := by decide +kernel
    rw [hversions] at huniform
    have hsame := huniform (some 1) rfl (some 2) (by decide)
    exact absurd hsame (by decide)

end Runs

end ChainVerse.ScholarshipReviews
