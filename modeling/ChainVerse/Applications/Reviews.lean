import ChainVerse.Applications.Steps
import ChainVerse.Framework.Listings
import ChainVerse.Framework.Tables

namespace ChainVerse.MentorshipApplicationsContract

variable {contract : Address} {env : Env contract} {s s' : State} {es : List (Step contract)}

section Workload

/-- The program that an application is for. -/
def State.programOf (s : State) (id : Nat) : Option Bytes32 :=
  (s.application id).map Application.programId

/-- The review of an application is undecided and assigned to `reviewer`. -/
def State.holds (s : State) (reviewer : Address) (id : Nat) : Bool :=
  (s.review id).any fun review => review.assignee = some reviewer ∧ review.status ≠ .decided

/-- The undecided reviews of a program that are assigned to `reviewer`. -/
def State.held (s : State) (programId : Bytes32) (reviewer : Address) : Set Nat :=
  {id | s.programOf id = some programId ∧ s.holds reviewer id = true}

/-- The review of an application is decided. -/
def State.decided (s : State) (id : Nat) : Bool :=
  (s.review id).any fun review => review.status = .decided

/-- The application that a call decides. -/
def Call.decides : Call → Option Nat
  | .recordDecision _ id _ => some id
  | _ => none

/-- The queues list the applications of their programs, and the next id is not in use. -/
structure Queued (s : State) : Prop where
  listed : Listed s.queue s.programOf
  fresh : ∀ id, s.nextApplicationId ≤ id → s.application id = none ∧ s.review id = none

/-- No active reviewer holds more than the capacity of the grant. -/
def Within (s : State) : Prop :=
  ∀ programId reviewer profile, s.reviewer (reviewer, programId) = some profile →
    profile.active = true → (s.held programId reviewer).ncard ≤ profile.capacity

theorem queued_empty : Queued State.empty where
  listed := listed_empty
  fresh _ _ := ⟨rfl, rfl⟩

theorem within_empty : Within State.empty := nofun

theorem foldl_countReview {now : Nat} {reviewer : Address} {reviews : List ReviewState}
    {workload : ReviewerWorkload} :
    (reviews.foldl (countReview now reviewer) workload).assignedActive =
      workload.assignedActive + reviews.countP fun review =>
        review.assignee = some reviewer ∧ review.status ≠ .decided := by
  induction reviews generalizing workload with
  | nil => rfl
  | cons review reviews ih =>
    rw [List.foldl_cons, ih, List.countP_cons]
    by_cases hassigned : review.assignee = some reviewer
    · by_cases hdecided : review.status = .decided
      · simp [countReview, hassigned, hdecided]
      · simp [countReview, hassigned, hdecided]
        omega
    · simp [countReview, hassigned]

/-- The counter of `reviewer_workload` counts the reviews that the reviewer holds. -/
theorem Queued.assignedActive (hs : Queued s) (programId : Bytes32) (reviewer : Address) :
    (reviewerWorkload env s programId reviewer).assignedActive =
      (s.held programId reviewer).ncard := by
  unfold reviewerWorkload
  rw [foldl_countReview, Nat.zero_add, List.countP_filterMap]
  have hcount := hs.listed.countP (s.holds reviewer) programId
  rw [State.held, ← hcount]
  apply List.countP_congr
  intro id _
  cases hreview : s.review id <;> simp [State.holds, hreview]

theorem programOf_update (id : Nat) (application : Application)
    (h : s'.application = Function.update s.application id (some application)) :
    s'.programOf = Function.update s.programOf id (some application.programId) := by
  unfold State.programOf
  rw [h]
  exact Function.comp_update (Option.map Application.programId) s.application id (some application)

/-- The queues stay in order. -/
theorem Effect.queued {call : Call} {o : Reply} (h : Effect env s call o s') (hs : Queued s) :
    Queued s' := by
  have hreview : ∀ {id : Nat} {review : ReviewState} (written : ReviewState),
      s.review id = some review → ∀ x, s.nextApplicationId ≤ x →
      s.application x = none ∧ Function.update s.review id (some written) x = none := by
    intro id review written hfound x hx
    have hne : x ≠ id := by
      intro heq
      rw [← heq, (hs.fresh x hx).2] at hfound
      cases hfound
    rw [Function.update_of_ne hne]
    exact hs.fresh x hx
  cases h with
  | configure => exact ⟨hs.listed, hs.fresh⟩
  | replay => exact hs
  | save => exact ⟨hs.listed, hs.fresh⟩
  | discard => exact ⟨hs.listed, hs.fresh⟩
  | @submit _ programId _ _ _ _ application howner =>
    have hnone := hs.fresh s.nextApplicationId le_rfl
    have hprogram : s.programOf s.nextApplicationId = none := by
      rw [State.programOf, hnone.1, Option.map_none]
    refine ⟨?_, ?_⟩
    · rw [programOf_update s.nextApplicationId application rfl, howner]
      exact hs.listed.append hprogram programId
    · intro x hx
      have hne : x ≠ s.nextApplicationId := (Nat.lt_of_succ_le hx).ne'
      dsimp only
      rw [Function.update_of_ne hne, Function.update_of_ne hne]
      exact hs.fresh x (Nat.le_of_succ_le hx)
  | grant => exact ⟨hs.listed, hs.fresh⟩
  | revoke => exact ⟨hs.listed, hs.fresh⟩
  | idle => exact hs
  | prioritize hfound => exact ⟨hs.listed, hreview _ hfound⟩
  | assign _ hfound => exact ⟨hs.listed, hreview _ hfound⟩
  | declare => exact ⟨hs.listed, hs.fresh⟩
  | decide _ _ hfound => exact ⟨hs.listed, hreview _ hfound⟩

theorem Queued.finite (hs : Queued s) (programId : Bytes32) (reviewer : Address) :
    (s.held programId reviewer).Finite :=
  hs.listed.finite (fun id => s.holds reviewer id = true) programId

/-- Reviewers who come to hold nothing new stay within their capacities. -/
theorem Within.mono (hw : Within s) (hs : Queued s) (hreviewer : s'.reviewer = s.reviewer)
    (hheld : ∀ programId reviewer, s'.held programId reviewer ⊆ s.held programId reviewer) :
    Within s' := by
  intro programId reviewer profile hprofile hactive
  rw [hreviewer] at hprofile
  have hfewer := Set.ncard_le_ncard (hheld programId reviewer) (hs.finite programId reviewer)
  exact hfewer.trans (hw programId reviewer profile hprofile hactive)

/-- A rewritten review is held by nobody who did not hold it before, if its assignee did not. -/
theorem held_rewrite {id : Nat} {review : ReviewState} {programId : Bytes32} {reviewer : Address}
    (happlication : s'.application = s.application)
    (hreview : s'.review = Function.update s.review id (some review))
    (hkept : s.programOf id = some programId → review.assignee = some reviewer →
      review.status ≠ .decided → s.holds reviewer id = true) :
    s'.held programId reviewer ⊆ s.held programId reviewer := by
  intro x hmember
  obtain ⟨hprogram, hholds⟩ := hmember
  rw [State.programOf, happlication] at hprogram
  refine ⟨hprogram, ?_⟩
  rw [State.holds, hreview] at hholds
  by_cases hx : x = id
  · rw [hx, Function.update_self, Option.any_some, decide_eq_true_eq] at hholds
    rw [hx] at hprogram ⊢
    exact hkept hprogram hholds.1 hholds.2
  · rwa [Function.update_of_ne hx] at hholds

/-- An assignment with room for one more keeps within the capacities. -/
theorem Within.assign (hw : Within s) (hs : Queued s) {id : Nat} {application : Application}
    {review assigned : ReviewState} {reviewer : Address} (happlication : s'.application = s.application)
    (hreviewer : s'.reviewer = s.reviewer)
    (hreview : s'.review = Function.update s.review id (some assigned))
    (hqueued : s.application id = some application) (hfound : s.review id = some review)
    (hundecided : review.status ≠ .decided) (hassignee : assigned.assignee = some reviewer)
    (hroom : review.assignee ≠ some reviewer →
      ∃ profile, s.reviewer (reviewer, application.programId) = some profile ∧
        (s.held application.programId reviewer).ncard < profile.capacity) : Within s' := by
  intro programId named profile hprofile hactive
  rw [hreviewer] at hprofile
  by_cases hnew : review.assignee ≠ some reviewer ∧ named = reviewer ∧
      application.programId = programId
  · obtain ⟨hassigned, rfl, rfl⟩ := hnew
    obtain ⟨stored, hstored, hroom⟩ := hroom hassigned
    rw [hprofile, Option.some.injEq] at hstored
    rw [hstored]
    have hgrown : s'.held application.programId named ⊆
        insert id (s.held application.programId named) := by
      intro x hmember
      obtain ⟨hprogram, hholds⟩ := hmember
      by_cases hx : x = id
      · exact .inl hx
      · rw [State.programOf, happlication] at hprogram
        rw [State.holds, hreview, Function.update_of_ne hx] at hholds
        exact .inr ⟨hprogram, hholds⟩
    have hone := Set.ncard_insert_le id (s.held application.programId named)
    have hfewer := Set.ncard_le_ncard hgrown ((hs.finite application.programId named).insert id)
    omega
  · have hheld : s'.held programId named ⊆ s.held programId named := by
      refine held_rewrite happlication hreview fun hprogram hnamed _ => ?_
      rw [State.programOf, hqueued, Option.map_some, Option.some.injEq] at hprogram
      rw [hassignee, Option.some.injEq] at hnamed
      have hsame : review.assignee = some reviewer := by
        by_contra hassigned
        exact hnew ⟨hassigned, hnamed.symm, hprogram⟩
      rw [State.holds, hfound, Option.any_some, decide_eq_true_eq, ← hnamed]
      exact ⟨hsame, hundecided⟩
    have hfewer := Set.ncard_le_ncard hheld (hs.finite programId named)
    exact hfewer.trans (hw programId named profile hprofile hactive)

/-- Every call keeps the reviewers within their capacities, but for a grant of too small a one. -/
theorem Effect.within {call : Call} {o : Reply} (h : Effect env s call o s') (hs : Queued s)
    (hw : Within s)
    (hgrant : ∀ admin programId reviewer capacity,
      call = .grantReviewer admin programId reviewer capacity →
      (s.held programId reviewer).ncard ≤ capacity) : Within s' := by
  cases h with
  | configure => exact hw
  | replay => exact hw
  | save => exact hw
  | discard => exact hw
  | @submit _ _ _ _ _ _ application =>
    have hnone := hs.fresh s.nextApplicationId le_rfl
    refine hw.mono hs rfl fun programId reviewer => ?_
    intro x hmember
    obtain ⟨hprogram, hholds⟩ := hmember
    rw [State.holds] at hholds
    dsimp only at hholds
    by_cases hx : x = s.nextApplicationId
    · rw [hx, Function.update_self] at hholds
      simp at hholds
    · rw [Function.update_of_ne hx] at hholds
      rw [programOf_update s.nextApplicationId application rfl, Function.update_of_ne hx] at hprogram
      exact ⟨hprogram, hholds⟩
  | @grant admin reviewer programId capacity =>
    have hcovered := hgrant admin programId reviewer capacity rfl
    intro program named profile hprofile hactive
    rcases update_row_cases hprofile with ⟨hkey, rfl⟩ | ⟨_, hold⟩
    · rw [Prod.mk.injEq] at hkey
      rw [hkey.1, hkey.2]
      exact hcovered
    · exact hw program named profile hold hactive
  | @revoke admin reviewer programId profile =>
    intro program named stored hprofile hactive
    rcases update_row_cases hprofile with ⟨_, rfl⟩ | ⟨_, hold⟩
    · cases hactive
    · exact hw program named stored hold hactive
  | idle => exact hw
  | @prioritize _ id priority review _ hfound hundecided =>
    refine hw.mono hs rfl fun programId reviewer => held_rewrite rfl rfl fun _ hassignee _ => ?_
    rw [State.holds, hfound, Option.any_some, decide_eq_true_eq]
    exact ⟨hassignee, hundecided⟩
  | @assign _ reviewer id dueAt _ application review _ hqueued hfound hundecided hroom =>
    refine hw.assign hs rfl rfl rfl hqueued hfound hundecided rfl ?_
    rw [hs.assignedActive] at hroom
    exact hroom
  | declare => exact hw
  | decide _ _ _ =>
    refine hw.mono hs rfl fun programId reviewer => held_rewrite rfl rfl fun _ _ hundecided => ?_
    exact absurd rfl hundecided

end Workload

/-- An accepted call is the decision of a review: it was taken by the assignee, who was an active
reviewer of the program and had declared no conflict. -/
structure Decision (e : Step contract) (id : Nat) (review : ReviewState) (reviewer : Address) :
    Prop where
  call : ∃ outcome, e.input.call = .recordDecision reviewer id outcome
  assigned : ∃ before, e.pre.review id = some before ∧ before.status ≠ .decided ∧
    before.assignee = some reviewer
  active : ∃ application, e.pre.application id = some application ∧
    isActiveReviewer e.pre application.programId reviewer = true
  free : e.pre.conflict (reviewer, id) = false
  stored : e.post.review id = some review ∧ review.decidedBy = some reviewer

/-- What the calls `es` have decided: each decision stands, comes from one call, and is the only
one. -/
structure Settled (s : State) (es : List (Step contract)) : Prop where
  final : ∀ e ∈ es, ∀ id review, e.post.review id = some review → review.status = .decided →
    s.review id = some review
  decisions : ∀ id review, s.review id = some review → review.status = .decided →
    ∃ e ∈ es, ∃ reviewer, Decision e id review reviewer
  once : ∀ id, es.countP (fun e => e.input.call.decides = some id) = if s.decided id then 1 else 0

section Decisions

variable {i : Input contract} {o : Reply}

theorem settled_empty : Settled State.empty ([] : List (Step contract)) where
  final _ h := absurd h List.not_mem_nil
  decisions _ _ h := by cases h
  once _ := rfl

theorem decides_eq_none {call : Call} (h : (call.isAdministrative || call.isRepeatable) = true) :
    call.decides = none := by
  cases call with
  | recordDecision => cases h
  | _ => rfl

/-- A decided review is never written again. -/
theorem Effect.keeps_decided {id : Nat} {review : ReviewState} (h : Effect env s i.call o s')
    (hs : Queued s) (hstored : s.review id = some review) (hdecided : review.status = .decided) :
    s'.review id = some review := by
  have hrewrite : ∀ {x : Nat} {before : ReviewState} (written : ReviewState),
      s.review x = some before → before.status ≠ .decided →
      Function.update s.review x (some written) id = some review := by
    intro x before written hbefore hundecided
    exact update_keeps_unless (q := fun row => row.status = .decided) hbefore hundecided hstored
      hdecided
  obtain ⟨env, call⟩ := i
  cases h with
  | configure => exact hstored
  | replay => exact hstored
  | save => exact hstored
  | discard => exact hstored
  | submit => exact update_keeps_row (hs.fresh _ le_rfl).2 hstored
  | grant => exact hstored
  | revoke => exact hstored
  | idle => exact hstored
  | prioritize hfound hundecided => exact hrewrite _ hfound hundecided
  | assign _ hfound hundecided => exact hrewrite _ hfound hundecided
  | declare => exact hstored
  | decide _ _ hfound hundecided => exact hrewrite _ hfound hundecided

/-- A review that is decided after a call was decided before, or by the call. -/
theorem Effect.decides {id : Nat} {review : ReviewState} (h : Effect i.env s i.call o s')
    (hstored : s'.review id = some review) (hdecided : review.status = .decided) :
    s.review id = some review ∨
      ∃ reviewer, Decision (⟨s, i, o, s'⟩ : Step contract) id review reviewer := by
  have hrewrite : ∀ {x : Nat} {written : ReviewState},
      Function.update s.review x (some written) id = some review → written.status ≠ .decided →
      s.review id = some review := by
    intro x written hstored hundecided
    have hne : id ≠ x := by
      intro heq
      rw [heq, Function.update_self, Option.some.injEq] at hstored
      exact hundecided (hstored ▸ hdecided)
    rwa [Function.update_of_ne hne] at hstored
  obtain ⟨env, call⟩ := i
  cases h with
  | configure => exact .inl hstored
  | replay => exact .inl hstored
  | save => exact .inl hstored
  | discard => exact .inl hstored
  | submit => exact .inl (hrewrite hstored nofun)
  | grant => exact .inl hstored
  | revoke => exact .inl hstored
  | idle => exact .inl hstored
  | prioritize _ hundecided => exact .inl (hrewrite hstored hundecided)
  | assign => exact .inl (hrewrite hstored nofun)
  | declare => exact .inl hstored
  | @decide reviewer x outcome application before _ hqueued hactive hfound hundecided hassigned
      hfree =>
    by_cases hx : id = x
    · right
      dsimp only at hstored
      rw [hx] at hstored ⊢
      refine ⟨reviewer, ⟨outcome, rfl⟩, ⟨before, hfound, hundecided, hassigned⟩,
        ⟨application, hqueued, hactive⟩, hfree, hstored, ?_⟩
      rw [Function.update_self, Option.some.injEq] at hstored
      rw [← hstored]
    · exact .inl ((Function.update_of_ne hx _ _).symm.trans hstored)

theorem decided_update {x : Nat} {review : ReviewState}
    (h : s'.review = Function.update s.review x (some review)) (id : Nat) :
    s'.decided id = if id = x then decide (review.status = .decided) else s.decided id := by
  rw [State.decided, h]
  by_cases hx : id = x
  · rw [hx, Function.update_self, Option.any_some, if_pos rfl]
  · rw [Function.update_of_ne hx, if_neg hx, State.decided]

/-- A review that is written undecided, where none was decided, leaves the decided ones. -/
theorem decided_rewrite {x : Nat} {review : ReviewState} (h : s.decided x = false)
    (hreview : s'.review = Function.update s.review x (some review))
    (hundecided : review.status ≠ .decided) (id : Nat) : s'.decided id = s.decided id := by
  rw [decided_update hreview]
  by_cases hx : id = x
  · rw [if_pos hx, hx, h, decide_eq_false hundecided]
  · rw [if_neg hx]

/-- The calls that decide a review are those that leave it decided. -/
theorem Effect.decides_once (h : Effect i.env s i.call o s') (hs : Queued s) (id : Nat) :
    (if s'.decided id then 1 else 0) =
      (if s.decided id then 1 else 0) + if i.call.decides = some id then 1 else 0 := by
  have hkept : s'.decided id = s.decided id → i.call.decides = none →
      (if s'.decided id then 1 else 0) =
        (if s.decided id then 1 else 0) + if i.call.decides = some id then 1 else 0 := by
    intro hsame hnone
    rw [hsame, hnone, if_neg (Option.some_ne_none id).symm, Nat.add_zero]
  have hopen : ∀ {x : Nat} {review : ReviewState}, s.review x = some review →
      review.status ≠ .decided → s.decided x = false := by
    intro x review hfound hundecided
    simp [State.decided, hfound, hundecided]
  obtain ⟨env, call⟩ := i
  cases h with
  | configure hcall => exact hkept rfl (decides_eq_none (by simp [hcall]))
  | replay => exact hkept rfl rfl
  | save => exact hkept rfl rfl
  | discard => exact hkept rfl rfl
  | submit =>
    have hnone : s.decided s.nextApplicationId = false := by
      rw [State.decided, (hs.fresh s.nextApplicationId le_rfl).2, Option.any_none]
    refine hkept (decided_rewrite hnone rfl ?_ id) rfl
    intro hdecided
    cases hdecided
  | grant => exact hkept rfl rfl
  | revoke => exact hkept rfl rfl
  | idle hcall => exact hkept rfl (decides_eq_none (by simp [hcall]))
  | prioritize hfound hundecided =>
    refine hkept (decided_rewrite (hopen hfound hundecided) rfl ?_ id) rfl
    exact hundecided
  | assign _ hfound hundecided =>
    refine hkept (decided_rewrite (hopen hfound hundecided) rfl ?_ id) rfl
    intro hdecided
    cases hdecided
  | declare => exact hkept rfl rfl
  | @decide reviewer x _ _ review _ _ _ hfound hundecided =>
    rw [decided_update rfl]
    by_cases hx : id = x
    · have hbefore := hopen hfound hundecided
      simp [hbefore, Call.decides, hx]
    · simp [Call.decides, hx, Ne.symm hx]

/-- Every call leaves the decisions settled. -/
theorem Effect.settled (h : Effect i.env s i.call o s') (hq : Queued s) (hs : Settled s es) :
    Settled s' (es ++ [⟨s, i, o, s'⟩]) := by
  refine ⟨?_, ?_, ?_⟩
  · intro e he id review hstored hdecided
    rcases List.mem_append.mp he with hold | hnew
    · exact h.keeps_decided hq (hs.final e hold id review hstored hdecided) hdecided
    · rw [List.mem_singleton.mp hnew] at hstored
      exact hstored
  · intro id review hstored hdecided
    rcases h.decides hstored hdecided with hbefore | hnow
    · obtain ⟨e, he, hdecision⟩ := hs.decisions id review hbefore hdecided
      exact ⟨e, List.mem_append_left _ he, hdecision⟩
    · exact ⟨_, List.mem_concat_self, hnow⟩
  · intro id
    rw [List.countP_append, List.countP_singleton, hs.once id, h.decides_once hq id]
    simp

end Decisions

/-- The reviews are in order after the calls `es`. -/
structure ReviewsSafe (s : State) (es : List (Step contract)) : Prop where
  counted : ∀ (env : Env contract) programId reviewer, (s.held programId reviewer).Finite ∧
    (reviewerWorkload env s programId reviewer).assignedActive = (s.held programId reviewer).ncard
  within : ∀ (env : Env contract) programId reviewer profile,
    s.reviewer (reviewer, programId) = some profile → profile.active = true →
    (reviewerWorkload env s programId reviewer).assignedActive ≤ profile.capacity
  final : ∀ e ∈ es, ∀ id review, e.post.review id = some review → review.status = .decided →
    s.review id = some review
  decisions : ∀ id review, s.review id = some review → review.status = .decided →
    ∃ e ∈ es, ∃ reviewer, Decision e id review reviewer
  once : ∀ id, es.countP (fun e => e.input.call.decides = some id) ≤ 1

/-- A grant has room for what the reviewer still holds in the program. -/
def Covers (s : State) : Call → Prop
  | .grantReviewer _ programId reviewer capacity => (s.held programId reviewer).ncard ≤ capacity
  | _ => True

section Runs

theorem covers_of_plain {call : Call} (h : (call.isAdministrative || call.isRepeatable) = true) :
    Covers s call := by
  cases call with
  | grantReviewer => cases h
  | _ => trivial

/-- A grant that leaves the reviewer within the capacity has covered what the reviewer held. -/
theorem Effect.covers {call : Call} {o : Reply} (h : Effect env s call o s') (hw : Within s') :
    Covers s call := by
  cases h with
  | configure hcall => exact covers_of_plain (by simp [hcall])
  | idle hcall => exact covers_of_plain (by simp [hcall])
  | @grant admin reviewer programId capacity =>
    exact hw programId reviewer ⟨capacity, true⟩ (Function.update_self _ _ _) rfl
  | _ => trivial

theorem run_settled (is : List (Input contract)) :
    Queued ((machine contract).run State.empty is) ∧
      Settled ((machine contract).run State.empty is)
        ((machine contract).journal State.empty is) := by
  let P (t : State) (es : List (Step contract)) : Prop := Queued t ∧ Settled t es
  have hstep : ∀ es t (i : Input contract) o t', P t es →
      (machine contract).step t i = .ok (o, t') → P t' (es ++ [⟨t, i, o, t'⟩]) := by
    intro es t i o t' ht h
    exact ⟨(step_effect h).queued ht.1, (step_effect h).settled ht.1 ht.2⟩
  have hstart : P State.empty [] := ⟨queued_empty, settled_empty⟩
  exact Machine.run_journal_invariant hstart hstep is

/-- As long as every grant covers what the reviewer still holds, all stay within their capacities. -/
theorem run_within (is : List (Input contract))
    (hcovers : ∀ e ∈ (machine contract).journal State.empty is, Covers e.pre e.input.call) :
    Within ((machine contract).run State.empty is) := by
  let P (t : State) (es : List (Step contract)) : Prop :=
    (∀ e ∈ es, Covers e.pre e.input.call) → Queued t ∧ Within t
  have hstep : ∀ es t (i : Input contract) o t', P t es →
      (machine contract).step t i = .ok (o, t') → P t' (es ++ [⟨t, i, o, t'⟩]) := by
    intro es t i o t' ht h hcovers
    obtain ⟨hqueued, hwithin⟩ := ht fun e he => hcovers e (List.mem_append_left _ he)
    have hlast := hcovers _ List.mem_concat_self
    refine ⟨(step_effect h).queued hqueued, (step_effect h).within hqueued hwithin ?_⟩
    intro admin programId reviewer capacity hcall
    dsimp only at hlast
    rw [hcall] at hlast
    exact hlast
  have hstart : P State.empty [] := fun _ => ⟨queued_empty, within_empty⟩
  exact (Machine.run_journal_invariant hstart hstep is hcovers).2

end Runs

/-- The reviews are safe in every state of a run exactly when each grant in it covers what the
reviewer still holds from an earlier one. -/
theorem reviews_safe_iff (is : List (Input contract)) :
    let m := machine contract
    (∀ earlier, earlier <+: is →
      ReviewsSafe (m.run State.empty earlier) (m.journal State.empty earlier)) ↔
    ∀ e ∈ m.journal State.empty is, Covers e.pre e.input.call := by
  intro m
  constructor
  · intro hsafe e he
    obtain ⟨hstep, earlier, hprefix, hpre⟩ := Machine.journal_prefix he
    have hpost : m.run State.empty (earlier ++ [e.input]) = e.post := by
      rw [m.run_append, ← hpre, m.run_cons, m.run_nil, m.next_ok hstep]
    have hwithin : Within e.post := by
      intro programId reviewer profile hprofile hactive
      rw [← hpost] at hprofile ⊢
      rw [← @Queued.assignedActive contract e.input.env _ (run_settled _).1]
      exact (hsafe _ hprefix).within e.input.env programId reviewer profile hprofile hactive
    exact (step_effect hstep).covers hwithin
  · intro hcovers earlier hprefix
    obtain ⟨hqueued, hsettled⟩ := run_settled earlier
    have hwithin : Within (m.run State.empty earlier) := by
      apply run_within
      intro e he
      obtain ⟨later, rfl⟩ := hprefix
      apply hcovers
      rw [m.journal_append]
      exact List.mem_append_left _ he
    refine ⟨?_, ?_, hsettled.final, hsettled.decisions, ?_⟩
    · intro env programId reviewer
      exact ⟨hqueued.finite programId reviewer, hqueued.assignedActive programId reviewer⟩
    · intro env programId reviewer profile hprofile hactive
      rw [hqueued.assignedActive]
      exact hwithin programId reviewer profile hprofile hactive
    · intro id
      rw [hsettled.once id]
      split_ifs <;> omega

section Samples

/-- Two applications for a program. -/
def sampleApplications : List (Input ⟨0⟩) :=
  sampleProgram ++
    [⟨.sample, .publishConsentTerms ⟨1⟩ 5 9⟩, ⟨.sample, .recordConsent ⟨2⟩ 5⟩,
      ⟨.sample, .recordConsent ⟨3⟩ 5⟩, ⟨.sample, .submitApplication ⟨2⟩ 5 1 [] 6 true⟩,
      ⟨.sample, .submitApplication ⟨3⟩ 5 1 [] 7 true⟩]

/-- A reviewer takes on two applications and comes back with a capacity of one. -/
def sampleRegrant : List (Input ⟨0⟩) :=
  sampleApplications ++
    [⟨.sample, .grantReviewer ⟨1⟩ 5 ⟨4⟩ 2⟩, ⟨.sample, .assignReviewer ⟨1⟩ 1 ⟨4⟩ none 0⟩,
      ⟨.sample, .assignReviewer ⟨1⟩ 2 ⟨4⟩ none 0⟩, ⟨.sampleLater, .revokeReviewer ⟨1⟩ 5 ⟨4⟩⟩,
      ⟨.sampleLater, .grantReviewer ⟨1⟩ 5 ⟨4⟩ 1⟩]

theorem regrant_exceeds_capacity :
    let m := machine ⟨0⟩
    ¬ ReviewsSafe (m.run State.empty sampleRegrant) (m.journal State.empty sampleRegrant) := by
  intro m hsafe
  have hwithin := hsafe.within .sampleLater 5 ⟨4⟩ ⟨1, true⟩ (by decide +kernel) rfl
  have hload : (reviewerWorkload .sampleLater (m.run State.empty sampleRegrant) 5
      ⟨4⟩).assignedActive = 2 := by decide +kernel
  rw [hload] at hwithin
  exact absurd hwithin (by decide)

end Samples

end ChainVerse.MentorshipApplicationsContract
