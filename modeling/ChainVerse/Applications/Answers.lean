import ChainVerse.Applications.Steps
import ChainVerse.Framework.Tables

namespace ChainVerse.MentorshipApplicationsContract

variable {contract : Address} {env : Env contract} {s s' : State} {form : MentorshipForm}
  {questions earlier : List Question} {answers : List Answer} {q : Question}

section Specification

/-- A question of the id is answered. -/
def Answered (answers : List Answer) (id : Nat) : Prop := ∃ a ∈ answers, a.questionId = id

/-- The question's own condition holds of the answers. -/
def ConditionMet (answers : List Answer) (q : Question) : Prop :=
  q.visibleIf.dependsOn = 0 ∨ ∃ a ∈ answers, a.questionId = q.visibleIf.dependsOn ∧
    ∀ hash, q.visibleIf.requiredAnswerHash = some hash → a.answerHash = hash

/-- The question's condition holds, and so do those of the questions that it depends on. -/
inductive Shown (questions : List Question) (answers : List Answer) : Question → Prop where
  | intro {q : Question} (met : ConditionMet answers q)
      (parents : q.visibleIf.dependsOn ≠ 0 → ∀ p ∈ questions, p.id = q.visibleIf.dependsOn →
        Shown questions answers p) : Shown questions answers q

/-- What the answers to the questions of a form have to be. -/
structure Acceptable (questions : List Question) (answers : List Answer) : Prop where
  known : ∀ a ∈ answers, ∃ q ∈ questions, q.id = a.questionId
  once : (answers.map Answer.questionId).Nodup
  committed : ∀ a ∈ answers, a.answerHash ≠ 0
  shown : ∀ q ∈ questions, Answered answers q.id → Shown questions answers q
  complete : ∀ q ∈ questions, Shown questions answers q → q.required = true → Answered answers q.id

/-- What the validation of a form leaves: a bounded list of distinct questions, each of which depends
on earlier ones. -/
structure Published (questions : List Question) : Prop where
  bounded : questions.length ≤ maxQuestions
  distinct : (questions.map Question.id).Nodup
  parents : ∀ before q after, questions = before ++ q :: after → q.visibleIf.dependsOn ≠ 0 →
    ∃ p ∈ before, p.id = q.visibleIf.dependsOn

end Specification

section Validation

theorem validateQuestion_parent (h : validateQuestion earlier q = .ok ())
    (hdepends : q.visibleIf.dependsOn ≠ 0) : ∃ p ∈ earlier, p.id = q.visibleIf.dependsOn := by
  unfold validateQuestion at h
  -- The checks of the options and of the order do not bear on the condition.
  cases hoptions : q.optionsHash <;> cases hlast : earlier.getLast? <;>
    simp only [hoptions, hlast, hdepends, bind_eq_ok, exists_unit, refuseIf_eq_ok, not_not, ne_eq,
      not_false_eq_true, if_true] at h
  all_goals tauto

theorem validateQuestions_parents (h : validateQuestions earlier questions = .ok ()) :
    ∀ before q after, questions = before ++ q :: after → q.visibleIf.dependsOn ≠ 0 →
      ∃ p ∈ earlier ++ before, p.id = q.visibleIf.dependsOn := by
  induction questions generalizing earlier with
  | nil => simp
  | cons first rest ih =>
    simp only [validateQuestions, bind_eq_ok, exists_unit] at h
    intro before q after hsplit hdepends
    cases before with
    | nil =>
      obtain ⟨rfl, _⟩ := List.cons.inj hsplit
      rw [List.append_nil]
      exact validateQuestion_parent h.1 hdepends
    | cons x before =>
      obtain ⟨rfl, hrest⟩ := List.cons.inj hsplit
      have hparent := ih h.2 before q after hrest hdepends
      rwa [List.append_assoc] at hparent

theorem validateForm_published (h : validateForm questions = .ok ()) : Published questions := by
  simp only [validateForm, bind_eq_ok, exists_unit, refuseIf_eq_ok, not_or, not_lt, not_not] at h
  obtain ⟨⟨_, hbounded⟩, hquestions, hdistinct⟩ := h
  refine ⟨hbounded, hdistinct, ?_⟩
  simpa only [List.nil_append] using validateQuestions_parents hquestions

/-- Every stored form has been validated. -/
def Validated (s : State) : Prop :=
  ∀ key form, s.form key = some form → Published form.questions

theorem publishForm_validated {admin : Address} {programId schemaHash : Bytes32} {version : Nat}
    (h : publishForm env s admin programId schemaHash questions = .ok (version, s'))
    (hs : Validated s) : Validated s' := by
  simp only [publishForm, bind_eq_ok, exists_unit, refuseIf_eq_ok, orRefuse_eq_ok, pure_eq_ok,
    Prod.mk.injEq] at h
  obtain ⟨_, _, _, hvalid, next, _, rfl, rfl⟩ := h
  exact forall_update_row hs rfl (validateForm_published hvalid)

theorem Effect.validated {call : Call} {reply : Reply} (h : Effect env s call reply s')
    (hcall : call.isAdministrative = false) (hs : Validated s) : Validated s' := by
  cases h with
  | configure hadministrative =>
    rw [hcall] at hadministrative
    cases hadministrative
  | replay | save | discard | submit | grant | revoke | idle | prioritize | assign | declare
  | decide => exact hs

/-- Of the calls that set the contract up, only the publication of a form stores one. -/
theorem execute_form {call : Call} {o : Reply} (hadministrative : call.isAdministrative = true)
    (hcall : ∀ admin programId schemaHash questions,
      call ≠ .publishForm admin programId schemaHash questions)
    (h : execute env s call = .ok (o, s')) : s'.form = s.form := by
  cases call with
  | publishForm => exact absurd rfl (hcall _ _ _ _)
  | initializeContract =>
    simp only [execute, initializeContract, map_eq_ok, bind_eq_ok, exists_unit, pure_eq_ok,
      Prod.mk.injEq] at h
    obtain ⟨_, ⟨_, _, rfl⟩, _, rfl⟩ := h
    rfl
  | registerProgram =>
    simp only [execute, registerProgram, map_eq_ok, bind_eq_ok, exists_unit, pure_eq_ok,
      Prod.mk.injEq] at h
    obtain ⟨_, ⟨_, _, rfl⟩, _, rfl⟩ := h
    rfl
  | setProgramActive =>
    simp only [execute, setProgramActive, map_eq_ok, bind_eq_ok, exists_unit, pure_eq_ok,
      Prod.mk.injEq] at h
    obtain ⟨_, ⟨_, _, _, rfl⟩, _, rfl⟩ := h
    rfl
  | publishConsentTerms =>
    simp only [execute, publishConsentTerms, map_eq_ok, bind_eq_ok, exists_unit, pure_eq_ok,
      Prod.map, Prod.mk.injEq] at h
    obtain ⟨_, ⟨_, _, _, _, _, rfl⟩, _, rfl⟩ := h
    rfl
  | recordConsent =>
    simp only [execute, recordConsent, map_eq_ok, bind_eq_ok, exists_unit, pure_eq_ok, Prod.map,
      Prod.mk.injEq] at h
    obtain ⟨_, ⟨_, _, _, rfl⟩, _, rfl⟩ := h
    rfl
  | revokeConsent =>
    simp only [execute, revokeConsent, map_eq_ok, bind_eq_ok, exists_unit, pure_eq_ok,
      Prod.mk.injEq] at h
    obtain ⟨_, ⟨_, _, _, rfl⟩, _, rfl⟩ := h
    rfl
  | _ => cases hadministrative

theorem step_validated {i : Input contract} {o : Reply}
    (h : (machine contract).step s i = .ok (o, s')) (hs : Validated s) : Validated s' := by
  by_cases hadministrative : i.call.isAdministrative = true
  · obtain ⟨env, call⟩ := i
    by_cases hcall : ∃ admin programId schemaHash questions,
        call = .publishForm admin programId schemaHash questions
    · obtain ⟨admin, programId, schemaHash, questions, rfl⟩ := hcall
      simp only [machine, execute, map_eq_ok, Prod.map, Prod.mk.injEq, id] at h
      obtain ⟨⟨_, _⟩, hpublish, _, rfl⟩ := h
      exact publishForm_validated hpublish hs
    · push Not at hcall
      intro key form hstored
      rw [execute_form hadministrative hcall h] at hstored
      exact hs key form hstored
  · exact (step_effect h).validated (Bool.not_eq_true _ ▸ hadministrative) hs

theorem run_validated (is : List (Input contract)) :
    Validated ((machine contract).run State.empty is) := by
  apply Machine.run_invariant
  · intro key form hform
    cases hform
  · intro s i o s' hs h
    exact step_validated h hs

end Validation

section Checking

theorem questionIndex_eq_none {id : Nat} :
    questionIndex questions id = none ↔ ¬ ∃ q ∈ questions, q.id = id := by
  simp [questionIndex]

theorem checkAnswerIds_ok :
    checkAnswerIds form answers = .ok () ↔
      (∀ a ∈ answers, ∃ q ∈ form.questions, q.id = a.questionId) ∧
        (answers.map Answer.questionId).Nodup ∧ ∀ a ∈ answers, a.answerHash ≠ 0 := by
  induction answers with
  | nil => simp [checkAnswerIds]
  | cons answer rest ih =>
    simp only [checkAnswerIds, bind_eq_ok, exists_unit, refuseIf_eq_ok, ih, questionIndex_eq_none,
      not_not, List.forall_mem_cons, List.map_cons, List.nodup_cons, List.mem_map]
    tauto

theorem findAnswer_isSome {id : Nat} :
    (findAnswer answers id).isSome = true ↔ Answered answers id := by
  simp [findAnswer, Answered]

theorem findAnswer_eq_some {a : Answer} {id : Nat} (honce : (answers.map Answer.questionId).Nodup) :
    findAnswer answers id = some a ↔ a ∈ answers ∧ a.questionId = id := by
  constructor
  · intro hfound
    exact ⟨List.mem_of_find?_eq_some hfound, by simpa using List.find?_some hfound⟩
  · rintro ⟨ha, hid⟩
    obtain ⟨found, hfound⟩ := Option.isSome_iff_exists.mp (findAnswer_isSome.mpr ⟨a, ha, hid⟩)
    have hsame : found.questionId = id := by simpa using List.find?_some hfound
    rw [hfound, List.inj_on_of_nodup_map honce (List.mem_of_find?_eq_some hfound) ha
      (hsame.trans hid.symm)]

/-- With no question answered twice, a question is visible exactly when its condition holds. -/
theorem isVisible_iff (honce : (answers.map Answer.questionId).Nodup) :
    isVisible answers q = true ↔ ConditionMet answers q := by
  unfold isVisible ConditionMet
  by_cases hdepends : q.visibleIf.dependsOn = 0
  · simp [hdepends]
  · rw [if_pos hdepends, or_iff_right hdepends]
    cases hfound : findAnswer answers q.visibleIf.dependsOn with
    | none =>
      refine iff_of_false Bool.false_ne_true ?_
      rintro ⟨a, ha, hid, _⟩
      rw [(findAnswer_eq_some honce).mpr ⟨ha, hid⟩] at hfound
      cases hfound
    | some parent =>
      have hparent := (findAnswer_eq_some honce).mp hfound
      cases hexpected : q.visibleIf.requiredAnswerHash with
      | none =>
        refine iff_of_true rfl ⟨parent, hparent.1, hparent.2, ?_⟩
        intro hash hnone
        cases hnone
      | some expected =>
        simp only [decide_eq_true_eq, Option.some.injEq, forall_eq']
        constructor
        · intro heq
          exact ⟨parent, hparent.1, hparent.2, heq⟩
        · rintro ⟨a, ha, hid, heq⟩
          rw [(findAnswer_eq_some honce).mpr ⟨ha, hid⟩, Option.some.injEq] at hfound
          rw [← hfound, heq]

theorem checkQuestions_ok :
    checkQuestions answers questions = .ok () ↔ ∀ q ∈ questions,
      (Answered answers q.id → isVisible answers q = true) ∧
        (isVisible answers q = true → q.required = true → Answered answers q.id) := by
  induction questions with
  | nil => simp [checkQuestions]
  | cons first rest ih =>
    simp only [checkQuestions, bind_eq_ok, exists_unit, refuseIf_eq_ok, ih, List.forall_mem_cons,
      ← findAnswer_isSome]
    cases isVisible answers first <;> cases (findAnswer answers first.id).isSome <;> simp

end Checking

section Acceptance

/-- Answers that meet the conditions of the questions that they answer meet the conditions behind them
too. -/
theorem Published.shown (h : Published questions)
    (hmet : ∀ q ∈ questions, Answered answers q.id → ConditionMet answers q) :
    ∀ q ∈ questions, ConditionMet answers q → Shown questions answers q := by
  -- By induction on the number of questions before the given one.
  suffices hbefore : ∀ n before q after, before.length = n → questions = before ++ q :: after →
      ConditionMet answers q → Shown questions answers q by
    intro q hq hq'
    obtain ⟨before, after, hsplit⟩ := List.append_of_mem hq
    exact hbefore _ before q after rfl hsplit hq'
  intro n
  induction n using Nat.strong_induction_on with
  | _ n ih =>
    intro before q after hlength hsplit hq
    refine .intro hq fun hdepends p hp hid => ?_
    obtain ⟨parent, hparent, hsame⟩ := h.parents before q after hsplit hdepends
    have hparents : parent ∈ questions := by
      rw [hsplit]
      exact List.mem_append_left _ hparent
    obtain rfl : parent = p := List.inj_on_of_nodup_map h.distinct hparents hp (hsame.trans hid.symm)
    -- The condition of the question is met, so its parent is answered.
    have hanswered : Answered answers parent.id := by
      rcases hq with hzero | ⟨a, ha, hanswers, _⟩
      · exact absurd hzero hdepends
      · exact ⟨a, ha, hanswers.trans hid.symm⟩
    obtain ⟨start, rest, hstart⟩ := List.append_of_mem hparent
    apply ih start.length _ start parent (rest ++ q :: after) rfl
    · rw [hsplit, hstart, List.append_assoc, List.cons_append]
    · exact hmet parent hparents hanswered
    · rw [← hlength, hstart, List.length_append, List.length_cons]
      omega

theorem Shown.met (h : Shown questions answers q) : ConditionMet answers q := by
  cases h with
  | intro met => exact met

/-- What the two loops of `check_answers` establish. -/
structure Filled (questions : List Question) (answers : List Answer) : Prop where
  known : ∀ a ∈ answers, ∃ q ∈ questions, q.id = a.questionId
  once : (answers.map Answer.questionId).Nodup
  committed : ∀ a ∈ answers, a.answerHash ≠ 0
  settled : ∀ q ∈ questions, (Answered answers q.id → ConditionMet answers q) ∧
    (ConditionMet answers q → q.required = true → Answered answers q.id)

theorem Published.filled_iff (h : Published questions) :
    Filled questions answers ↔ Acceptable questions answers := by
  constructor
  · intro hfilled
    have hshown := h.shown fun q hq => (hfilled.settled q hq).1
    refine ⟨hfilled.known, hfilled.once, hfilled.committed, ?_, ?_⟩
    · intro q hq hanswered
      exact hshown q hq ((hfilled.settled q hq).1 hanswered)
    · intro q hq hvisible
      exact (hfilled.settled q hq).2 hvisible.met
  · intro hacceptable
    have hmet : ∀ q ∈ questions, Answered answers q.id → ConditionMet answers q :=
      fun q hq hanswered => (hacceptable.shown q hq hanswered).met
    refine ⟨hacceptable.known, hacceptable.once, hacceptable.committed, fun q hq => ⟨hmet q hq, ?_⟩⟩
    intro hcondition hrequired
    exact hacceptable.complete q hq (h.shown hmet q hq hcondition) hrequired

/-- Distinct answers to the questions of a form are no more than its questions. -/
theorem Filled.bounded (h : Filled questions answers) (hpublished : Published questions) :
    answers.length ≤ maxAnswers := by
  have hsub : answers.map Answer.questionId ⊆ questions.map Question.id := by
    intro id hid
    obtain ⟨a, ha, rfl⟩ := List.mem_map.mp hid
    obtain ⟨q, hq, hsame⟩ := h.known a ha
    exact List.mem_map.mpr ⟨q, hq, hsame⟩
  have hlength := (List.subperm_of_subset h.once hsub).length_le
  rw [List.length_map, List.length_map] at hlength
  exact hlength.trans hpublished.bounded

theorem checkAnswers_ok (h : Published form.questions) :
    checkAnswers form answers = .ok () ↔ Filled form.questions answers := by
  simp only [checkAnswers, bind_eq_ok, exists_unit, refuseIf_eq_ok, not_lt, checkAnswerIds_ok,
    checkQuestions_ok]
  constructor
  · rintro ⟨_, ⟨hknown, honce, hcommitted⟩, hquestions⟩
    simp only [isVisible_iff honce] at hquestions
    exact ⟨hknown, honce, hcommitted, hquestions⟩
  · intro hfilled
    simp only [isVisible_iff hfilled.once]
    exact ⟨hfilled.bounded h, ⟨hfilled.known, hfilled.once, hfilled.committed⟩, hfilled.settled⟩

end Acceptance

section Existence

variable {a : Answer}

theorem answered_append {id : Nat} :
    Answered (answers ++ [a]) id ↔ Answered answers id ∨ a.questionId = id := by
  simp [Answered, or_and_right, exists_or]

/-- An answer to a question on which the given one does not depend. -/
theorem conditionMet_append (h : a.questionId ≠ q.visibleIf.dependsOn) :
    ConditionMet (answers ++ [a]) q ↔ ConditionMet answers q := by
  simp [ConditionMet, or_and_right, exists_or, h]

theorem Published.init (h : Published (questions ++ [q])) : Published questions := by
  refine ⟨?_, ?_, ?_⟩
  · have hbounded := h.bounded
    rw [List.length_append] at hbounded
    omega
  · have hdistinct := h.distinct
    rw [List.map_append] at hdistinct
    exact hdistinct.of_append_left
  · intro before p after hsplit
    exact h.parents before p (after ++ [q]) (by rw [hsplit, List.append_assoc, List.cons_append])

theorem Published.last_fresh (h : Published (questions ++ [q])) : ∀ p ∈ questions, p.id ≠ q.id := by
  intro p hp hsame
  have hdistinct := h.distinct
  rw [List.map_append, List.map_singleton, List.nodup_append] at hdistinct
  exact hdistinct.2.2 p.id (List.mem_map_of_mem hp) q.id (List.mem_singleton_self _) hsame

/-- No question depends on the last. -/
theorem Published.independent (h : Published (questions ++ [q])) :
    ∀ p ∈ questions ++ [q], p.visibleIf.dependsOn ≠ 0 → q.id ≠ p.visibleIf.dependsOn := by
  intro p hp hdepends hsame
  have hearlier : ∃ r ∈ questions, r.id = p.visibleIf.dependsOn := by
    rcases List.mem_append.mp hp with hp | hp
    · obtain ⟨before, after, hsplit⟩ := List.append_of_mem hp
      obtain ⟨r, hr, hid⟩ := h.parents before p (after ++ [q]) (by simp [hsplit]) hdepends
      exact ⟨r, by rw [hsplit]; exact List.mem_append_left _ hr, hid⟩
    · rw [List.mem_singleton] at hp
      exact h.parents questions p [] (by rw [hp]) hdepends
  obtain ⟨r, hr, hid⟩ := hearlier
  exact h.last_fresh r hr (hid.trans hsame.symm)

theorem Filled.known_append (h : Filled questions answers) :
    ∀ a ∈ answers, ∃ p ∈ questions ++ [q], p.id = a.questionId := by
  intro a ha
  obtain ⟨p, hp, hsame⟩ := h.known a ha
  exact ⟨p, List.mem_append_left _ hp, hsame⟩

theorem Filled.last_unanswered (h : Filled questions answers)
    (hpublished : Published (questions ++ [q])) : ¬ Answered answers q.id := by
  rintro ⟨a, ha, hid⟩
  obtain ⟨p, hp, hsame⟩ := h.known a ha
  exact hpublished.last_fresh p hp (hsame.trans hid)

/-- The last question is answered where its condition holds. -/
theorem Filled.answer_last (h : Filled questions answers)
    (hpublished : Published (questions ++ [q])) (hmet : ConditionMet answers q) :
    Filled (questions ++ [q]) (answers ++ [⟨q.id, 1⟩]) := by
  have hkept : ∀ p ∈ questions ++ [q],
      ConditionMet (answers ++ [⟨q.id, 1⟩]) p ↔ ConditionMet answers p := by
    intro p hp
    by_cases hdepends : p.visibleIf.dependsOn = 0
    · simp [ConditionMet, hdepends]
    · exact conditionMet_append (hpublished.independent p hp hdepends)
  refine ⟨?_, ?_, ?_, ?_⟩
  · simp only [List.forall_mem_append, List.forall_mem_singleton]
    exact ⟨h.known_append, q, by simp, rfl⟩
  · rw [List.map_append, List.map_singleton, List.nodup_append_comm]
    refine List.nodup_cons.mpr ⟨?_, h.once⟩
    intro hid
    obtain ⟨a, ha, hsame⟩ := List.mem_map.mp hid
    exact h.last_unanswered hpublished ⟨a, ha, hsame⟩
  · simp only [List.forall_mem_append, List.forall_mem_singleton]
    exact ⟨h.committed, by decide⟩
  · intro p hp
    rw [hkept p hp, answered_append]
    rcases List.mem_append.mp hp with hp | hp
    · rw [or_iff_left fun hsame => hpublished.last_fresh p hp hsame.symm]
      exact h.settled p hp
    · rw [List.mem_singleton] at hp
      subst hp
      exact ⟨fun _ => hmet, fun _ _ => .inr rfl⟩

/-- The last question is left out unless it is required and its condition holds. -/
theorem Filled.leave_last (h : Filled questions answers)
    (hpublished : Published (questions ++ [q]))
    (hfree : ¬ (ConditionMet answers q ∧ q.required = true)) :
    Filled (questions ++ [q]) answers := by
  refine ⟨h.known_append, h.once, h.committed, ?_⟩
  intro p hp
  rcases List.mem_append.mp hp with hp | hp
  · exact h.settled p hp
  · rw [List.mem_singleton] at hp
    subst hp
    constructor
    · intro hanswered
      exact absurd hanswered (h.last_unanswered hpublished)
    · intro hcondition hrequired
      exact absurd ⟨hcondition, hrequired⟩ hfree

theorem Published.exists_filled (h : Published questions) : ∃ answers, Filled questions answers := by
  induction questions using List.reverseRecOn with
  | nil => exact ⟨[], by simp, by simp, by simp, by simp⟩
  | append_singleton questions q ih =>
    obtain ⟨answers, hanswers⟩ := ih h.init
    by_cases hmissing : ConditionMet answers q ∧ q.required = true
    · exact ⟨_, hanswers.answer_last h hmissing.1⟩
    · exact ⟨answers, hanswers.leave_last h hmissing⟩

/-- Every form that a run stores accepts exactly the answers that its specification allows, and it
accepts some. -/
theorem run_checkAnswers (is : List (Input contract)) {key : Bytes32 × Nat}
    (hstored : ((machine contract).run State.empty is).form key = some form) :
    (∀ answers, checkAnswers form answers = .ok () ↔ Acceptable form.questions answers) ∧
      ∃ answers, checkAnswers form answers = .ok () := by
  have hpublished := run_validated is key form hstored
  constructor
  · intro answers
    rw [checkAnswers_ok hpublished, hpublished.filled_iff]
  · obtain ⟨answers, hanswers⟩ := hpublished.exists_filled
    exact ⟨answers, (checkAnswers_ok hpublished).mpr hanswers⟩

theorem run_checkAnswers_sample :
    ∃ form, ((machine ⟨0⟩).run State.empty sampleProgram).form (5, 1) = some form ∧
      (checkAnswers form [⟨1, 9⟩] = .ok () ↔ Acceptable form.questions [⟨1, 9⟩]) := by
  obtain ⟨form, hform⟩ : ∃ form,
      ((machine ⟨0⟩).run State.empty sampleProgram).form (5, 1) = some form := ⟨_, rfl⟩
  exact ⟨form, hform, (run_checkAnswers sampleProgram hform).1 [⟨1, 9⟩]⟩

end Existence

end ChainVerse.MentorshipApplicationsContract
