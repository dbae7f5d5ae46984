import ChainVerse.Decisions.Records
import ChainVerse.Framework.Simulations

namespace ChainVerse.MentorshipApplications

variable {contract : Address} {crypto : Crypto} {env : Env contract} {s s' : State}
  {es : List (Step contract)} {coordinator : Address} {id : Bytes32} {action : DecisionAction}
  {input : DecisionInput} {seq : Nat}

/-- What `record_decision` asks of its arguments at any time. -/
structure DecisionInput.Proper (input : DecisionInput) (action : DecisionAction) : Prop where
  notWithdrawal : action.isWithdrawal = false
  reason : input.publicReason ≠ 0
  internalReason : ¬ (action.requiresInternalReason = true ∧ input.internalReasonHash = 0)

/-- The latest decision on an application is the one that a call asks for. -/
def Answered (s : State) (id : Bytes32) (action : DecisionAction) (input : DecisionInput)
    (seq : Nat) : Prop :=
  ∃ application last, s.application id = some application ∧ 0 < application.lastDecisionSeq ∧
    s.decision (id, application.lastDecisionSeq) = some last ∧
    last.Repeats application action input ∧ last.seq = seq

section Retries

theorem step_recordDecision :
    (machine contract crypto).step s ⟨env, .recordDecision coordinator id action input⟩ =
        .ok (.decision seq, s') ↔
      recordDecision env s coordinator id action input = .ok (seq, s') := by
  simp only [machine, execute, map_eq_ok, Prod.map, Prod.mk.injEq, Answer.decision.injEq, id_eq]
  constructor
  · intro hstep
    obtain ⟨⟨_, _⟩, hdecide, rfl, rfl⟩ := hstep
    exact hdecide
  · exact fun hdecide => ⟨(seq, s'), hdecide, rfl, rfl⟩

theorem recordDecision_proper (h : recordDecision env s coordinator id action input = .ok (seq, s')) :
    input.Proper action := by
  simp only [recordDecision, bind_eq_ok, refuseIf_eq_ok, exists_unit, Bool.not_eq_true] at h
  obtain ⟨_, hwithdrawal, hreason, hinternal, _⟩ := h
  exact ⟨hwithdrawal, hreason, hinternal⟩

/-- A decision that has been recorded is the latest one. -/
theorem Books.answered (hs : Books crypto s es)
    (h : recordDecision env s coordinator id action input = .ok (seq, s')) :
    Answered s' id action input seq := by
  have heffect := @recordDecision_effect contract crypto env s s' _ _ _ _ _ h
  generalize hcall : Call.recordDecision coordinator id action input = call at heffect
  generalize hanswer : Answer.decision seq = answer at heffect
  cases heffect with
  | appoint => cases hcall
  | coordinate => cases hcall
  | configure => cases hcall
  | submit => cases hcall
  | reapply => cases hcall
  | @resolve _ _ application record hfound _ _ hresolution =>
    have hrow := hs.resolve_row hfound record
    have hlatest : (s.resolve application record).decision (record.applicationId, record.seq) =
        some record := Function.update_self _ _ _
    cases hresolution with
    | withdrawal => cases hcall
    | decision =>
      cases hcall
      cases hanswer
      exact ⟨_, _, hrow, Nat.succ_pos _, hlatest, ⟨rfl, rfl, rfl, rfl⟩, rfl⟩
  | replay hreplayed =>
    cases hreplayed with
    | withdrawal => cases hcall
    | reapplication => cases hcall
    | decision hfound hdecided hlatest hrepeats =>
      cases hcall
      cases hanswer
      exact ⟨_, _, hfound, hdecided, hlatest, hrepeats, rfl⟩

/-- A recorded decision is repeated without effect exactly when the caller still has the authority and
the time that the call names has not passed. -/
theorem Answered.retry_iff (h : Answered s id action input seq) (hproper : input.Proper action) :
    recordDecision env s coordinator id action input = .ok (seq, s) ↔
      Authorized env s coordinator ∧ (input.effectiveAt = 0 ∨ env.timestamp ≤ input.effectiveAt) := by
  obtain ⟨application, last, hfound, hdecided, hlatest, hrepeats, hseq⟩ := h
  have hmatch : (some last).filter (fun last => decide (last.action = action ∧
      last.publicReason = input.publicReason ∧ last.internalReasonHash = input.internalReasonHash ∧
        application.status = action.targetStatus)) = some last := by
    rw [Option.filter_eq_some_iff]
    refine ⟨rfl, decide_eq_true ?_⟩
    exact ⟨hrepeats.same_action, hrepeats.same_reason, hrepeats.same_hash, hrepeats.status⟩
  have hlast : lastDecision s id application = .ok (some last) := by
    simp [lastDecision, hdecided, loadDecision, orRefuse, hlatest, Functor.map, Except.map]
  simp only [recordDecision, bind_eq_ok, exists_unit, requireCoordinator_ok, refuseIf_eq_ok,
    loadApplication, orRefuse_eq_ok, Bool.not_eq_true]
  constructor
  · intro hparts
    obtain ⟨hauthorized, _, _, _, t, heffective, _⟩ := hparts
    exact ⟨hauthorized, effectiveTime_ok.mp ⟨t, heffective⟩⟩
  · intro hparts
    obtain ⟨hauthorized, htime⟩ := hparts
    obtain ⟨t, heffective⟩ := effectiveTime_ok.mpr htime
    refine ⟨hauthorized, hproper.notWithdrawal, hproper.reason, hproper.internalReason, t, heffective,
      application, hfound, some last, hlast, ?_⟩
    rw [hmatch, ← hseq]
    rfl

end Retries

/-- Each program's counter is the number of its applications under way, the history of every
application is numbered without a gap and only grows, closed applications stay as they are, and a
decision is repeated without effect exactly while its caller keeps the authority and the effective
time that it names has not passed. -/
theorem run_decisions {admin : Option Address} {coordinators : Address → Bool}
    {policy : Bytes32 → Option ProgramPolicy} (is : List (Input contract))
    (hfree : CollisionFree crypto.sha256 (hashed crypto
      ((machine contract crypto).journal (State.configured admin coordinators policy) is))) :
    let m := machine contract crypto
    let s₀ := State.configured admin coordinators policy
    let s := m.run s₀ is
    (∀ programId, {id | PendingIn programId (s.application id)}.Finite ∧
      s.activeCount programId = {id | PendingIn programId (s.application id)}.ncard) ∧
    (∀ id application, s.application id = some application →
      application.lastDecisionSeq = application.decisionCount ∧
      (∀ seq, s.decision (id, seq) ≠ none ↔ 1 ≤ seq ∧ seq ≤ application.decisionCount) ∧
      ∀ seq record, s.decision (id, seq) = some record →
        record.seq = seq ∧ record.applicationId = id) ∧
    (∀ earlier, earlier <+: is → ∀ id record, (m.run s₀ earlier).decision id = some record →
      s.decision id = some record) ∧
    (∀ earlier, earlier <+: is → ∀ id application,
      (m.run s₀ earlier).application id = some application → application.status.isFinal = true →
      s.application id = some application) ∧
    ∀ earlier i later, is = earlier ++ i :: later →
      ∀ coordinator id action input seq s₁,
        i.call = .recordDecision coordinator id action input →
        m.step (m.run s₀ earlier) i = .ok (.decision seq, s₁) →
        (∀ j ∈ later, j.call.subject ≠ some id) → ∀ env : Env contract,
          (m.step s ⟨env, i.call⟩ = .ok (.decision seq, s) ↔
            Authorized env s coordinator ∧
              (input.effectiveAt = 0 ∨ env.timestamp ≤ input.effectiveAt)) := by
  intro m s₀ s
  have hstart : Books crypto s₀ ([] : List (Step contract)) := books_configured
  obtain ⟨hs, _, _⟩ := run_books hstart is hfree
  have hsplit : ∀ earlier later, is = earlier ++ later →
      Books crypto (m.run s₀ earlier) (m.journal s₀ earlier) ∧ Grows (m.run s₀ earlier) s := by
    intro earlier later hjoined
    rw [hjoined, m.journal_append] at hfree
    obtain ⟨hearlier, _, _⟩ := run_books hstart earlier (hashed_left hfree)
    obtain ⟨_, hgrows, _⟩ := run_books hearlier later hfree
    refine ⟨hearlier, ?_⟩
    show Grows (m.run s₀ earlier) (m.run s₀ is)
    rw [hjoined, m.run_append]
    exact hgrows
  refine ⟨?_, ?_, ?_, ?_, ?_⟩
  · exact fun programId => ⟨hs.finite programId, hs.active programId⟩
  · intro id application hstored
    have hrecorded := hs.history id application hstored
    refine ⟨hrecorded.latest, hrecorded.dense, ?_⟩
    intro seq record hrecord
    rw [← hs.ids id application hstored]
    exact hrecorded.numbered seq record hrecord
  · intro earlier hprefix id record hrecord
    obtain ⟨later, hjoined⟩ := hprefix
    exact (hsplit earlier later hjoined.symm).2.decisions id record hrecord
  · intro earlier hprefix id application hstored hfinal
    obtain ⟨later, hjoined⟩ := hprefix
    obtain ⟨new, hnew, hbecomes⟩ :=
      (hsplit earlier later hjoined.symm).2.rows id application hstored
    rw [hnew, hbecomes.final hfinal]
  · intro earlier i later hjoined coordinator id action input seq s₁ hcall hfirst hothers env
    have hdecided : recordDecision i.env (m.run s₀ earlier) coordinator id action input =
        .ok (seq, s₁) := by
      obtain ⟨env, call⟩ := i
      dsimp only at hcall
      rw [hcall] at hfirst
      exact step_recordDecision.mp hfirst
    have hanswered := (hsplit earlier (i :: later) hjoined).1.answered hdecided
    -- What the first call has left stays until the retry.
    have hstays : Answered s id action input seq := by
      obtain ⟨application, last, hfound, hrest⟩ := hanswered
      have hthrough : is = (earlier ++ [i]) ++ later := by simp [hjoined]
      have hreached : m.run s₀ (earlier ++ [i]) = s₁ := by
        rw [m.run_append, m.run_cons, m.run_nil, m.next_ok hfirst]
      obtain ⟨hbooks, _⟩ := hsplit (earlier ++ [i]) later hthrough
      rw [hthrough, m.journal_append] at hfree
      obtain ⟨_, _, hframe⟩ := run_books hbooks later hfree
      rw [← m.run_append, ← hthrough, hreached] at hframe
      obtain ⟨hrow, hhistory⟩ := hframe id application hfound hothers
      refine ⟨application, last, hrow, ?_⟩
      rw [hhistory]
      exact hrest
    rw [← hstays.retry_iff (recordDecision_proper hdecided), hcall]
    exact step_recordDecision

section Samples

/-- A decision that takes effect at 15. -/
def sampleReview : Call :=
  .recordDecision ⟨1⟩ sampleIds.1 .review ⟨7, 0, 15, .notifyImmediately⟩

def sampleReviewed : List (Input ⟨0⟩) :=
  [⟨.sample, .openApplication ⟨2⟩ 5 1⟩, ⟨.sample, sampleReview⟩]

theorem run_decisions_sample :
    let s := (machine ⟨0⟩ sampleCrypto).run (sampleConfigured 2) sampleReviewed
    s.activeCount 5 = 1 ∧ s.activeCount 5 = {id | PendingIn 5 (s.application id)}.ncard := by
  have hdecisions := @run_decisions ⟨0⟩ sampleCrypto (some ⟨1⟩) (fun _ => false)
    (sampleConfigured 2).policy sampleReviewed (by decide +kernel)
  exact ⟨by decide +kernel, (hdecisions.1 5).2⟩

/-- The same call at 20 is refused, because the time that it names has passed. -/
theorem retry_refused_later :
    let m := machine ⟨0⟩ sampleCrypto
    m.verdicts (sampleConfigured 2) (sampleReviewed ++ [⟨.sampleLater, sampleReview⟩]) =
      [none, none, some (.err .invalidEffectiveTime)] := by
  decide +kernel

end Samples

end ChainVerse.MentorshipApplications
