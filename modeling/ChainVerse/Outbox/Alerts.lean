import ChainVerse.Outbox.Verdicts
import ChainVerse.Framework.Histories

namespace ChainVerse.ScholarshipOutbox

section Alerts

variable {contract : Address} {env : Env contract} {s s' : State} {call : Call}
  {answer : Answer} {id : Bytes32}

/-- The intents that wait for an operator. -/
def State.alarming (s : State) : Set Bytes32 := {id | Alarming (s.intent id)}

def Call.resolves : Call → Bool
  | .resolveSettlement .. => true
  | _ => false

def Call.opens (id : Bytes32) : Call → Bool
  | .openSettlement _ intentId _ _ _ _ => intentId = id
  | _ => false

def Call.archives (id : Bytes32) : Call → Bool
  | .archiveSettlement _ intentId => intentId = id
  | _ => false

/-- How many calls of a kind a journal holds. -/
def calls (kind : Call → Bool) (es : List (Entry State (Input contract) Answer)) : Nat :=
  es.countP fun e => kind e.input.call

theorem calls_append (kind : Call → Bool) (es : List (Entry State (Input contract) Answer))
    (e : Entry State (Input contract) Answer) :
    calls kind (es ++ [e]) = calls kind es + if kind e.input.call = true then 1 else 0 := by
  rw [calls, calls, List.countP_append, List.countP_singleton]

section Gauge

/-- Only a resolution takes a record out of the alarming ones. -/
theorem Move.alarm_le {before after : Option SettlementIntent}
    (h : Move env id call answer before after) :
    call.resolves = false ∧ alarm before ≤ alarm after ∨
      call.resolves = true ∧ alarm before = 1 ∧ alarm after = 0 := by
  cases h with
  | opened => exact .inl ⟨rfl, Nat.zero_le _⟩
  | observedAgain | decidedAgain => exact .inl ⟨rfl, le_rfl⟩
  | observed pending =>
    left
    simp [Call.resolves, alarm_some, pending, SettlementState.isAlerting]
  | reconciled pending | mismatched pending | expired pending =>
    left
    have hquiet : ∀ x : SettlementIntent, x.state = .pending → alarm (some x) = 0 := by
      intro x hx
      simp [alarm_some, hx, SettlementState.isAlerting]
    exact ⟨rfl, by rw [hquiet _ pending]; exact Nat.zero_le _⟩
  | resolved alerting =>
    right
    refine ⟨rfl, ?_, ?_⟩
    · rw [alarm_some, if_pos alerting]
    · rw [alarm_some]
      rfl
  | archived reconciled =>
    left
    simp [Call.resolves, alarm_some, alarm_none, reconciled, SettlementState.isAlerting]

/-- The alert counter against the alarming intents: a resolution is the only call that moves one and
not the other. -/
structure Alerted (s : State) (resolutions : Nat) : Prop where
  finite : s.alarming.Finite
  counted : s.alertedIntents = s.alarming.ncard + resolutions

theorem alerted_empty : Alerted State.empty 0 := by
  have hnone : State.empty.alarming = ∅ := by
    ext id
    simp [State.alarming, Alarming, State.empty]
  refine ⟨?_, ?_⟩
  · rw [hnone]
    exact Set.finite_empty
  · rw [hnone, Set.ncard_empty]
    rfl

theorem Alerted.step {resolutions : Nat} (hs : Alerted s resolutions) (hbook : Book s)
    (h : execute env s call = .ok (answer, s')) :
    Alerted s' (resolutions + if call.resolves = true then 1 else 0) := by
  rcases execute_settled hbook.named h with ⟨hcall, hsame⟩ | ⟨id, _, hsettled⟩
  · have hquiet : call.resolves = false := by
      cases call <;> simp_all [Call.intentId, Call.resolves]
    have halarming : s'.alarming = s.alarming := by rw [State.alarming, State.alarming, hsame.intent]
    rw [hquiet, if_neg Bool.false_ne_true, Nat.add_zero]
    exact ⟨halarming ▸ hs.finite, by rw [hsame.alerted, halarming, hs.counted]⟩
  · have halarming : s'.alarming =
        {other | Alarming (Function.update s.intent id (s'.intent id) other)} := by
      rw [State.alarming, ← hsettled.others]
    have hrow := ncard_update_row (p := Alarming) hs.finite id (s'.intent id)
    have hcounted := hs.counted
    have halerted := hsettled.alerted
    refine ⟨?_, ?_⟩
    · rw [halarming]
      exact finite_update_row (p := Alarming) hs.finite id _
    · rw [halarming]
      simp only [alarm, State.alarming] at *
      rcases hsettled.move.alarm_le with ⟨hquiet, hle⟩ | ⟨hresolves, hbefore, hafter⟩
      · simp only [alarm] at hle
        rw [hquiet, if_neg Bool.false_ne_true]
        omega
      · simp only [alarm] at hbefore hafter
        rw [hresolves, if_pos rfl]
        omega

/-- The alert counter never goes down. -/
theorem execute_alerted_mono (hbook : Book s) (h : execute env s call = .ok (answer, s')) :
    s.alertedIntents ≤ s'.alertedIntents := by
  rcases execute_settled hbook.named h with ⟨_, hsame⟩ | ⟨_, _, hsettled⟩
  · exact hsame.alerted.ge
  · rw [hsettled.alerted]
    exact Nat.le_add_right _ _

theorem run_alerted (contract : Address) (is : List (Input contract)) :
    Alerted ((machine contract).run State.empty is)
      (calls Call.resolves ((machine contract).journal State.empty is)) := by
  have hall : Book ((machine contract).run State.empty is) ∧
      Alerted ((machine contract).run State.empty is)
        (calls Call.resolves ((machine contract).journal State.empty is)) := by
    apply @Machine.run_journal_invariant _ _ _ _ _ (fun s (es : List (Entry State (Input contract)
      Answer)) => Book s ∧ Alerted s (calls Call.resolves es))
    · exact ⟨book_empty, alerted_empty⟩
    · rintro es s i answer s' ⟨hbook, halerted⟩ h
      refine ⟨execute_book hbook h, ?_⟩
      rw [calls_append]
      exact halerted.step hbook h
  exact hall.2

/-- The alert count is the number of intents that wait for an operator, and has gone down with
their resolutions only. -/
def AlertsFollow (contract : Address) (is : List (Input contract)) : Prop :=
  let m := machine contract
  let s := m.run State.empty is
  s.alertedIntents = s.alarming.ncard ∧
    ∀ e ∈ m.journal State.empty is,
      e.post.alertedIntents < e.pre.alertedIntents ↔ e.input.call.resolves = true

/-- The alert count follows the alarming intents exactly as long as none was resolved. -/
theorem alerts_follow_iff (is : List (Input contract)) :
    AlertsFollow contract is ↔
      ∀ e ∈ (machine contract).journal State.empty is, e.input.call.resolves = false := by
  have halerted := run_alerted contract is
  constructor
  · rintro ⟨hequal, _⟩
    have hnone : calls Call.resolves ((machine contract).journal State.empty is) = 0 := by
      have hcounted := halerted.counted
      omega
    intro e he
    simpa using List.countP_eq_zero.mp hnone e he
  · intro hquiet
    have hnone : calls Call.resolves ((machine contract).journal State.empty is) = 0 :=
      List.countP_eq_zero.mpr fun e he => by simp [hquiet e he]
    refine ⟨?_, fun e he => ?_⟩
    · have hcounted := halerted.counted
      rwa [hnone, Nat.add_zero] at hcounted
    · have hmono := execute_alerted_mono (journal_book he) (Machine.journal_step he).1
      rw [hquiet e he]
      exact iff_of_false (not_lt.mpr hmono) Bool.false_ne_true

/-- The admin `⟨1⟩` opens an intent, lets it expire and resolves it. -/
def sampleResolution : List (Input ⟨0⟩) :=
  [.initializeContract ⟨1⟩, .openSettlement ⟨1⟩ 7 ⟨2⟩ 8 100 5, .expireSettlement ⟨1⟩ 7,
    .resolveSettlement ⟨1⟩ 7 9].map (⟨.sample, ·⟩)

/-- After its only intent is resolved the contract still counts an alert. -/
theorem resolved_alert_counted :
    let s := (machine ⟨0⟩).run State.empty sampleResolution
    s.alertedIntents = 1 ∧ s.alarming = ∅ ∧ ¬ AlertsFollow ⟨0⟩ sampleResolution := by
  intro s
  have hcount : s.alertedIntents = 1 := by decide +kernel
  have hnone : s.alarming = ∅ := by
    ext id
    simp only [State.alarming, Set.mem_ofPred_eq, Set.mem_empty_iff_false, iff_false]
    rcases eq_or_ne id 7 with rfl | hne
    · decide +kernel
    · have hintent : s.intent id = none := by
        change (Function.update (Function.update (Function.update (fun _ => none) 7 _) 7 _) 7 _ :
          Bytes32 → Option SettlementIntent) id = none
        rw [Function.update_of_ne hne, Function.update_of_ne hne, Function.update_of_ne hne]
      rw [hintent]
      rintro ⟨_, habsent, _⟩
      cases habsent
  refine ⟨hcount, hnone, ?_⟩
  rintro ⟨hequal, _⟩
  change s.alertedIntents = s.alarming.ncard at hequal
  rw [hcount, hnone, Set.ncard_empty] at hequal
  cases hequal

end Gauge

section Openings

/-- An intent comes into storage by being opened and goes by being archived. -/
theorem Move.stored {before after : Option SettlementIntent}
    (h : Move env id call answer before after) :
    tracked before + (if call.opens id = true then 1 else 0) =
      tracked after + if call.archives id = true then 1 else 0 := by
  cases h <;> simp [Call.opens, Call.archives, tracked]

/-- In the journal no call opens the intent after one that archived it. -/
def NeverReopened (id : Bytes32) (es : List (Entry State (Input contract) Answer)) : Prop :=
  es.Pairwise fun earlier later =>
    ¬ (earlier.input.call.archives id = true ∧ later.input.call.opens id = true)

theorem intentId_of_opens (h : call.opens id = true) : call.intentId = some id := by
  cases call with
  | openSettlement => exact congrArg some (of_decide_eq_true h)
  | _ => cases h

theorem intentId_of_archives (h : call.archives id = true) : call.intentId = some id := by
  cases call with
  | archiveSettlement => exact congrArg some (of_decide_eq_true h)
  | _ => cases h

/-- A step keeps the openings of an intent level with its removals and its stored record. -/
theorem execute_opened (hbook : Book s) (h : execute env s call = .ok (answer, s'))
    (id : Bytes32) : tracked (s.intent id) + (if call.opens id = true then 1 else 0) =
      tracked (s'.intent id) + if call.archives id = true then 1 else 0 := by
  have hfalse : call.intentId ≠ some id →
      call.opens id = false ∧ call.archives id = false := by
    intro hother
    exact ⟨Bool.eq_false_iff.mpr fun h => hother (intentId_of_opens h),
      Bool.eq_false_iff.mpr fun h => hother (intentId_of_archives h)⟩
  rcases execute_settled hbook.named h with ⟨hcall, hsame⟩ | ⟨other, hcall, hsettled⟩
  · obtain ⟨hopens, harchives⟩ := hfalse (by simp [hcall])
    rw [hsame.intent, hopens, harchives]
  · rcases eq_or_ne id other with rfl | hne
    · exact hsettled.move.stored
    · obtain ⟨hopens, harchives⟩ := hfalse (by simpa [hcall] using hne.symm)
      rw [hsettled.others, Function.update_of_ne hne, hopens, harchives]

theorem neverReopened_append {es : List (Entry State (Input contract) Answer)}
    {e : Entry State (Input contract) Answer} :
    NeverReopened id (es ++ [e]) ↔ NeverReopened id es ∧
      (e.input.call.opens id = true → calls (Call.archives id) es = 0) := by
  rw [NeverReopened, NeverReopened, List.pairwise_append, calls, List.countP_eq_zero]
  simp only [List.pairwise_singleton, List.mem_singleton, forall_eq, true_and, not_and]
  refine and_congr_right fun _ => ?_
  constructor
  · intro h hopens earlier hearlier harchives
    exact h earlier hearlier harchives hopens
  · intro h earlier hearlier harchives hopens
    exact h hopens earlier hearlier harchives

theorem run_openings (is : List (Input contract)) (id : Bytes32) :
    let s := (machine contract).run State.empty is
    let es := (machine contract).journal State.empty is
    calls (Call.opens id) es = calls (Call.archives id) es + tracked (s.intent id) ∧
      (calls (Call.opens id) es ≤ 1 ↔ NeverReopened id es) := by
  intro s es
  have hall : Book s ∧ calls (Call.opens id) es = calls (Call.archives id) es +
      tracked (s.intent id) ∧ (calls (Call.opens id) es ≤ 1 ↔ NeverReopened id es) := by
    apply @Machine.run_journal_invariant _ _ _ _ _ (fun s (es : List (Entry State (Input contract)
      Answer)) => Book s ∧ calls (Call.opens id) es = calls (Call.archives id) es +
        tracked (s.intent id) ∧ (calls (Call.opens id) es ≤ 1 ↔ NeverReopened id es))
    · exact ⟨book_empty, rfl, iff_of_true (Nat.zero_le _) List.Pairwise.nil⟩
    · rintro es s i answer s' ⟨hbook, hlevel, hiff⟩ h
      have hstep := execute_opened hbook h id
      refine ⟨execute_book hbook h, ?_, ?_⟩
      · rw [calls_append, calls_append]
        dsimp only
        omega
      · rw [neverReopened_append, calls_append, ← hiff]
        by_cases hopens : i.call.opens id = true
        · rw [if_pos hopens] at hstep ⊢
          have harchives : i.call.archives id = false := by
            cases hcall : i.call <;> simp_all [Call.opens, Call.archives]
          rw [harchives, if_neg Bool.false_ne_true] at hstep
          have hbound : tracked (s'.intent id) ≤ 1 := by
            unfold tracked
            split_ifs <;> omega
          simp only [hopens, true_implies]
          omega
        · simp [hopens]
  exact hall.2

/-- An intent id is opened at most once exactly when it is not opened again after it was archived.
-/
theorem opened_once_iff (is : List (Input contract)) (id : Bytes32) :
    calls (Call.opens id) ((machine contract).journal State.empty is) ≤ 1 ↔
      NeverReopened id ((machine contract).journal State.empty is) :=
  (run_openings is id).2

/-- An intent is resolved and archived, and then the same payment is opened again. -/
theorem archived_intent_reopened :
    let is := sampleResolution ++
      [.archiveSettlement ⟨1⟩ 7, .openSettlement ⟨1⟩ 7 ⟨2⟩ 8 100 5].map (⟨.sample, ·⟩)
    calls (Call.opens 7) ((machine ⟨0⟩).journal State.empty is) = 2 := by
  decide +kernel

end Openings

end Alerts

variable {contract : Address} {env : Env contract} {s s' : State} {call : Call}
  {answer : Answer} {id : Bytes32}

def Call.observes (id : Bytes32) : Call → Bool
  | .observeSettlement _ intentId _ _ => intentId = id
  | _ => false

def Call.expires (id : Bytes32) : Call → Bool
  | .expireSettlement _ intentId => intentId = id
  | _ => false

/-- A transaction has been observed for an intent since it was last opened. -/
def Observed (id : Bytes32) (es : List (Entry State (Input contract) Answer)) : Prop :=
  Since (fun e => e.input.call.observes id = true) (fun e => e.input.call.opens id = true) es

section Steps

theorem intentId_of_observes (h : call.observes id = true) : call.intentId = some id := by
  cases call with
  | observeSettlement => exact congrArg some (of_decide_eq_true h)
  | _ => cases h

/-- A record shows an observed transaction when the call reports one, or when it did before and is not
a new record. -/
theorem Move.observed_iff {before : Option SettlementIntent} {y : SettlementIntent}
    (h : Move env id call answer before (some y)) : y.observedLedger ≠ 0 ↔
      call.observes id = true ∨
        (∃ x, before = some x ∧ x.observedLedger ≠ 0) ∧ call.opens id = false := by
  cases h with
  | observed _ unobserved past => simp [Call.observes, past.1]
  | observedAgain _ observed => simp [Call.observes, observed]
  | _ => simp [Call.observes, Call.opens, SettlementIntent.adjudicated]

/-- The same for every record of the book. -/
theorem execute_observed (hbook : Book s) (h : execute env s call = .ok (answer, s'))
    {y : SettlementIntent} (hy : s'.intent id = some y) : y.observedLedger ≠ 0 ↔
      call.observes id = true ∨
        (∃ x, s.intent id = some x ∧ x.observedLedger ≠ 0) ∧ call.opens id = false := by
  have hother : call.intentId ≠ some id → s'.intent id = s.intent id → (y.observedLedger ≠ 0 ↔
      call.observes id = true ∨
        (∃ x, s.intent id = some x ∧ x.observedLedger ≠ 0) ∧ call.opens id = false) := by
    intro hintent hsame
    have hobserves : call.observes id = false :=
      Bool.eq_false_iff.mpr fun h => hintent (intentId_of_observes h)
    have hopens : call.opens id = false :=
      Bool.eq_false_iff.mpr fun h => hintent (intentId_of_opens h)
    rw [← hsame, hy, hobserves, hopens]
    simp
  rcases execute_settled hbook.named h with ⟨hcall, hsame⟩ | ⟨other, hcall, hsettled⟩
  · exact hother (by simp [hcall]) (by rw [hsame.intent])
  · rcases eq_or_ne id other with rfl | hne
    · have hmove := hsettled.move
      rw [hy] at hmove
      exact hmove.observed_iff
    · apply hother
      · simpa [hcall] using hne.symm
      · rw [hsettled.others, Function.update_of_ne hne]

theorem Move.stored_before {before : Option SettlementIntent} {y : SettlementIntent}
    (h : Move env id call answer before (some y)) (hkept : call.opens id = false) :
    ∃ x, before = some x := by
  cases h with
  | opened => simp [Call.opens] at hkept
  | _ => exact ⟨_, rfl⟩

theorem execute_stored (hbook : Book s) (h : execute env s call = .ok (answer, s'))
    {y : SettlementIntent} (hy : s'.intent id = some y) (hkept : call.opens id = false) :
    ∃ x, s.intent id = some x := by
  rcases execute_record hbook h id with hsame | hmove
  · exact ⟨y, hsame ▸ hy⟩
  · rw [hy] at hmove
    exact hmove.stored_before hkept

/-- An expiry finds a record. -/
theorem execute_expires (h : execute env s call = .ok (answer, s'))
    (hexpires : call.expires id = true) : ∃ x, s.intent id = some x := by
  cases call with
  | expireSettlement operator named =>
    obtain rfl : named = id := of_decide_eq_true hexpires
    simp only [execute, quiet_eq_ok, expireSettlement, loadIntent, bind_eq_ok, orRefuse_eq_ok] at h
    obtain ⟨_, _, _, _, _, x, hstored, _⟩ := h
    exact ⟨x, hstored⟩
  | _ => cases hexpires

end Steps

section Runs

/-- A stored record shows an observed transaction exactly when one was reported since it was opened. -/
theorem run_observed (is : List (Input contract)) :
    Book ((machine contract).run State.empty is) ∧
    ∀ id x, ((machine contract).run State.empty is).intent id = some x →
      (x.observedLedger ≠ 0 ↔ Observed id ((machine contract).journal State.empty is)) := by
  apply Machine.run_journal_invariant (P := fun s es => Book s ∧ ∀ id x, s.intent id = some x →
    (x.observedLedger ≠ 0 ↔ Observed id es))
  · refine ⟨book_empty, ?_⟩
    intro id x hx
    cases hx
  · rintro es s i answer s' ⟨hbook, hall⟩ h
    refine ⟨execute_book hbook h, ?_⟩
    intro id y hy
    rw [execute_observed hbook h hy, Observed, since_snoc]
    refine or_congr_right ?_
    rw [Bool.not_eq_true]
    refine and_congr_left ?_
    intro hopens
    obtain ⟨x, hx⟩ := execute_stored hbook h hy hopens
    have hshown := hall id x hx
    rw [Observed] at hshown
    rw [hx, ← hshown]
    simp

/-- No expiry of a run is of an intent that a transaction was observed for exactly when each finds a
record that shows none. -/
theorem expired_unobserved_iff (is : List (Input contract)) :
    (∀ earlier e later id, (machine contract).journal State.empty is = earlier ++ e :: later →
      e.input.call.expires id = true → ¬Observed id earlier) ↔
    ∀ e ∈ (machine contract).journal State.empty is, ∀ id, e.input.call.expires id = true →
      ∀ x, e.pre.intent id = some x → x.observedLedger = 0 := by
  have hline : ∀ earlier e later id, (machine contract).journal State.empty is =
      earlier ++ e :: later → ∀ x, e.pre.intent id = some x →
        (x.observedLedger ≠ 0 ↔ Observed id earlier) := by
    intro earlier e later id hes x hx
    obtain ⟨js, ks, _, rfl, hpre, _⟩ := Machine.journal_split hes
    rw [← hpre] at hx
    exact (run_observed js).2 id x hx
  constructor
  · intro hnever e he id hexpires x hx
    obtain ⟨earlier, later, hes⟩ := List.append_of_mem he
    have hunobserved := hnever earlier e later id hes hexpires
    rw [← hline earlier e later id hes x hx] at hunobserved
    exact not_not.mp hunobserved
  · intro hfinds earlier e later id hes hexpires hobserved
    have he : e ∈ (machine contract).journal State.empty is := hes ▸ List.mem_append_cons_self
    obtain ⟨x, hx⟩ := execute_expires (Machine.journal_step he).1 hexpires
    exact (hline earlier e later id hes x hx).mpr hobserved (hfinds e he id hexpires x hx)

/-- An invocation at a later ledger, when a transaction of ledger 5 can be observed. -/
def observingEnv : Env ⟨0⟩ := Env.sample.atLedger 12 (by decide)

/-- The admin `⟨1⟩` opens an intent and reports its transaction. -/
def sampleObservation : List (Input ⟨0⟩) :=
  [.initializeContract ⟨1⟩, .openSettlement ⟨1⟩ 7 ⟨2⟩ 8 100 5, .observeSettlement ⟨1⟩ 7 11 5].map
    (⟨observingEnv, ·⟩)

/-- The intent expires all the same. -/
theorem observed_intent_expires :
    let m := machine ⟨0⟩
    let expiry : Input ⟨0⟩ := ⟨observingEnv, .expireSettlement ⟨1⟩ 7⟩
    (m.run State.empty (sampleObservation ++ [expiry])).intent 7 =
        some ⟨7, ⟨2⟩, 8, 100, .expired, 10, 5, 11, 5, 0, 0, 10, 0⟩ ∧
      ¬∀ earlier e later id, m.journal State.empty (sampleObservation ++ [expiry]) =
        earlier ++ e :: later → e.input.call.expires id = true → ¬Observed id earlier := by
  intro m expiry
  refine ⟨by decide +kernel, ?_⟩
  intro hnever
  have hshown : (m.run State.empty sampleObservation).intent 7 =
      some ⟨7, ⟨2⟩, 8, 100, .pending, 10, 5, 11, 5, 0, 0, 0, 0⟩ := by decide +kernel
  have hobserved : Observed 7 (m.journal State.empty sampleObservation) :=
    ((run_observed sampleObservation).2 7 _ hshown).mp (by decide)
  have haccepted : ∃ out, m.step (m.run State.empty sampleObservation) expiry = .ok out := by
    decide +kernel
  obtain ⟨⟨answer, s'⟩, hstep⟩ := haccepted
  apply hnever (m.journal State.empty sampleObservation)
    ⟨m.run State.empty sampleObservation, expiry, answer, s'⟩ [] 7 ?_ rfl hobserved
  rw [m.journal_append, m.journal_cons_ok hstep]
  rfl

end Runs

end ChainVerse.ScholarshipOutbox
