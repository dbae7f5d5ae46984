import ChainVerse.Outbox.Settlement

namespace ChainVerse.ScholarshipOutbox

variable {contract : Address} {env : Env contract} {s s' : State} {call : Call}
  {answer : Answer} {id : Bytes32}

/-- The intents that are stored. -/
def State.intents (s : State) : Set Bytes32 := {id | s.intent id ≠ none}

/-- The settlement book: every record under its own id, and a counter of the records. -/
structure Book (s : State) : Prop where
  named : Named s
  finite : s.intents.Finite
  counted : s.trackedIntents = s.intents.ncard

/-- The accepted call that found an intent settled as expected, once that was final. -/
def Adjudicated (e : Entry State (Input contract) Answer) (id : Bytes32) (x : SettlementIntent) :
    Prop :=
  (∃ operator, e.input.call = .reconcileSettlement operator id x.observedAmount) ∧
    e.post.intent id = some x ∧ Final e.input.env x ∧ x.observedAmount = x.expectedAmount

section Moves

/-- A record keeps the id it is stored under. -/
theorem Move.named {before : Option SettlementIntent} {y : SettlementIntent}
    (h : Move env id call answer before (some y)) (hs : ∀ x, before = some x → x.intentId = id) :
    y.intentId = id := by
  cases h with
  | opened => rfl
  | observedAgain | observed | decidedAgain | reconciled | mismatched | expired | resolved =>
    have hnamed := hs _ rfl
    exact hnamed

/-- Only a final adjudication or a resolution makes a record reconciled. -/
theorem Move.verdict {before : Option SettlementIntent} {y : SettlementIntent}
    (h : Move env id call answer before (some y)) (hstate : y.state = .reconciled)
    (hunresolved : y.resolutionHash = 0) :
    before = some y ∨ ((∃ operator, call = .reconcileSettlement operator id y.observedAmount) ∧
      Final env y ∧ y.observedAmount = y.expectedAmount) := by
  cases h with
  | opened | mismatched | expired => cases hstate
  | observed pending => simp [pending] at hstate
  | observedAgain | decidedAgain => exact .inl rfl
  | reconciled _ final => exact .inr ⟨⟨_, rfl⟩, ⟨final.observed, final.passed⟩, rfl⟩
  | resolved _ noted => exact absurd hunresolved noted

/-- An observed transaction stays with its record. -/
theorem Move.observation {x y : SettlementIntent}
    (h : Move env id call answer (some x) (some y)) (hobserved : x.observedLedger ≠ 0) :
    y.observedTxHash = x.observedTxHash ∧ y.observedLedger = x.observedLedger := by
  cases h with
  | observed _ unobserved => exact absurd unobserved hobserved
  | observedAgain | decidedAgain | reconciled | mismatched | expired | resolved => exact ⟨rfl, rfl⟩

/-- A decided record is left alone except by a resolution and by its removal. -/
theorem Move.decided {x : SettlementIntent} {after : Option SettlementIntent}
    (h : Move env id call answer (some x) after) (hdecided : x.state ≠ .pending) :
    after = some x ∨ (∃ operator hash, call = .resolveSettlement operator id hash) ∨
      (∃ operator, call = .archiveSettlement operator id) ∧ after = none := by
  cases h with
  | observedAgain | decidedAgain => exact .inl rfl
  | observed pending | reconciled pending | mismatched pending | expired pending =>
    exact absurd pending hdecided
  | resolved => exact .inr (.inl ⟨_, _, rfl⟩)
  | archived => exact .inr (.inr ⟨⟨_, rfl⟩, rfl⟩)

/-- A record goes only by being archived. -/
theorem Move.removed {x : SettlementIntent} (h : Move env id call answer (some x) none) :
    ∃ operator, call = .archiveSettlement operator id := by
  cases h with
  | archived => exact ⟨_, rfl⟩

end Moves

section Preservation

theorem book_empty : Book State.empty := by
  constructor
  · intro id x hx
    cases hx
  · simp [State.intents, State.empty]
  · simp [State.intents, State.empty]

theorem Book.of_same (hs : Book s) (h : SameIntents s s') : Book s' := by
  have hintents : s'.intents = s.intents := by rw [State.intents, State.intents, h.intent]
  constructor
  · intro id x hx
    exact hs.named id x (h.intent ▸ hx)
  · rw [hintents]
    exact hs.finite
  · rw [h.tracked, hintents]
    exact hs.counted

theorem Book.settled (hs : Book s) (h : Settled env s s' call answer id) : Book s' := by
  have hintents : s'.intents =
      {other | Function.update s.intent id (s'.intent id) other ≠ none} := by
    rw [State.intents, ← h.others]
  have hrow := ncard_update_row (p := (· ≠ none)) hs.finite id (s'.intent id)
  constructor
  · intro other y hy
    rcases eq_or_ne other id with rfl | hne
    · have hmove := h.move
      rw [hy] at hmove
      exact hmove.named fun x hx => hs.named other x hx
    · rw [h.others, Function.update_of_ne hne] at hy
      exact hs.named other y hy
  · rw [hintents]
    exact finite_update_row (p := (· ≠ none)) hs.finite id _
  · rw [h.counted, hs.counted, hintents]
    simp only [tracked, State.intents] at hrow ⊢
    omega

theorem execute_book (hs : Book s) (h : execute env s call = .ok (answer, s')) : Book s' := by
  rcases execute_settled hs.named h with ⟨_, hsame⟩ | ⟨_, _, hsettled⟩
  · exact hs.of_same hsame
  · exact hs.settled hsettled

/-- What an accepted call does to the record of any intent: nothing, or one move. -/
theorem execute_record (hs : Book s) (h : execute env s call = .ok (answer, s')) (id : Bytes32) :
    s'.intent id = s.intent id ∨ Move env id call answer (s.intent id) (s'.intent id) := by
  rcases execute_settled hs.named h with ⟨_, hsame⟩ | ⟨other, _, hsettled⟩
  · exact .inl (by rw [hsame.intent])
  · rcases eq_or_ne id other with rfl | hne
    · exact .inr hsettled.move
    · left
      rw [hsettled.others, Function.update_of_ne hne]

/-- A reconcile of a decided intent answers with the verdict and writes nothing. -/
theorem reconcile_decided {operator : Address} {amount : Int} {state : SettlementState}
    {x : SettlementIntent} (hstored : s.intent id = some x) (hdecided : x.state ≠ .pending)
    (h : reconcileSettlement env s operator id amount = .ok (state, s')) :
    state = x.state ∧ s' = s := by
  simp only [reconcileSettlement, loadIntent, hstored, bind_eq_ok, exists_unit, orRefuse_eq_ok,
    Option.some.injEq, exists_eq_left'] at h
  rw [if_pos hdecided] at h
  simp only [pure_eq_ok, Prod.mk.injEq] at h
  exact ⟨h.2.2.1.symm, h.2.2.2.symm⟩

end Preservation

section Runs

theorem run_book (contract : Address) (is : List (Input contract)) :
    Book ((machine contract).run State.empty is) :=
  Machine.run_invariant book_empty (fun _ _ _ _ hs h => execute_book hs h) is

theorem journal_book {is : List (Input contract)} {e : Entry State (Input contract) Answer}
    (he : e ∈ (machine contract).journal State.empty is) : Book e.pre :=
  Machine.journal_invariant book_empty (fun _ _ _ _ hs h => execute_book hs h) he

theorem run_adjudicated (is : List (Input contract)) {x : SettlementIntent}
    (hstored : ((machine contract).run State.empty is).intent id = some x)
    (hstate : x.state = .reconciled) (hunresolved : x.resolutionHash = 0) :
    ∃ e ∈ (machine contract).journal State.empty is, Adjudicated e id x := by
  have hall : Book ((machine contract).run State.empty is) ∧ ∀ x,
      ((machine contract).run State.empty is).intent id = some x → x.state = .reconciled →
      x.resolutionHash = 0 →
      ∃ e ∈ (machine contract).journal State.empty is, Adjudicated e id x := by
    apply @Machine.run_journal_invariant _ _ _ _ _ (fun s es => Book s ∧ ∀ x,
      s.intent id = some x → x.state = .reconciled → x.resolutionHash = 0 →
        ∃ e ∈ es, Adjudicated e id x)
    · refine ⟨book_empty, fun x hx => ?_⟩
      cases hx
    · rintro es s i answer s' ⟨hbook, hall⟩ h
      refine ⟨execute_book hbook h, fun y hy hstate hunresolved => ?_⟩
      have hkept : s.intent id = some y → ∃ e ∈ es ++ [⟨s, i, answer, s'⟩],
          Adjudicated e id y := by
        intro hold
        obtain ⟨e, he, hadjudicated⟩ := hall y hold hstate hunresolved
        exact ⟨e, List.mem_append_left _ he, hadjudicated⟩
      rcases execute_record hbook h id with hsame | hmove
      · exact hkept (hsame.symm.trans hy)
      · rw [hy] at hmove
        rcases hmove.verdict hstate hunresolved with hold | ⟨hcall, hfinal, hequal⟩
        · exact hkept hold
        · exact ⟨_, List.mem_append_cons_self, hcall, hy, hfinal, hequal⟩
  exact hall.2 x hstored hstate hunresolved

/-- As long as an intent is not archived, its observed transaction stays. -/
theorem run_observation (js : List (Input contract)) {x : SettlementIntent} (hs : Book s)
    (hstored : s.intent id = some x) (hobserved : x.observedLedger ≠ 0)
    (hkept : ∀ e ∈ (machine contract).journal s js, ∀ operator,
      e.input.call ≠ .archiveSettlement operator id) :
    ∃ y, ((machine contract).run s js).intent id = some y ∧
      y.observedTxHash = x.observedTxHash ∧ y.observedLedger = x.observedLedger := by
  have hall : Book ((machine contract).run s js) ∧
      ((∀ e ∈ (machine contract).journal s js, ∀ operator,
        e.input.call ≠ .archiveSettlement operator id) →
      ∃ y, ((machine contract).run s js).intent id = some y ∧
        y.observedTxHash = x.observedTxHash ∧ y.observedLedger = x.observedLedger) := by
    apply @Machine.run_journal_invariant _ _ _ _ _ (fun s (es : List (Entry State (Input contract)
      Answer)) => Book s ∧ ((∀ e ∈ es, ∀ operator, e.input.call ≠ .archiveSettlement operator id) →
        ∃ y, s.intent id = some y ∧ y.observedTxHash = x.observedTxHash ∧
          y.observedLedger = x.observedLedger))
    · exact ⟨hs, fun _ => ⟨x, hstored, rfl, rfl⟩⟩
    · rintro es s i answer s' ⟨hbook, hall⟩ h
      refine ⟨execute_book hbook h, fun hkept => ?_⟩
      obtain ⟨y, hy, hhash, hledger⟩ := hall fun e he => hkept e (List.mem_append_left _ he)
      have hlast := hkept _ List.mem_append_cons_self
      rcases execute_record hbook h id with hsame | hmove
      · exact ⟨y, hsame.trans hy, hhash, hledger⟩
      · rw [hy] at hmove
        rcases hafter : s'.intent id with _ | z
        · rw [hafter] at hmove
          obtain ⟨operator, hcall⟩ := hmove.removed
          exact absurd hcall (hlast operator)
        · rw [hafter] at hmove
          obtain ⟨hhash', hledger'⟩ := hmove.observation (by rwa [hledger])
          exact ⟨z, rfl, hhash'.trans hhash, hledger'.trans hledger⟩
  exact hall.2 hkept

/-- After any calls, whatever the ledger did meanwhile: an intent that is reconciled without a
resolution was adjudicated by a call that found the expected amount on a transaction past its
finality window; an observed transaction stays until the intent is archived; a decided intent was
left alone by every call but its resolution and its removal, a reconcile of it writes nothing; and
the counter of tracked intents counts the stored ones. -/
theorem run_settlement_safe (is : List (Input contract)) :
    let m := machine contract
    let s := m.run State.empty is
    (∀ id x, s.intent id = some x → x.state = .reconciled → x.resolutionHash = 0 →
      ∃ e ∈ m.journal State.empty is, Adjudicated e id x) ∧
    (∀ id x, s.intent id = some x → x.observedLedger ≠ 0 → ∀ js,
      (∀ e ∈ m.journal s js, ∀ operator, e.input.call ≠ .archiveSettlement operator id) →
      ∃ y, (m.run s js).intent id = some y ∧ y.observedTxHash = x.observedTxHash ∧
        y.observedLedger = x.observedLedger) ∧
    (∀ e ∈ m.journal State.empty is, ∀ id x, e.pre.intent id = some x → x.state ≠ .pending →
      e.post.intent id = some x ∨
        (∃ operator hash, e.input.call = .resolveSettlement operator id hash) ∨
        (∃ operator, e.input.call = .archiveSettlement operator id) ∧
          e.post.intent id = none) ∧
    (∀ (env : Env contract) operator id amount x, s.intent id = some x → x.state ≠ .pending →
      ∀ state s', reconcileSettlement env s operator id amount = .ok (state, s') →
        state = x.state ∧ s' = s) ∧
    s.trackedIntents = s.intents.ncard := by
  intro m s
  have hbook : Book s := run_book contract is
  refine ⟨?_, ?_, ?_, ?_, hbook.counted⟩
  · intro id x
    exact run_adjudicated is
  · intro id x hstored hobserved js hkept
    exact run_observation js hbook hstored hobserved hkept
  · intro e he id x hstored hdecided
    rcases execute_record (journal_book he) (Machine.journal_step he).1 id with hsame | hmove
    · exact .inl (hsame.trans hstored)
    · rw [hstored] at hmove
      exact hmove.decided hdecided
  · intro env operator id amount x hstored hdecided state s' h
    exact reconcile_decided hstored hdecided h

end Runs

end ChainVerse.ScholarshipOutbox
