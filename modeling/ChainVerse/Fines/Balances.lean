import ChainVerse.Fines.Ledger
import ChainVerse.Framework.Tables

namespace ChainVerse.LibraryFinesContract

variable {contract : Address} {s s' : State}

/-- An accepted call of a run, with the stores around it. -/
abbrev Step (contract : Address) := Entry State (Input contract) Unit

section Quantities

/-- The deltas of a patron's entries, added up. -/
def State.deltaSum (s : State) (patronRef : Bytes32) : Int :=
  ∑ seq ∈ Finset.range (s.entryCount patronRef),
    (s.entry (patronRef, seq)).elim 0 LedgerEntry.delta

/-- The order of the states of a settlement. -/
def SettlementState.precedes : SettlementState → SettlementState → Bool
  | .pending, .confirmed | .pending, .failed | .confirmed, .refunded
  | .confirmed, .reversed => true
  | _, _ => false

/-- The entries that a settlement has posted by the time it is in its state. -/
def Settlement.posts (settlement : Settlement) : List (EntryKind × Int) :=
  match settlement.state with
  | .pending | .failed => []
  | .confirmed => [(.payment, -settlement.amount)]
  | .refunded => [(.payment, -settlement.amount), (.refund, settlement.amount)]
  | .reversed => [(.payment, -settlement.amount), (.reversal, settlement.amount)]

/-- The entry that a call has appended to a patron's ledger. -/
def appended (patronRef : Bytes32) (e : Step contract) : List LedgerEntry :=
  if e.post.entryCount patronRef = e.pre.entryCount patronRef then []
  else (e.post.entry (patronRef, e.pre.entryCount patronRef)).toList

/-- What a call has posted to a patron's ledger for settlement `id`. -/
def settled (id patronRef : Bytes32) (e : Step contract) : List (EntryKind × Int) :=
  if e.input.call.settlementId = some id then
    (appended patronRef e).map fun entry => (entry.kind, entry.delta)
  else []

/-- What settlement `id` should have posted to a patron's ledger. -/
def State.due (s : State) (id patronRef : Bytes32) : List (EntryKind × Int) :=
  match s.settlement id with
  | some settlement => if settlement.patronRef = patronRef then settlement.posts else []
  | none => []

end Quantities

/-- The ledger is dense, every entry has its own reference, and the balances follow from the
entries. -/
structure Ledgered (s : State) : Prop where
  dense : ∀ p k, (s.entry (p, k)).isSome = true ↔ k < s.entryCount p
  owned : ∀ p k entry, s.entry (p, k) = some entry →
    entry.patronRef = p ∧ s.refExists entry.refId = true
  distinct : ∀ i j a b, s.entry i = some a → s.entry j = some b → a.refId = b.refId → i = j
  balance : ∀ p, s.balance p = s.deltaSum p
  solvent : ∀ p, 0 ≤ s.balance p

/-- The store after the calls `es`: the references and the settlements are those of the calls. -/
structure Accounted (s : State) (es : List (Step contract)) : Prop extends Ledgered s where
  amounts : ∀ id settlement, s.settlement id = some settlement → 0 < settlement.amount
  references : ∀ refId, es.countP (fun e => e.input.call.refId = some refId) =
    if s.refExists refId then 1 else 0
  settlements : ∀ id p, es.flatMap (settled id p) = s.due id p

section Ledger

theorem ledgered_empty : Ledgered State.empty := by
  constructor <;> simp [State.empty, State.deltaSum]

theorem Ledgered.vacant (h : Ledgered s) (p : Bytes32) : s.entry (p, s.entryCount p) = none := by
  have hdense := h.dense p (s.entryCount p)
  rw [← Option.not_isSome_iff_eq_none, hdense]
  exact Nat.lt_irrefl _

/-- The rows after an entry is appended: its own one, and those from before. -/
theorem posted_entry {entry row : LedgerEntry} {i : Bytes32 × Nat}
    (h : (s.posted entry).entry i = some row) :
    i = (entry.patronRef, s.entryCount entry.patronRef) ∧ row = entry ∨
      i ≠ (entry.patronRef, s.entryCount entry.patronRef) ∧ s.entry i = some row := by
  rcases update_row_cases h with ⟨hi, hrow⟩ | hold
  · exact .inl ⟨hi, hrow.symm⟩
  · exact .inr hold

theorem posted_deltaSum (entry : LedgerEntry) (p : Bytes32) :
    (s.posted entry).deltaSum p =
      s.deltaSum p + if p = entry.patronRef then entry.delta else 0 := by
  unfold State.deltaSum State.posted
  dsimp only
  by_cases hp : p = entry.patronRef
  · have hold : ∀ seq ∈ Finset.range (s.entryCount entry.patronRef),
        (entry.patronRef, seq) ≠ (entry.patronRef, s.entryCount entry.patronRef) := by
      intro seq hseq heq
      rw [Prod.mk.injEq] at heq
      exact (Finset.mem_range.mp hseq).ne heq.2
    rw [hp, if_pos rfl, Function.update_self, Finset.sum_range_succ, Function.update_self]
    congr 1
    refine Finset.sum_congr rfl fun seq hseq => ?_
    rw [Function.update_of_ne (hold seq hseq)]
  · have hother : ∀ seq, (p, seq) ≠ (entry.patronRef, s.entryCount entry.patronRef) := by
      intro seq heq
      rw [Prod.mk.injEq] at heq
      exact hp heq.1
    simp only [Function.update_of_ne hp, Function.update_of_ne (hother _), if_neg hp, add_zero]

theorem Ledgered.posted_dense (h : Ledgered s) (entry : LedgerEntry) (p : Bytes32) (k : Nat) :
    ((s.posted entry).entry (p, k)).isSome = true ↔ k < (s.posted entry).entryCount p := by
  have hdense := h.dense p k
  unfold State.posted
  by_cases hp : p = entry.patronRef
  · rw [hp] at hdense ⊢
    dsimp only
    rw [Function.update_self]
    by_cases hk : k = s.entryCount entry.patronRef
    · rw [hk, Function.update_self]
      simp
    · have hne : (entry.patronRef, k) ≠ (entry.patronRef, s.entryCount entry.patronRef) := by
        simpa using hk
      rw [Function.update_of_ne hne, hdense]
      omega
  · have hne : (p, k) ≠ (entry.patronRef, s.entryCount entry.patronRef) := by
      intro heq
      rw [Prod.mk.injEq] at heq
      exact hp heq.1
    dsimp only
    rw [Function.update_of_ne hne, Function.update_of_ne hp, hdense]

/-- An appended entry joins the ledger of its patron. -/
theorem Ledgered.posted {entry : LedgerEntry} (h : Ledgered s)
    (hfresh : s.refExists entry.refId = false)
    (hcovered : 0 ≤ s.balance entry.patronRef + entry.delta) : Ledgered (s.posted entry) := by
  have hunused : ∀ i row, s.entry i = some row → row.refId ≠ entry.refId := by
    intro i row hrow heq
    have hused := (h.owned i.1 i.2 row hrow).2
    rw [heq, hfresh] at hused
    cases hused
  refine ⟨h.posted_dense entry, ?_, ?_, ?_, ?_⟩
  · intro p k row hrow
    rcases posted_entry hrow with ⟨hi, rfl⟩ | ⟨_, hold⟩
    · rw [Prod.mk.injEq] at hi
      exact ⟨hi.1.symm, Function.update_self _ _ _⟩
    · obtain ⟨howner, hused⟩ := h.owned p k row hold
      exact ⟨howner, (Function.update_of_ne (hunused _ row hold) _ _).trans hused⟩
  · intro i j a b hi hj hsame
    rcases posted_entry hi with ⟨hi, rfl⟩ | ⟨_, ha⟩
    · rcases posted_entry hj with ⟨hj, _⟩ | ⟨_, hb⟩
      · rw [hi, hj]
      · exact absurd hsame.symm (hunused j b hb)
    · rcases posted_entry hj with ⟨_, rfl⟩ | ⟨_, hb⟩
      · exact absurd hsame (hunused i a ha)
      · exact h.distinct i j a b ha hb hsame
  · intro p
    rw [posted_deltaSum, ← h.balance p]
    by_cases hp : p = entry.patronRef
    · simp [State.posted, hp]
    · simp [State.posted, hp]
  · intro p
    by_cases hp : p = entry.patronRef
    · simpa [State.posted, hp] using hcovered
    · simpa [State.posted, hp] using h.solvent p

/-- No posting of a settlement takes a balance below zero. -/
theorem Posting.covered {settlement : Settlement} {balance delta : Int} {kind : EntryKind}
    {state : SettlementState} (h : Posting settlement balance kind delta state)
    (hamount : 0 < settlement.amount) (hbalance : 0 ≤ balance) : 0 ≤ balance + delta := by
  cases h with
  | confirm _ hcovered => omega
  | refund => omega
  | reverse => omega

/-- Every call leaves the ledger as it is or appends one entry. -/
theorem Effect.ledgered {call : Call} (h : Effect s call s') (hs : Ledgered s)
    (hamounts : ∀ id settlement, s.settlement id = some settlement → 0 < settlement.amount) :
    Ledgered s' := by
  cases h with
  | configure => exact ⟨hs.dense, hs.owned, hs.distinct, hs.balance, hs.solvent⟩
  | @record entry _ _ hfresh hcovered =>
    apply hs.posted hfresh
    have hsolvent := hs.solvent entry.patronRef
    omega
  | initiate => exact ⟨hs.dense, hs.owned, hs.distinct, hs.balance, hs.solvent⟩
  | fail => exact ⟨hs.dense, hs.owned, hs.distinct, hs.balance, hs.solvent⟩
  | @settle id settlement entry state _ _ hfound hfresh howner hposting =>
    have hamount := hamounts id settlement hfound
    have hsolvent := hs.solvent entry.patronRef
    have hcovered : 0 ≤ s.balance entry.patronRef + entry.delta := by
      rw [howner] at hsolvent ⊢
      exact hposting.covered hamount hsolvent
    have hposted := hs.posted hfresh hcovered
    exact ⟨hposted.dense, hposted.owned, hposted.distinct, hposted.balance, hposted.solvent⟩

/-- An entry that has been appended is never written again. -/
theorem Effect.keeps_entry {call : Call} {i : Bytes32 × Nat} {entry : LedgerEntry}
    (h : Effect s call s') (hs : Ledgered s) (hentry : s.entry i = some entry) :
    s'.entry i = some entry := by
  cases h with
  | configure => exact hentry
  | record => exact update_keeps_row (hs.vacant _) hentry
  | initiate => exact hentry
  | fail => exact hentry
  | settle => exact update_keeps_row (hs.vacant _) hentry

end Ledger

section Accounts

variable {es : List (Step contract)} {i : Input contract} {o : Unit}

theorem appended_posted {p : Bytes32} {entry : LedgerEntry} {e : Step contract}
    (hcount : e.post.entryCount = (e.pre.posted entry).entryCount)
    (hentry : e.post.entry = (e.pre.posted entry).entry) :
    appended p e = if entry.patronRef = p then [entry] else [] := by
  unfold appended
  rw [hcount, hentry]
  by_cases hp : entry.patronRef = p
  · simp [State.posted, ← hp]
  · simp [State.posted, hp, Ne.symm hp]

theorem Posting.precedes {settlement : Settlement} {balance delta : Int} {kind : EntryKind}
    {state : SettlementState} (h : Posting settlement balance kind delta state) :
    settlement.state.precedes state = true := by
  cases h with
  | confirm hpending =>
    rw [hpending]
    rfl
  | refund hconfirmed =>
    rw [hconfirmed]
    rfl
  | reverse hconfirmed =>
    rw [hconfirmed]
    rfl

theorem Posting.posts {settlement : Settlement} {balance delta : Int} {kind : EntryKind}
    {state : SettlementState} (h : Posting settlement balance kind delta state) :
    ({ settlement with state := state } : Settlement).posts =
      settlement.posts ++ [(kind, delta)] := by
  cases h with
  | confirm hpending => simp [Settlement.posts, hpending]
  | refund hconfirmed => simp [Settlement.posts, hconfirmed]
  | reverse hconfirmed => simp [Settlement.posts, hconfirmed]

/-- A call that leaves the ledger has appended nothing. -/
theorem appended_same {p : Bytes32} {e : Step contract}
    (hcount : e.post.entryCount = e.pre.entryCount) : appended p e = [] := by
  rw [appended, hcount, if_pos rfl]

theorem due_save {id named p : Bytes32} {settlement : Settlement}
    (hstate : s'.settlement = Function.update s.settlement named (some settlement)) :
    s'.due id p = if named = id then (if settlement.patronRef = p then settlement.posts else [])
      else s.due id p := by
  unfold State.due
  rw [hstate]
  by_cases hid : named = id
  · simp [hid]
  · rw [Function.update_of_ne (Ne.symm hid), if_neg hid]

theorem posted_due {entry : LedgerEntry} {id p : Bytes32} :
    (s.posted entry).due id p = s.due id p := rfl

/-- A call posts to each ledger what its settlement comes to owe there. -/
theorem Effect.settled (h : Effect s i.call s') (id p : Bytes32) :
    s'.due id p = s.due id p ++ settled id p (⟨s, i, o, s'⟩ : Step contract) := by
  unfold LibraryFinesContract.settled
  dsimp only
  generalize i.call = call at h
  cases h with
  | configure hunnamed => simp [State.due, hunnamed.2]
  | record _ hplain => simp [State.due, State.posted, hplain]
  | @initiate named settlement _ habout habsent _ hpending =>
    rw [habout, due_save rfl, appended_same rfl]
    by_cases hid : named = id
    · have hnone : s.due id p = [] := by simp [State.due, ← hid, habsent]
      simp [hnone, Settlement.posts, hpending, hid]
    · simp [hid]
  | @fail named settlement _ habout hfound hpending =>
    rw [habout, due_save rfl, appended_same rfl]
    by_cases hid : named = id
    · have hnone : s.due id p = [] := by
        simp [State.due, ← hid, hfound, Settlement.posts, hpending]
      simp [hnone, Settlement.posts, hid]
    · simp [hid]
  | @settle named settlement entry _ _ habout hfound _ howner hposting =>
    rw [habout, due_save rfl, appended_posted rfl rfl, hposting.posts, howner]
    by_cases hid : named = id
    · have hold : s.due id p = if settlement.patronRef = p then settlement.posts else [] := by
        rw [State.due, ← hid, hfound]
      rw [if_pos hid, if_pos (congrArg some hid), hold]
      by_cases hp : settlement.patronRef = p
      · simp [hp]
      · simp [hp]
    · simp [hid, posted_due]

/-- The calls that post under a reference are those that use it up. -/
theorem Effect.references {call : Call} (h : Effect s call s') (refId : Bytes32) :
    (if s'.refExists refId then 1 else 0) =
      (if s.refExists refId then 1 else 0) + if call.refId = some refId then 1 else 0 := by
  have hused : ∀ {x : Bytes32}, s.refExists x = false →
      (if Function.update s.refExists x true refId then 1 else 0) =
        (if s.refExists refId then 1 else 0) + if some x = some refId then 1 else 0 := by
    intro x hfresh
    by_cases hx : refId = x
    · simp [hx, hfresh]
    · simp [hx, Ne.symm hx]
  cases h with
  | configure hunnamed => simp [hunnamed.1]
  | record hnamed _ hfresh =>
    rw [hnamed]
    exact hused hfresh
  | initiate hnamed =>
    rw [hnamed, if_neg (Option.some_ne_none refId).symm]
    rfl
  | fail hnamed =>
    rw [hnamed, if_neg (Option.some_ne_none refId).symm]
    rfl
  | settle hnamed _ _ hfresh =>
    rw [hnamed]
    exact hused hfresh

/-- How a call moves a settlement on, if it does. -/
theorem Effect.transition {call : Call} (h : Effect s call s') (id : Bytes32) :
    s'.settlement id = s.settlement id ∨
    (s.settlement id = none ∧
      ∃ settlement, s'.settlement id = some settlement ∧ settlement.state = .pending) ∨
    ∃ settlement state, s.settlement id = some settlement ∧
      s'.settlement id = some { settlement with state := state } ∧
      settlement.state.precedes state = true := by
  have hmoved : ∀ {named : Bytes32} {settlement : Settlement} {state : SettlementState},
      s.settlement named = some settlement → settlement.state.precedes state = true →
      s'.settlement = Function.update s.settlement named
        (some { settlement with state := state }) →
      s'.settlement id = s.settlement id ∨
      (s.settlement id = none ∧
        ∃ settlement, s'.settlement id = some settlement ∧ settlement.state = .pending) ∨
      ∃ settlement state, s.settlement id = some settlement ∧
        s'.settlement id = some { settlement with state := state } ∧
        settlement.state.precedes state = true := by
    intro named settlement state hfound hprecedes hstate
    rw [hstate]
    by_cases hid : id = named
    · rw [hid, Function.update_self]
      exact .inr (.inr ⟨settlement, state, hfound, rfl, hprecedes⟩)
    · rw [Function.update_of_ne hid]
      exact .inl rfl
  cases h with
  | configure => exact .inl rfl
  | record => exact .inl rfl
  | @initiate named settlement _ _ habsent _ hpending =>
    simp only [saveSettlement]
    by_cases hid : id = named
    · rw [hid, Function.update_self]
      exact .inr (.inl ⟨habsent, settlement, rfl, hpending⟩)
    · rw [Function.update_of_ne hid]
      exact .inl rfl
  | fail _ _ hfound hpending => exact hmoved hfound (by rw [hpending]; rfl) rfl
  | settle _ _ hfound _ _ hposting => exact hmoved hfound hposting.precedes rfl

theorem Effect.amounts {call : Call} (h : Effect s call s')
    (hs : ∀ id settlement, s.settlement id = some settlement → 0 < settlement.amount) :
    ∀ id settlement, s'.settlement id = some settlement → 0 < settlement.amount := by
  cases h with
  | configure => exact hs
  | record => exact hs
  | initiate _ _ _ hpositive => exact forall_update_row hs rfl hpositive
  | @fail id settlement _ _ hfound => exact forall_update_row hs rfl (hs id settlement hfound)
  | @settle id settlement _ _ _ _ hfound => exact forall_update_row hs rfl (hs id settlement hfound)

theorem accounted_empty : Accounted State.empty ([] : List (Step contract)) where
  toLedgered := ledgered_empty
  amounts _ _ h := by cases h
  references _ := rfl
  settlements _ _ := rfl

theorem Effect.accounted (h : Effect s i.call s') (hs : Accounted s es) :
    Accounted s' (es ++ [⟨s, i, o, s'⟩]) := by
  refine ⟨h.ledgered hs.toLedgered hs.amounts, h.amounts hs.amounts, ?_, ?_⟩
  · intro refId
    rw [List.countP_append, hs.references refId, h.references refId]
    simp [List.countP_cons]
  · intro id p
    rw [List.flatMap_append, hs.settlements id p, h.settled id p, List.flatMap_singleton]

theorem run_accounted (is : List (Input contract)) :
    Accounted ((machine contract).run State.empty is)
      ((machine contract).journal State.empty is) :=
  Machine.run_journal_invariant accounted_empty
    (fun _ _ _ _ _ hs h => (step_effect h).accounted hs) is

theorem run_keeps_entry {i : Bytes32 × Nat} {entry : LedgerEntry} (hs : Accounted s es)
    (hentry : s.entry i = some entry) (later : List (Input contract)) :
    ((machine contract).run s later).entry i = some entry := by
  let Inv (t : State) : Prop := (∃ fs : List (Step contract), Accounted t fs) ∧ t.entry i = some entry
  have hstart : Inv s := ⟨⟨es, hs⟩, hentry⟩
  have hstep : ∀ t (i : Input contract) o t', Inv t → (machine contract).step t i = .ok (o, t') →
      Inv t' := by
    intro t i o t' ht h
    obtain ⟨⟨fs, hfs⟩, hkept⟩ := ht
    have heffect := step_effect h
    exact ⟨⟨_, heffect.accounted (o := o) hfs⟩, heffect.keeps_entry hfs.toLedgered hkept⟩
  exact (Machine.run_invariant hstart hstep later : Inv _).2

end Accounts

/-- The fines ledger: each patron's balance is the sum of the deltas of its entries, which are dense
and never rewritten, and is never negative; a reference is accepted once; and a settlement has posted,
to its patron's ledger only, what its state says, in the order of the states. -/
theorem run_ledger (is later : List (Input contract)) :
    let m := machine contract
    let s := m.run State.empty is
    let journal := m.journal State.empty is
    (∀ p, s.balance p = ∑ seq ∈ Finset.range (s.entryCount p),
        (s.entry (p, seq)).elim 0 LedgerEntry.delta ∧ 0 ≤ s.balance p) ∧
    (∀ p seq, (∃ entry, s.entry (p, seq) = some entry) ↔ seq < s.entryCount p) ∧
    (∀ i entry, s.entry i = some entry → (m.run s later).entry i = some entry) ∧
    (∀ refId, journal.countP (fun e => e.input.call.refId = some refId) ≤ 1) ∧
    (∀ i j a b, s.entry i = some a → s.entry j = some b → a.refId = b.refId → i = j) ∧
    (∀ id settlement, s.settlement id = some settlement → ∀ p,
      journal.flatMap (settled id p) =
        if settlement.patronRef = p then settlement.posts else []) ∧
    ∀ e ∈ journal, ∀ id, e.post.settlement id = e.pre.settlement id ∨
      (e.pre.settlement id = none ∧
        ∃ settlement, e.post.settlement id = some settlement ∧ settlement.state = .pending) ∨
      ∃ settlement state, e.pre.settlement id = some settlement ∧
        e.post.settlement id = some { settlement with state := state } ∧
        settlement.state.precedes state = true := by
  intro m s journal
  have hs : Accounted s journal := run_accounted is
  refine ⟨?_, ?_, ?_, ?_, hs.distinct, ?_, ?_⟩
  · intro p
    exact ⟨hs.balance p, hs.solvent p⟩
  · intro p seq
    rw [← hs.dense p seq, Option.isSome_iff_exists]
  · intro i entry hentry
    exact run_keeps_entry hs hentry later
  · intro refId
    rw [hs.references refId]
    split_ifs <;> omega
  · intro id settlement hfound p
    rw [hs.settlements id p, State.due, hfound]
  · intro e he id
    exact (step_effect (Machine.journal_step he).1).transition id

end ChainVerse.LibraryFinesContract
