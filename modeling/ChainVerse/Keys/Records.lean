import ChainVerse.Framework.Listings
import ChainVerse.Framework.Simulations
import ChainVerse.Framework.Tables
import ChainVerse.Host.Bytes
import ChainVerse.Keys.Contract

namespace ChainVerse.ScholarshipIdempotency

section Records

variable {contract : Address} {env : Env contract} {s s' : State}

/-- An accepted call of a run, with the stores around it. -/
abbrev Step (contract : Address) := Entry State (Input contract) Answer

/-- The key that a call is about, with its actor and operation. -/
def Call.names : Call → Option (Owner × Bytes32)
  | .createKey actor operation key _ | .completeSuccess actor operation key _
  | .completeFailure actor operation key _ => some ((actor, operation.asSymbol), key)
  | .initializeContract _ | .transferAdmin _ _ => none

/-- A call that creates a key. -/
def Call.creates : Call → Bool
  | .createKey _ _ _ _ => true
  | _ => false

/-- Everything an accepted call can have done to the keys. -/
inductive Effect (s : State) : Call → State → Prop where
  | aside {call : Call} {s' : State} (unnamed : call.names = none)
      (records : s'.record = s.record) (counts : s'.pendingCount = s.pendingCount) :
      Effect s call s'
  | create {call : Call} {owner : Owner} {key : Bytes32} {record : IdempotencyRecord}
      (named : call.names = some (owner, key)) (creates : call.creates = true)
      (vacant : s.record (owner, key) = none)
      (room : s.pendingCount owner < maxPendingPerActorOp)
      (owned : record.actor = owner.1) (pending : record.status = .pending) :
      Effect s call { s with
        record := Function.update s.record (owner, key) (some record)
        pendingCount := Function.update s.pendingCount owner (s.pendingCount owner + 1) }
  | complete {call : Call} {owner : Owner} {key : Bytes32} {record completed : IdempotencyRecord}
      (named : call.names = some (owner, key)) (creates : call.creates = false)
      (found : s.record (owner, key) = some record) (pending : record.status = .pending)
      (owned : completed.actor = owner.1) (terminal : completed.status ≠ .pending) :
      Effect s call { s with
        record := Function.update s.record (owner, key) (some completed)
        pendingCount := Function.update s.pendingCount owner (s.pendingCount owner - 1) }

section Inversion

@[simp] theorem refuseExisting_eq_ok {actor : Address} {existing : Option IdempotencyRecord}
    {u : Unit} : refuseExisting actor existing = .ok u ↔ existing = none := by
  cases existing with
  | none => simp [refuseExisting]
  | some record => cases hstatus : record.status <;> simp [refuseExisting, hstatus]

theorem createKey_effect {actor : Address} {operation : Operation} {key : Bytes32}
    {ttlSeconds : Nat} {record : IdempotencyRecord}
    (h : createKey env s actor operation key ttlSeconds = .ok (record, s')) :
    Effect s (.createKey actor operation key ttlSeconds) s' := by
  simp only [createKey, bind_eq_ok, exists_unit, refuseExisting_eq_ok, refuseIf_eq_ok,
    orRefuse_eq_ok, fitsU_eq_some, pure_eq_ok, Prod.mk.injEq, not_le] at h
  obtain ⟨_, _, _, hvacant, hroom, _, _, _, ⟨_, rfl⟩, rfl, rfl⟩ := h
  exact .create rfl rfl hvacant hroom rfl rfl

/-- A transition to a terminal status completes a pending key. -/
theorem transition_effect {actor : Address} {opSym : Symbol} {key resultHash : Bytes32}
    {newStatus : KeyStatus} {call : Call} (hnamed : call.names = some ((actor, opSym), key))
    (hcreates : call.creates = false) (hterminal : newStatus ≠ .pending)
    (h : transition env s actor opSym key newStatus resultHash = .ok s') : Effect s call s' := by
  simp only [transition, bind_eq_ok, exists_unit, refuseIf_eq_ok, orRefuse_eq_ok, not_not] at h
  obtain ⟨record, hfound, howned, hpending, h⟩ := h
  have heffect : Effect s call { s with
      record := Function.update s.record ((actor, opSym), key) (some { record with
        status := newStatus
        completedAt := env.timestamp
        resultHash := resultHash })
      pendingCount := Function.update s.pendingCount (actor, opSym)
        (s.pendingCount (actor, opSym) - 1) } :=
    .complete hnamed hcreates hfound hpending howned hterminal
  by_cases hcount : 0 < s.pendingCount (actor, opSym)
  · rw [if_pos hcount, pure_eq_ok] at h
    rw [← h]
    exact heffect
  · rw [if_neg hcount, pure_eq_ok] at h
    have hzero : s.pendingCount (actor, opSym) - 1 = s.pendingCount (actor, opSym) := by omega
    rw [hzero, Function.update_eq_self] at heffect
    rw [← h]
    exact heffect

/-- What an accepted entry point has done. -/
theorem step_effect {i : Input contract} {o : Answer}
    (h : (machine contract).step s i = .ok (o, s')) : Effect s i.call s' := by
  obtain ⟨env, call⟩ := i
  cases call with
  | initializeContract =>
    simp only [machine, execute, map_eq_ok, initializeContract, bind_eq_ok, exists_unit,
      pure_eq_ok, Prod.mk.injEq] at h
    obtain ⟨_, ⟨_, _, rfl⟩, _, rfl⟩ := h
    exact .aside rfl rfl rfl
  | transferAdmin =>
    simp only [machine, execute, map_eq_ok, transferAdmin, bind_eq_ok, exists_unit,
      pure_eq_ok, Prod.mk.injEq] at h
    obtain ⟨_, ⟨_, rfl⟩, _, rfl⟩ := h
    exact .aside rfl rfl rfl
  | createKey =>
    simp only [machine, execute, map_eq_ok, Prod.map, Prod.mk.injEq, id] at h
    obtain ⟨⟨_, _⟩, hcreate, _, rfl⟩ := h
    exact createKey_effect hcreate
  | completeSuccess =>
    simp only [machine, execute, map_eq_ok, completeSuccess, bind_eq_ok, exists_unit,
      Prod.mk.injEq] at h
    obtain ⟨_, ⟨_, htransition⟩, _, rfl⟩ := h
    exact transition_effect rfl rfl (by decide) htransition
  | completeFailure =>
    simp only [machine, execute, map_eq_ok, completeFailure, bind_eq_ok, exists_unit,
      Prod.mk.injEq] at h
    obtain ⟨_, ⟨_, htransition⟩, _, rfl⟩ := h
    exact transition_effect rfl rfl (by decide) htransition

end Inversion

section Quantities

/-- The key stands as pending. -/
def inFlight (row : Option IdempotencyRecord) : Bool :=
  match row with
  | some record => record.status = .pending
  | none => false

/-- The key has reached an outcome. -/
def concluded (row : Option IdempotencyRecord) : Bool :=
  match row with
  | some record => record.status ≠ .pending
  | none => false

/-- The calls that have created a key, and those that have completed it. -/
def creations (i : Owner × Bytes32) (e : Step contract) : Bool :=
  e.input.call.creates && e.input.call.names = some i

def completions (i : Owner × Bytes32) (e : Step contract) : Bool :=
  !e.input.call.creates && e.input.call.names = some i

end Quantities

/-- The keys after the calls `es`. -/
structure Kept (s : State) (es : List (Step contract)) : Prop where
  owned : ∀ i record, s.record i = some record → record.actor = i.1.1
  counted : ∀ owner, {key | inFlight (s.record (owner, key)) = true}.ncard = s.pendingCount owner
  bounded : ∀ owner, s.pendingCount owner ≤ maxPendingPerActorOp
  created : ∀ i, es.countP (creations i) = if (s.record i).isSome then 1 else 0
  completed : ∀ i, es.countP (completions i) = if concluded (s.record i) then 1 else 0

section Runs

variable {es : List (Step contract)} {e : Step contract}

theorem kept_empty : Kept State.empty ([] : List (Step contract)) where
  owned i record h := by cases h
  counted owner := by
    have hnone : {key : Bytes32 | inFlight (State.empty.record (owner, key)) = true} = ∅ :=
      Set.eq_empty_of_forall_notMem fun key h => by cases h
    rw [hnone, Set.ncard_empty]
    rfl
  bounded owner := Nat.zero_le _
  created i := rfl
  completed i := rfl

/-- A call writes one row, and moves the count of its owner by what the row counts for. -/
theorem Kept.write (hk : Kept s es) {owner : Owner} {key : Bytes32} {row : IdempotencyRecord}
    {count : Nat} (hnamed : e.input.call.names = some (owner, key))
    (hrecord : s'.record = Function.update s.record (owner, key) (some row))
    (hpendingCount : s'.pendingCount = Function.update s.pendingCount owner count)
    (howned : row.actor = owner.1) (hbound : count ≤ maxPendingPerActorOp)
    (hcount : s.pendingCount owner + (if inFlight (some row) then 1 else 0) =
      count + if inFlight (s.record (owner, key)) then 1 else 0)
    (hcreated : (if (s.record (owner, key)).isSome then 1 else 0) +
      (if e.input.call.creates then 1 else 0) = 1)
    (hcompleted : (if concluded (s.record (owner, key)) then 1 else 0) +
      (if e.input.call.creates then 0 else 1) = if concluded (some row) then 1 else 0) :
    Kept s' (es ++ [e]) := by
  refine ⟨forall_update_row hk.owned hrecord howned, ?_, ?_, ?_, ?_⟩
  · intro x
    have hfinite : {k | inFlight (s.record (x, k)) = true}.Finite := finite_bytes32 _
    have hline := ncard_update_line (p := fun row => inFlight row = true) hfinite owner key (some row)
    rw [hk.counted x] at hline
    rw [hrecord, hpendingCount]
    by_cases hx : x = owner
    · simp only [hx, true_and] at hline ⊢
      rw [Function.update_self]
      omega
    · simp only [hx, false_and, if_false, Nat.add_zero] at hline
      rw [Function.update_of_ne hx, hline]
  · intro x
    rw [hpendingCount]
    by_cases hx : x = owner
    · rw [hx, Function.update_self]
      exact hbound
    · rw [Function.update_of_ne hx]
      exact hk.bounded x
  · intro i
    rw [countP_snoc, hk.created, hrecord]
    by_cases hi : i = (owner, key)
    · rw [hi, Function.update_self]
      simpa [creations, hnamed] using hcreated
    · have hother : ¬ (owner, key) = i := fun heq => hi heq.symm
      rw [Function.update_of_ne hi]
      simp [creations, hnamed, hother]
  · intro i
    rw [countP_snoc, hk.completed, hrecord]
    by_cases hi : i = (owner, key)
    · rw [hi, Function.update_self, ← hcompleted]
      cases hcreates : e.input.call.creates <;> simp [completions, hnamed, hcreates]
    · have hother : ¬ (owner, key) = i := fun heq => hi heq.symm
      rw [Function.update_of_ne hi]
      simp [completions, hnamed, hother]

/-- Every accepted call keeps the books of the keys. -/
theorem Effect.kept {i : Input contract} {o : Answer} (h : Effect s i.call s')
    (hk : Kept s es) : Kept s' (es ++ [⟨s, i, o, s'⟩]) := by
  obtain ⟨env, call⟩ := i
  cases h with
  | aside hunnamed hrecords hcounts =>
    simp only at hunnamed
    refine ⟨?_, ?_, ?_, ?_, ?_⟩
    · rw [hrecords]
      exact hk.owned
    · rw [hrecords, hcounts]
      exact hk.counted
    · rw [hcounts]
      exact hk.bounded
    · intro j
      rw [countP_snoc, hk.created, hrecords]
      simp [creations, hunnamed]
    · intro j
      rw [countP_snoc, hk.completed, hrecords]
      simp [completions, hunnamed]
  | create hnamed hcreates hvacant hroom howned hpending =>
    have hin : inFlight (some _) = true := decide_eq_true hpending
    have hopen : concluded (some _) = false := decide_eq_false (not_not.mpr hpending)
    refine hk.write hnamed rfl rfl howned hroom ?_ ?_ ?_
    · rw [hvacant, hin]
      rfl
    · rw [hvacant, hcreates]
      rfl
    · rw [hvacant, hcreates, hopen]
      rfl
  | @complete owner key record completed hnamed hcreates hfound hpending howned hterminal =>
    have hin : inFlight (some record) = true := decide_eq_true hpending
    have hopen : concluded (some record) = false := decide_eq_false (not_not.mpr hpending)
    have hout : inFlight (some completed) = false := decide_eq_false hterminal
    have hclosed : concluded (some completed) = true := decide_eq_true hterminal
    have hcounted : 0 < s.pendingCount owner := by
      rw [← hk.counted owner, Set.ncard_pos (finite_bytes32 _)]
      exact ⟨key, by rw [Set.mem_ofPred_eq, hfound, hin]⟩
    refine hk.write hnamed rfl rfl howned ?_ ?_ ?_ ?_
    · exact (Nat.sub_le _ 1).trans (hk.bounded owner)
    · rw [hfound, hin, hout]
      exact (Nat.sub_add_cancel hcounted).symm
    · rw [hfound, hcreates]
      rfl
    · rw [hfound, hcreates, hopen, hclosed]
      rfl

theorem run_kept (is : List (Input contract)) :
    Kept ((machine contract).run State.empty is) ((machine contract).journal State.empty is) :=
  Machine.run_journal_invariant kept_empty (fun _ _ _ _ _ hk h => (step_effect h).kept hk) is

end Runs

end Records

variable {contract : Address} {env : Env contract} {s s' : State}

section Retries

/-- Why a key is in the way of a new one. -/
def KeyStatus.refusal : KeyStatus → ContractError
  | .pending => .keyInFlight
  | .succeeded | .failed => .keyAlreadyCompleted

/-- A retry of an accepted call is refused for what became of the key. -/
theorem createKey_stored {actor : Address} {operation : Operation} {key : Bytes32}
    {ttlSeconds : Nat} {record : IdempotencyRecord}
    (hfound : s.record ((actor, operation.asSymbol), key) = some record)
    (howned : record.actor = actor) (hsigned : env.signers actor = true)
    (httl : ttlSeconds ≤ maxKeyTtlSeconds) :
    createKey env s actor operation key ttlSeconds = .error (.err record.status.refusal) := by
  have hauth : (requireAuth env actor : Outcome Unit) = .ok () := requireAuth_eq_ok.mpr hsigned
  have httl' : ∃ ttl, effectiveTtl ttlSeconds = .ok ttl := by
    by_cases hzero : ttlSeconds = 0
    · exact ⟨defaultKeyTtlSeconds, if_pos hzero⟩
    · refine ⟨ttlSeconds, ?_⟩
      rw [effectiveTtl, if_neg hzero, refuseIf, if_neg (not_lt.mpr httl)]
      rfl
  obtain ⟨ttl, httl'⟩ := httl'
  have hrefused : refuseExisting actor (some record) = .error (.err record.status.refusal) := by
    rw [refuseExisting, refuseIf, if_neg (not_not.mpr howned)]
    cases record.status <;> rfl
  rw [createKey, hauth, ok_bind, httl', ok_bind, hfound, hrefused]
  rfl

/-- A stored key is never created again. -/
theorem createKey_refused {actor : Address} {operation : Operation} {key : Bytes32}
    {ttlSeconds : Nat} (hstored : s.record ((actor, operation.asSymbol), key) ≠ none) :
    ∃ x, createKey env s actor operation key ttlSeconds = .error x := by
  rcases h : createKey env s actor operation key ttlSeconds with x | ⟨record, s'⟩
  · exact ⟨x, rfl⟩
  · simp only [createKey, bind_eq_ok, exists_unit, refuseExisting_eq_ok] at h
    obtain ⟨_, _, _, hvacant, _⟩ := h
    exact absurd hvacant hstored

end Retries

section Frames

/-- A call writes to the key it names and to the count of its owner, and to nothing else. -/
theorem Effect.frame {call : Call} (h : Effect s call s') {owner : Owner}
    (hother : ∀ key, call.names ≠ some (owner, key)) :
    s'.pendingCount owner = s.pendingCount owner ∧
      ∀ key, s'.record (owner, key) = s.record (owner, key) := by
  cases h with
  | aside _ hrecords hcounts =>
    rw [hrecords, hcounts]
    exact ⟨rfl, fun _ => rfl⟩
  | @create named key record hnamed =>
    have hne : owner ≠ named := fun heq => hother key (heq ▸ hnamed)
    exact ⟨Function.update_of_ne hne _ _, fun k => update_other_line _ _ _ _ hne k⟩
  | @complete named key record completed hnamed =>
    have hne : owner ≠ named := fun heq => hother key (heq ▸ hnamed)
    exact ⟨Function.update_of_ne hne _ _, fun k => update_other_line _ _ _ _ hne k⟩

/-- An outcome is never written over. -/
theorem Effect.keeps_outcome {call : Call} (h : Effect s call s') {i : Owner × Bytes32}
    {record : IdempotencyRecord} (hrecord : s.record i = some record)
    (hconcluded : record.status ≠ .pending) : s'.record i = some record := by
  cases h with
  | aside _ hrecords _ =>
    rw [hrecords]
    exact hrecord
  | create _ _ hvacant => exact update_keeps_row hvacant hrecord
  | complete _ _ hfound hpending =>
    exact update_keeps_unless (q := fun record => record.status ≠ .pending) hfound
      (not_not.mpr hpending) hrecord hconcluded

end Frames

section Subjects

/-- The actor and the operation that a call is for. -/
def Call.subject : Call → Option (Address × Operation)
  | .createKey actor operation _ _ | .completeSuccess actor operation _ _
  | .completeFailure actor operation _ _ => some (actor, operation)
  | .initializeContract _ | .transferAdmin _ _ => none

theorem asSymbol_injective : Function.Injective Operation.asSymbol := by
  intro a b h
  cases a <;> cases b <;> first | rfl | simp [Operation.asSymbol] at h

/-- No two operations share a symbol, so a call names no key of another subject. -/
theorem Call.names_ne {call : Call} {actor : Address} {operation : Operation}
    (h : call.subject ≠ some (actor, operation)) (key : Bytes32) :
    call.names ≠ some ((actor, operation.asSymbol), key) := by
  intro hnames
  apply h
  cases call with
  | initializeContract => cases hnames
  | transferAdmin => cases hnames
  | createKey a op k ttl | completeSuccess a op k hash | completeFailure a op k hash =>
    simp only [Call.names, Option.some.injEq, Prod.mk.injEq] at hnames
    obtain ⟨⟨rfl, hsymbol⟩, _⟩ := hnames
    rw [Call.subject, asSymbol_injective hsymbol]

end Subjects

/-- Over every run the counts are right and bounded, a key is created once and completed once, its
outcome stays, a repeated creation is refused without effect, and calls of one owner leave the keys of
the others alone. -/
theorem run_keys (is : List (Input contract)) :
    let m := machine contract
    let s := m.run State.empty is
    let es := m.journal State.empty is
    (∀ actor (operation : Operation),
        s.pendingCount (actor, operation.asSymbol) =
            {key | inFlight (s.record ((actor, operation.asSymbol), key)) = true}.ncard ∧
          s.pendingCount (actor, operation.asSymbol) ≤ 32) ∧
      (∀ actor (operation : Operation) key,
        es.countP (creations ((actor, operation.asSymbol), key)) ≤ 1 ∧
          es.countP (completions ((actor, operation.asSymbol), key)) ≤ 1) ∧
      (∀ i record, s.record i = some record → record.status ≠ .pending →
        ∀ js, (m.run s js).record i = some record) ∧
      (∀ actor (operation : Operation) key record,
        s.record ((actor, operation.asSymbol), key) = some record →
        ∀ (env : Env contract) ttlSeconds,
          m.next s ⟨env, .createKey actor operation key ttlSeconds⟩ = s ∧
            (env.signers actor = true → ttlSeconds ≤ maxKeyTtlSeconds →
              m.step s ⟨env, .createKey actor operation key ttlSeconds⟩ =
                .error (.err record.status.refusal))) ∧
      ∀ e ∈ es, ∀ actor (operation : Operation),
        e.input.call.subject ≠ some (actor, operation) →
          e.post.pendingCount (actor, operation.asSymbol) =
              e.pre.pendingCount (actor, operation.asSymbol) ∧
            ∀ key, e.post.record ((actor, operation.asSymbol), key) =
              e.pre.record ((actor, operation.asSymbol), key) := by
  intro m s es
  have hkept : Kept s es := run_kept is
  refine ⟨?_, ?_, ?_, ?_, ?_⟩
  · intro actor operation
    exact ⟨(hkept.counted _).symm, hkept.bounded _⟩
  · intro actor operation key
    rw [hkept.created, hkept.completed]
    constructor <;> split_ifs <;> omega
  · intro i record hrecord hconcluded js
    have hstep : ∀ (t : State) j o t', t.record i = some record →
        m.step t j = .ok (o, t') → t'.record i = some record :=
      fun t j o t' ht h => (step_effect h).keeps_outcome ht hconcluded
    exact @Machine.run_invariant _ _ _ _ m (fun t => t.record i = some record) s hrecord hstep js
  · intro actor operation key record hrecord env ttlSeconds
    have hstored : s.record ((actor, operation.asSymbol), key) ≠ none := by
      rw [hrecord]
      exact Option.some_ne_none record
    constructor
    · obtain ⟨x, hx⟩ := @createKey_refused _ env s actor operation key ttlSeconds hstored
      apply Machine.next_error
      exact map_eq_error.mpr hx
    · intro hsigned httl
      have howned := hkept.owned _ record hrecord
      exact map_eq_error.mpr (createKey_stored hrecord howned hsigned httl)
  · intro e he actor operation hother
    exact (step_effect (Machine.journal_step he).1).frame (Call.names_ne hother)

section Samples

/-- A key that is created twice. -/
def sampleRetry : List (Input ⟨0⟩) :=
  [⟨.sample, .createKey ⟨1⟩ .payout 7 0⟩, ⟨.sampleLater, .createKey ⟨1⟩ .payout 7 0⟩]

/-- The retry does not return the stored record. -/
theorem createKey_retry_refused :
    ((machine ⟨0⟩).run State.empty sampleRetry).record ((⟨1⟩, "payout"), 7) ≠ none ∧
      (machine ⟨0⟩).verdicts State.empty sampleRetry = [none, some (.err .keyInFlight)] := by
  constructor
  · decide
  · decide

end Samples

end ChainVerse.ScholarshipIdempotency
