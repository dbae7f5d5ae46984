import ChainVerse.Framework.Tables
import ChainVerse.Outbox.Events
import ChainVerse.Outbox.Steps

namespace ChainVerse.ScholarshipOutbox

section Dedup

variable {contract : Address} {env : Env contract} {s s' : State}

/-- The dedup key an enqueue carries. -/
def Call.dedupKey : Call → Option Bytes32
  | .enqueue _ _ _ _ _ dedupKey _ => some dedupKey
  | _ => none

/-- The id that an accepted enqueue of a new key was given. -/
def issued (e : Entry State (Input contract) Answer) : List Nat :=
  match e.input.call.dedupKey, e.output with
  | some key, .number id => if e.pre.dedup key = none then [id] else []
  | _, _ => []

section Steps

theorem Effect.keeps_dedup {call : Call} {answer : Answer} (h : Effect env s call answer s')
    {key : Bytes32} {id : Nat} (hkey : s.dedup key = some id) : s'.dedup key = some id := by
  cases h with
  | @enqueue _ _ _ _ _ _ _ _ _ _ hunused => exact update_keeps_row hunused hkey
  | record _ _ _ _ _ _ _ _ _ hhistory => rwa [(record_same hhistory).dedup]
  | start | enqueueAgain | publish | acknowledgeAgain | acknowledge | prune | register | rotate
  | activate | acknowledgeDelivery | settle => exact hkey

/-- An accepted enqueue leaves its key bound to the id it answers with. -/
theorem Effect.binds_dedup {call : Call} {answer : Answer} (h : Effect env s call answer s')
    {key : Bytes32} (hkey : call.dedupKey = some key) :
    ∃ id, answer = .number id ∧ s'.dedup key = some id := by
  cases h with
  | enqueueAgain _ _ hused =>
    cases hkey
    exact ⟨_, rfl, hused⟩
  | @enqueue _ _ _ _ id =>
    cases hkey
    exact ⟨id, rfl, Function.update_self _ _ _⟩
  | @settle call _ _ _ _ _ kind => cases call <;> simp_all [Call.isSettlement, Call.dedupKey]
  | _ => cases hkey

/-- A step gives out the ids between the old and the new counter: one for an enqueue of a new key,
none for any other call. -/
theorem Effect.issued {call : Call} {answer : Answer} (h : Effect env s call answer s')
    (hs : Numbered s) : s.next ≤ s'.next ∧
      issued ⟨s, ⟨env, call⟩, answer, s'⟩ = List.range' s.next (s'.next - s.next) := by
  have hnone : s'.next = s.next → call.dedupKey = none → s.next ≤ s'.next ∧
      ScholarshipOutbox.issued ⟨s, ⟨env, call⟩, answer, s'⟩ =
        List.range' s.next (s'.next - s.next) := by
    intro hnext hkey
    simp [ScholarshipOutbox.issued, hnext, hkey]
  cases h with
  | start _ habsent => exact hnone (hs.fresh habsent).1.symm rfl
  | enqueueAgain _ _ hused => simp [ScholarshipOutbox.issued, Call.dedupKey, hused]
  | @enqueue _ _ _ _ id _ _ _ _ _ hunused _ hnextId =>
    have hid : s.next = id := by rw [State.next, hnextId, Option.getD_some]
    rw [hid]
    simp [ScholarshipOutbox.issued, Call.dedupKey, hunused, State.next]
  | record _ _ _ _ _ _ _ _ _ hhistory => exact hnone (record_same hhistory).unchanged.1 rfl
  | @settle call _ _ _ _ _ kind =>
    apply hnone rfl
    cases call <;> simp_all [Call.isSettlement, Call.dedupKey]
  | publish | acknowledgeAgain | acknowledge | prune | register | rotate | activate
  | acknowledgeDelivery => exact hnone rfl rfl

end Steps

section Retries

variable {operator source : Address} {topic : Topic} {schemaVersion id : Nat}
  {correlationId key payloadHash : Bytes32}

/-- A retry that is accepted answers with the first id and writes nothing. -/
theorem Effect.retry {answer : Answer} (hused : s.dedup key = some id)
    (h : Effect env s
      (.enqueue operator source topic schemaVersion correlationId key payloadHash) answer s') :
    answer = .number id ∧ s' = s := by
  cases h with
  | enqueueAgain _ _ hused' =>
    rw [hused, Option.some.injEq] at hused'
    exact ⟨by rw [hused'], rfl⟩
  | enqueue _ _ hunused => simp [hused] at hunused
  | settle kind => simp [Call.isSettlement] at kind

theorem retry_accepted (hused : s.dedup key = some id) (hsigned : env.signers operator = true)
    (hrole : s.admin = some operator) (hversion : schemaVersion ≠ 0) :
    execute env s (.enqueue operator source topic schemaVersion correlationId key payloadHash) =
      .ok (.number id, s) := by
  have henqueue : enqueue env s operator source topic schemaVersion correlationId key payloadHash =
      .ok (id, s) := by
    simp only [enqueue, bind_eq_ok, exists_unit, requireAuth_eq_ok, requireAdmin_eq_ok,
      refuseIf_eq_ok, hused, pure_eq_ok]
    exact ⟨hsigned, hrole, hversion, trivial⟩
  exact counted_eq_ok.mpr ⟨id, rfl, henqueue⟩

end Retries

section Runs

variable (contract)

theorem run_keeps_dedup (s : State) (is : List (Input contract)) {key : Bytes32} {id : Nat}
    (hkey : s.dedup key = some id) : ((machine contract).run s is).dedup key = some id :=
  Machine.run_invariant (m := machine contract) hkey
    (fun _ _ _ _ hs h => (execute_effect h).keeps_dedup hs) is

theorem run_issued (is : List (Input contract)) :
    ((machine contract).journal State.empty is).flatMap issued =
      List.range' 1 (((machine contract).run State.empty is).next - 1) := by
  have hnumbering := Machine.run_numbering (m := machine contract) (f := State.next) (g := issued)
    numbered_empty (fun _ _ _ _ hs h => (execute_effect h).numbered hs)
    (fun _ _ _ _ hs h => (execute_effect h).issued hs) is
  exact hnumbering.2

/-- Over any calls the new keys are given the ids from 1 on without a gap; no two keys share an id,
a key keeps its id whatever is called later, every accepted enqueue has answered with the id of its
key, and a retry is answered with that id and changes nothing. -/
theorem run_deduplicates (is : List (Input contract)) :
    let m := machine contract
    let s := m.run State.empty is
    (m.journal State.empty is).flatMap issued = List.range' 1 (s.next - 1) ∧
      (∀ key key' id, s.dedup key = some id → s.dedup key' = some id → key = key') ∧
      (∀ key id, s.dedup key = some id → ∀ js, (m.run s js).dedup key = some id) ∧
      (∀ e ∈ m.journal State.empty is, ∀ key, e.input.call.dedupKey = some key →
        ∃ id, e.output = .number id ∧ s.dedup key = some id) ∧
      ∀ (env : Env contract) operator source topic schemaVersion correlationId key payloadHash id,
        s.dedup key = some id →
        let retry := execute env s
          (.enqueue operator source topic schemaVersion correlationId key payloadHash)
        (∀ answer s', retry = .ok (answer, s') → answer = .number id ∧ s' = s) ∧
          (env.signers operator = true → s.admin = some operator → schemaVersion ≠ 0 →
            retry = .ok (.number id, s)) := by
  intro m s
  have hnumbered : Numbered s := run_numbered contract is
  refine ⟨run_issued contract is, fun _ _ _ => hnumbered.distinct, ?_, ?_, ?_⟩
  · intro key id hkey js
    exact run_keeps_dedup contract s js hkey
  · intro e he key hkey
    obtain ⟨id, hanswer, hbound⟩ := (execute_effect (Machine.journal_step he).1).binds_dedup hkey
    obtain ⟨js, hrest⟩ := Machine.journal_rest he
    refine ⟨id, hanswer, ?_⟩
    change (m.run State.empty is).dedup key = some id
    rw [hrest]
    exact run_keeps_dedup contract e.post js hbound
  · intro env operator source topic schemaVersion correlationId key payloadHash id hused
    exact ⟨fun _ _ h => (execute_effect h).retry hused, retry_accepted hused⟩

end Runs

end Dedup

variable {contract : Address} {env : Env contract} {s s' : State} {call : Call}
  {answer : Answer}

/-- The stored admin has signed the invocation. -/
def AdminSigned (env : Env contract) (s : State) : Prop :=
  ∃ admin, s.admin = some admin ∧ env.signers admin = true

/-- The principals that a call is reserved to have signed the invocation. -/
def Authorized (env : Env contract) (s : State) : Call → Prop
  | .initializeContract admin => env.signers admin = true
  | .acknowledge consumer _ => env.signers consumer = true
  | .acknowledgeDelivery _ endpointId _ =>
      ∃ endpoint, s.endpoint endpointId = some endpoint ∧ env.signers endpoint.owner = true
  | .registerEndpoint _ owner _ _ _ => AdminSigned env s ∧ env.signers owner = true
  | .enqueue .. | .markPublished .. | .prune .. | .rotateSecret .. | .setEndpointActive ..
  | .recordDelivery .. | .openSettlement .. | .observeSettlement .. | .reconcileSettlement ..
  | .expireSettlement .. | .resolveSettlement .. | .archiveSettlement .. => AdminSigned env s

/-- There is an entry for a sweep to remove. -/
def Sweepable (s : State) (horizon : Nat) : Prop :=
  s.pruneFloor < s.nextEventId.getD 1 ∧ removable horizon (s.event s.pruneFloor) = true

/-- A call is not a sweep, or its admin has signed, or there is nothing to sweep. -/
def Guarded (env : Env contract) (s : State) : Call → Prop
  | .prune admin horizon _ => env.signers admin = true ∨ ¬ Sweepable s horizon
  | _ => True

section Steps

/-- Every accepted call but a sweep was authorized. -/
theorem Effect.authorized (h : Effect env s call answer s') :
    Authorized env s call ∨ ∃ admin horizon limit, call = .prune admin horizon limit := by
  cases h with
  | start signed => exact .inl signed
  | acknowledgeAgain signed | acknowledge signed => exact .inl signed
  | acknowledgeDelivery signed stored => exact .inl ⟨_, stored, signed⟩
  | register signed consent role => exact .inl ⟨⟨_, role, signed⟩, consent⟩
  | prune => exact .inr ⟨_, _, _, rfl⟩
  | enqueueAgain signed role | enqueue signed role | publish signed role | rotate signed role
  | activate signed role | record signed role => exact .inl ⟨_, role, signed⟩
  | @settle call _ _ _ _ _ kind signed role =>
    left
    cases call <;> first | exact ⟨_, role, signed⟩ | simp [Call.isSettlement] at kind

theorem sweep_blocked {horizon left pruned n : Nat}
    (hblocked : ¬ Sweepable s horizon)
    (h : sweep horizon (s.nextEventId.getD 1) left pruned s = .ok (n, s')) : s' = s := by
  have hstop : (pure (pruned, s) : Outcome (Nat × State)) = .ok (n, s') → s' = s := by
    intro heq
    exact (congrArg Prod.snd (pure_eq_ok.mp heq)).symm
  cases left with
  | zero => exact hstop h
  | succ left =>
    unfold sweep at h
    split_ifs at h with hlt hremovable
    · exact absurd ⟨hlt, hremovable⟩ hblocked
    · exact hstop h
    · exact hstop h

/-- A sweep with something to remove moves the floor. -/
theorem sweep_moves {horizon left pruned n : Nat} (hsweepable : Sweepable s horizon)
    (hleft : 0 < left)
    (h : sweep horizon (s.nextEventId.getD 1) left pruned s = .ok (n, s')) :
    s.pruneFloor < s'.pruneFloor := by
  obtain ⟨left, rfl⟩ := Nat.exists_eq_succ_of_ne_zero hleft.ne'
  unfold sweep at h
  rw [if_pos hsweepable.1, if_pos hsweepable.2] at h
  simp only [bind_eq_ok, orRefuse_eq_ok, fitsU_eq_some] at h
  obtain ⟨_, ⟨_, rfl⟩, _, ⟨_, rfl⟩, h⟩ := h
  obtain ⟨count, _, _, rfl, _⟩ := sweep_ok h
  change s.pruneFloor < s.pruneFloor + 1 + count
  omega

/-- An accepted sweep changes the store exactly when there is an entry to remove. -/
theorem prune_changes {admin : Address} {horizon limit n : Nat}
    (h : prune env s admin horizon limit = .ok (n, s')) :
    s.admin = some admin ∧ (s' ≠ s ↔ Sweepable s horizon) := by
  simp only [prune, bind_eq_ok, refuseIf_eq_ok, exists_unit, requireAdmin_eq_ok, not_or] at h
  obtain ⟨hrole, _, ⟨hlimit, _⟩, h⟩ := h
  refine ⟨hrole, ?_, ?_⟩
  · intro hchanged
    by_contra hblocked
    exact hchanged (sweep_blocked hblocked h)
  · rintro hsweepable rfl
    exact lt_irrefl _ (sweep_moves hsweepable (Nat.pos_of_ne_zero hlimit) h)

/-- An accepted call is authorized or changes nothing exactly when it is not an unsigned sweep with
something to remove. -/
theorem authorized_iff_guarded (h : execute env s call = .ok (answer, s')) :
    (s' ≠ s → Authorized env s call) ↔ Guarded env s call := by
  rcases (execute_effect h).authorized with hauthorized | ⟨admin, horizon, limit, rfl⟩
  · refine iff_of_true (fun _ => hauthorized) ?_
    cases call with
    | prune admin horizon limit =>
      obtain ⟨_, _, hcall⟩ := counted_eq_ok.mp h
      obtain ⟨admin', hrole', hsigned⟩ := hauthorized
      obtain rfl := Option.some.inj ((prune_changes hcall).1.symm.trans hrole')
      exact .inl hsigned
    | _ => exact trivial
  · obtain ⟨_, _, hcall⟩ := counted_eq_ok.mp h
    obtain ⟨hrole, hchanged⟩ := prune_changes hcall
    have hsigned : AdminSigned env s ↔ env.signers admin = true := by
      constructor
      · rintro ⟨admin', hrole', hsigned⟩
        obtain rfl := Option.some.inj (hrole.symm.trans hrole')
        exact hsigned
      · exact fun hsigned => ⟨admin, hrole, hsigned⟩
    simp only [Authorized, Guarded, hchanged, hsigned]
    tauto

end Steps

section Runs

/-- In every run the calls that changed something were authorized exactly when no unsigned sweep
found something to remove. -/
theorem run_authorized_iff (is : List (Input contract)) :
    (∀ e ∈ (machine contract).journal State.empty is,
      e.post ≠ e.pre → Authorized e.input.env e.pre e.input.call) ↔
      ∀ e ∈ (machine contract).journal State.empty is,
        Guarded e.input.env e.pre e.input.call := by
  refine forall₂_congr fun e he => ?_
  exact authorized_iff_guarded (Machine.journal_step he).1

/-- An invocation that nobody has signed. -/
def unsignedEnv : Env ⟨0⟩ :=
  { Env.sampleLater with signers := fun _ => false, contract_not_signer := rfl }

/-- Naming the admin is enough to sweep the published event of the sample calls. -/
theorem unsigned_sweep :
    let is := sampleCalls ++ [⟨unsignedEnv, .prune ⟨1⟩ 15 200⟩]
    ¬ ∀ e ∈ (machine ⟨0⟩).journal State.empty is,
      e.post ≠ e.pre → Authorized e.input.env e.pre e.input.call := by
  intro is hall
  have hswept : ∃ e ∈ (machine ⟨0⟩).journal State.empty is,
      e.input = ⟨unsignedEnv, .prune ⟨1⟩ 15 200⟩ ∧ e.post.pruneFloor ≠ e.pre.pruneFloor := by
    refine ⟨_, List.getLast_mem (l := (machine ⟨0⟩).journal State.empty is) ?_, rfl, ?_⟩
    · decide +kernel
    · decide +kernel
  obtain ⟨e, he, hinput, hmoved⟩ := hswept
  have hauthorized := hall e he fun heq => hmoved (by rw [heq])
  rw [hinput] at hauthorized
  obtain ⟨_, _, hsigned⟩ := hauthorized
  cases hsigned

end Runs

end ChainVerse.ScholarshipOutbox
