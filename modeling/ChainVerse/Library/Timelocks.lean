import ChainVerse.Framework.Histories
import ChainVerse.Library.Steps

namespace ChainVerse.LibraryRights

section Schedules

variable {contract : Address} {crypto : Crypto} {env : Env contract} {s s' : State}

section Lines

/-- The change that a line cancels. -/
def Step.cancels (e : Step contract) : Option Bytes32 :=
  match e.input.call with
  | .govern (.cancelChange _ changeId) => some changeId
  | _ => none

/-- The change that a line executes. -/
def Step.executes (e : Step contract) : Option Bytes32 :=
  match e.input.call with
  | .govern (.executeChange _ changeId) => some changeId
  | _ => none

/-- The id that a line gives to the change it queues. -/
def Step.queued (e : Step contract) : Option Bytes32 :=
  match e.input.call, e.output with
  | .govern (.queueChange _ _ _), .id id => some id
  | _, _ => none

/-- The bytes that a line hashes for the id of a change. -/
def Step.salt (crypto : Crypto) (e : Step contract) : Option (List Byte) :=
  match e.input.call with
  | .govern (.queueChange caller action eta) =>
    some (changeSalt crypto caller action eta e.input.env.timestamp (e.pre.timelock.counter + 1))
  | _ => none

/-- The same bytes, the number of the change first. -/
def Step.turnedSalt (crypto : Crypto) (e : Step contract) : Option (List Byte) :=
  match e.input.call with
  | .govern (.queueChange caller action eta) =>
    some (beBytes 8 (e.pre.timelock.counter + 1) ++ (crypto.addressXdr caller ++
      actionSalt crypto action ++ beBytes 8 eta ++ beBytes 8 e.input.env.timestamp))
  | _ => none

/-- A line that queues a change, at least the delay in force ahead. -/
structure Queues (e : Step contract) (id : Bytes32) (change : QueuedChange) : Prop where
  call : e.input.call = .govern (.queueChange change.proposer change.action change.eta)
  answer : e.output = .id id
  queuedAt : change.queuedAt = e.input.env.timestamp
  delay : e.input.env.timestamp + (timelockConfig e.pre.timelock).minDelay ≤ change.eta

/-- The bounds of the delay window. -/
structure TimelockConfig.Bounded (cfg : TimelockConfig) : Prop where
  floor : timelockMinBound ≤ cfg.minDelay
  ordered : cfg.minDelay ≤ cfg.maxDelay
  ceiling : cfg.maxDelay ≤ timelockMaxBound

end Lines

/-- Everything an accepted call can do to the queued changes. -/
inductive Scheduling (crypto : Crypto) (e : Step contract) : Prop where
  | quiet (queued : e.queued = none) (cancels : e.cancels = none)
      (executes : e.executes = none) (salt : e.turnedSalt crypto = none)
      (timelock : e.post.timelock = e.pre.timelock)
  | queue (id : Bytes32) (change : QueuedChange) (rest : List Byte) (line : Queues e id change)
      (cancels : e.cancels = none) (executes : e.executes = none)
      (salt : e.turnedSalt crypto = some (beBytes 8 (e.pre.timelock.counter + 1) ++ rest))
      (fits : e.pre.timelock.counter + 1 < 2^64)
      (hashed : id = crypto.sha256 ((beBytes 8 (e.pre.timelock.counter + 1) ++ rest).rotate 8))
      (room : e.pre.timelock.pendingIds.length < maxQueuedChanges)
      (single : alreadyQueued e.pre.timelock change.proposer change.action = false)
      (executed : change.executed = false) (cancelled : change.cancelled = false)
      (timelock : e.post.timelock = { e.pre.timelock with
        counter := e.pre.timelock.counter + 1
        queuedChange := Function.update e.pre.timelock.queuedChange id (some change)
        pendingIds := e.pre.timelock.pendingIds ++ [id] })
  | settle (id : Bytes32) (change next : QueuedChange) (queued : e.queued = none)
      (salt : e.turnedSalt crypto = none)
      (found : e.pre.timelock.queuedChange id = some change)
      (executed : change.executed = false) (cancelled : change.cancelled = false)
      (executes : e.executes = if next.executed = true then some id else none)
      (cancels : e.cancels = if next.cancelled = true then some id else none)
      (settled : next.executed = true ∨ next.cancelled = true)
      (same : next = { change with executed := next.executed, cancelled := next.cancelled })
      (ripe : next.executed = true → change.eta ≤ e.input.env.timestamp)
      (window : (timelockConfig e.pre.timelock).Bounded → (timelockConfig e.post.timelock).Bounded)
      (counter : e.post.timelock.counter = e.pre.timelock.counter)
      (stored : e.post.timelock.queuedChange =
        Function.update e.pre.timelock.queuedChange id (some next))
      (pendingIds : e.post.timelock.pendingIds =
        e.pre.timelock.pendingIds.filter fun x => x ≠ id)

section Specs

theorem changeSalt_rotate (caller : Address) (action : GovernedAction) (eta queuedAt seq : Nat) :
    changeSalt crypto caller action eta queuedAt seq =
      (beBytes 8 seq ++ (crypto.addressXdr caller ++ actionSalt crypto action ++ beBytes 8 eta ++
        beBytes 8 queuedAt)).rotate 8 := by
  have hturn := List.rotate_append_length_eq (beBytes 8 seq)
    (crypto.addressXdr caller ++ actionSalt crypto action ++ beBytes 8 eta ++ beBytes 8 queuedAt)
  rw [length_beBytes] at hturn
  rw [hturn, changeSalt]

theorem Step.salt_eq_rotate (e : Step contract) :
    e.salt crypto = (e.turnedSalt crypto).map fun p => p.rotate 8 := by
  unfold Step.salt Step.turnedSalt
  split
  · rw [Option.map_some, changeSalt_rotate]
  · rfl

theorem salts_eq_rotated (es : List (Step contract)) :
    es.filterMap (Step.salt crypto) =
      (es.filterMap (Step.turnedSalt crypto)).map fun p => p.rotate 8 := by
  rw [List.map_filterMap]
  exact List.filterMap_congr fun e _ => e.salt_eq_rotate

/-- What an executed action does to the window is within its bounds. -/
theorem dispatch_window {action : GovernedAction} (h : dispatch env s caller action = .ok s')
    (hs : (timelockConfig s.timelock).Bounded) : (timelockConfig s'.timelock).Bounded := by
  cases action with
  | transferRole role recipient =>
    simp only [dispatch] at h
    split_ifs at h
    · obtain rfl := pure_eq_ok.mp h
      exact hs
    · simp only [bind_eq_ok, exists_unit, pure_eq_ok] at h
      obtain ⟨_, rfl⟩ := h
      exact hs
  | updateCourseRegistry registry =>
    obtain rfl := pure_eq_ok.mp h
    exact hs
  | updateTimelockConfig minDelay maxDelay =>
    simp only [dispatch, validateAndStoreConfig, bind_eq_ok, refuseIf_eq_ok, exists_unit, pure_eq_ok,
      not_or, not_lt] at h
    obtain ⟨_, ⟨⟨hfloor, hceiling, hordered⟩, rfl⟩, rfl⟩ := h
    exact ⟨hfloor, hordered, hceiling⟩

theorem Governs.scheduling {registries : Registries} {call : GovernCall} {o : Answer}
    (h : Governs env crypto s call o s') :
    Scheduling crypto ⟨s, ⟨env, registries, .govern call⟩, o, s'⟩ := by
  cases h with
  | queue id _ hhashed hfits hdelay hroom hsingle =>
    rw [changeSalt_rotate] at hhashed
    exact .queue id _ _ ⟨rfl, rfl, rfl, hdelay⟩ rfl rfl rfl hfits hhashed hroom hsingle rfl rfl rfl
  | @cancel _ id change hfound hexecuted hcancelled =>
    have hexecutes : (none : Option Bytes32) = if change.executed = true then some id else none := by
      rw [hexecuted, if_neg Bool.false_ne_true]
    refine .settle id change { change with cancelled := true } rfl rfl hfound hexecuted hcancelled
      hexecutes rfl (.inr rfl) rfl ?_ (fun hwindow => hwindow) rfl rfl rfl
    intro hnext
    rw [hexecuted] at hnext
    cases hnext
  | @execute _ id change t hfound hexecuted hcancelled hripe hdispatched =>
    have hcancels : (none : Option Bytes32) = if change.cancelled = true then some id else none := by
      rw [hcancelled, if_neg Bool.false_ne_true]
    refine .settle id change { change with executed := true } rfl rfl hfound hexecuted hcancelled rfl
      hcancels (.inl rfl) rfl (fun _ => hripe) ?_ rfl rfl rfl
    intro hwindow
    have hnext : (timelockConfig t.timelock).Bounded := dispatch_window hdispatched hwindow
    exact hnext
  | _ => exact .quiet rfl rfl rfl rfl rfl

/-- What an accepted call does to the queued changes. -/
theorem step_scheduling {i : Input contract} {o : Answer}
    (h : (machine contract crypto).step s i = .ok (o, s')) : Scheduling crypto ⟨s, i, o, s'⟩ := by
  obtain ⟨env, registries, call⟩ := i
  cases call with
  | govern call => exact (govern_spec (step_govern rfl h)).scheduling
  | lend call =>
    obtain ⟨l, _, rfl⟩ := step_lend rfl h
    exact .quiet rfl rfl rfl rfl rfl
  | catalog call =>
    obtain ⟨c, _, rfl⟩ := step_catalog rfl h
    exact .quiet rfl rfl rfl rfl rfl
  | serve call =>
    obtain ⟨v, _, rfl⟩ := step_serve rfl h
    exact .quiet rfl rfl rfl rfl rfl

end Specs

section Backing

variable {es : List (Step contract)}

/-- Every recorded change has the line that queued it. -/
def Backed (s : State) (es : List (Step contract)) : Prop :=
  ∀ id change, s.timelock.queuedChange id = some change → ∃ q ∈ es, Queues q id change

theorem Backed.mono {e : Step contract} (hs : Backed s es) : Backed s (es ++ [e]) := by
  intro id change hfound
  obtain ⟨q, hq, hline⟩ := hs id change hfound
  exact ⟨q, List.mem_append_left _ hq, hline⟩

theorem Scheduling.backed {e : Step contract} (h : Scheduling crypto e) (hs : Backed e.pre es) :
    Backed e.post (es ++ [e]) := by
  have hkept : Backed e.pre (es ++ [e]) := hs.mono
  cases h with
  | quiet _ _ _ _ htimelock =>
    rw [Backed, htimelock]
    exact hkept
  | queue id change _ hline _ _ _ _ _ _ _ _ _ htimelock =>
    have hstored : e.post.timelock.queuedChange =
        Function.update e.pre.timelock.queuedChange id (some change) := by rw [htimelock]
    exact forall_update_row hkept hstored ⟨e, List.mem_concat_self, hline⟩
  | settle id change next _ _ hfound _ _ _ _ _ hsame _ _ _ hstored =>
    obtain ⟨q, hq, hline⟩ := hkept id change hfound
    have hnext : Queues q id next := by
      rw [hsame]
      exact ⟨hline.call, hline.answer, hline.queuedAt, hline.delay⟩
    exact forall_update_row hkept hstored ⟨q, hq, hnext⟩

theorem run_backed (is : List (Input contract)) :
    Backed ((machine contract crypto).run State.empty is)
      ((machine contract crypto).journal State.empty is) := by
  refine Machine.run_journal_invariant (P := Backed) ?_ ?_ is
  · intro id change hfound
    cases hfound
  · intro es s i o s' hs h
    exact (step_scheduling h).backed hs

end Backing

end Schedules

variable {contract : Address} {crypto : Crypto} {s s' : State} {es : List (Step contract)}
variable {e : Step contract} {id : Bytes32}

def queuedIds (es : List (Step contract)) : List Bytes32 := es.filterMap Step.queued

def executedIds (es : List (Step contract)) : List Bytes32 := es.filterMap Step.executes

def cancelledIds (es : List (Step contract)) : List Bytes32 := es.filterMap Step.cancels

/-- The change has a record with a property. -/
def Recorded (s : State) (p : QueuedChange → Prop) (id : Bytes32) : Prop :=
  ∃ change, s.timelock.queuedChange id = some change ∧ p change

/-- Neither executed nor cancelled. -/
def QueuedChange.Waits (change : QueuedChange) : Prop :=
  change.executed = false ∧ change.cancelled = false

/-- The records of the timelock and the lines of a run that wrote them. -/
structure Scheduled (crypto : Crypto) (s : State) (es : List (Step contract)) : Prop where
  issued : Issued (crypto.sha256 ∘ fun p => p.rotate 8) (fun id => s.timelock.queuedChange id ≠ none)
    s.timelock.counter (es.filterMap (Step.turnedSalt crypto))
  window : (timelockConfig s.timelock).Bounded
  stored : ∀ id, id ∈ queuedIds es ↔ s.timelock.queuedChange id ≠ none
  executed : ∀ id, id ∈ executedIds es ↔ Recorded s (fun change => change.executed = true) id
  cancelled : ∀ id, id ∈ cancelledIds es ↔ Recorded s (fun change => change.cancelled = true) id
  once : (executedIds es).Nodup
  pending : ∀ id, id ∈ s.timelock.pendingIds ↔ Recorded s QueuedChange.Waits id
  nodup : s.timelock.pendingIds.Nodup
  room : s.timelock.pendingIds.length ≤ maxQueuedChanges
  single : ∀ id id' change change', id ∈ s.timelock.pendingIds → id' ∈ s.timelock.pendingIds →
    s.timelock.queuedChange id = some change → s.timelock.queuedChange id' = some change' →
    change.proposer = change'.proposer → change.action = change'.action → id = id'

section Invariant

theorem recorded_iff {p : QueuedChange → Prop} {change : QueuedChange}
    (h : s.timelock.queuedChange id = some change) : Recorded s p id ↔ p change := by
  simp [Recorded, h]

theorem not_recorded {p : QueuedChange → Prop} (h : s.timelock.queuedChange id = none) :
    ¬Recorded s p id := by
  rintro ⟨row, hrow, _⟩
  rw [h] at hrow
  cases hrow

/-- A property that the record under an id has not had so far comes with the new record or not at all;
the line yields the id exactly when it comes. -/
theorem recorded_snoc {p : QueuedChange → Prop} [DecidablePred p]
    {f : Step contract → Option Bytes32} {next : QueuedChange} (hunset : ¬Recorded e.pre p id)
    (hf : f e = if p next then some id else none)
    (hstored : e.post.timelock.queuedChange =
      Function.update e.pre.timelock.queuedChange id (some next))
    (hids : ∀ x, x ∈ es.filterMap f ↔ Recorded e.pre p x) (x : Bytes32) :
    x ∈ (es ++ [e]).filterMap f ↔ Recorded e.post p x := by
  rw [mem_filterMap_snoc, hids, hf]
  by_cases hx : x = id
  · subst hx
    have hnew : Recorded e.post p x ↔ p next := by
      apply recorded_iff
      rw [hstored, Function.update_self]
    rw [hnew]
    by_cases hp : p next
    · simp [hp]
    · simp [hp, hunset]
  · have hother : ¬(if p next then some id else none) = some x := by
      split_ifs
      · exact fun heq => hx (Option.some.inj heq).symm
      · exact not_false
    have hold : Recorded e.post p x ↔ Recorded e.pre p x := by
      rw [Recorded, Recorded, hstored, Function.update_of_ne hx]
    rw [hold]
    exact or_iff_left hother

theorem scheduled_empty : Scheduled crypto State.empty ([] : List (Step contract)) where
  issued := issued_empty.mono fun _ h => h rfl
  window := ⟨by decide, by decide, by decide⟩
  stored id := iff_of_false List.not_mem_nil fun h => h rfl
  executed id := iff_of_false List.not_mem_nil fun ⟨_, h, _⟩ => by cases h
  cancelled id := iff_of_false List.not_mem_nil fun ⟨_, h, _⟩ => by cases h
  once := List.nodup_nil
  pending id := iff_of_false List.not_mem_nil fun ⟨_, h, _⟩ => by cases h
  nodup := List.nodup_nil
  room := Nat.zero_le _
  single id id' change change' h := absurd h List.not_mem_nil

theorem Queues.queued {change : QueuedChange} (h : Queues e id change) : e.queued = some id := by
  simp [Step.queued, h.call, h.answer]

/-- A proposer's own pending change for an action keeps the next one out. -/
theorem alreadyQueued_of_mem {t : Timelock} {change : QueuedChange} (hmem : id ∈ t.pendingIds)
    (hstored : t.queuedChange id = some change) (hcancelled : change.cancelled = false) :
    alreadyQueued t change.proposer change.action = true := by
  rw [alreadyQueued, List.any_eq_true]
  refine ⟨id, hmem, ?_⟩
  simp [hstored, hcancelled]

theorem Scheduled.quiet (hs : Scheduled crypto e.pre es) (hqueued : e.queued = none)
    (hcancels : e.cancels = none) (hexecutes : e.executes = none)
    (hsalt : e.turnedSalt crypto = none) (htimelock : e.post.timelock = e.pre.timelock) :
    Scheduled crypto e.post (es ++ [e]) := by
  have hqueuedIds : queuedIds (es ++ [e]) = queuedIds es := by
    rw [queuedIds, filterMap_snoc, hqueued, Option.toList_none, List.append_nil, queuedIds]
  have hexecutedIds : executedIds (es ++ [e]) = executedIds es := by
    rw [executedIds, filterMap_snoc, hexecutes, Option.toList_none, List.append_nil, executedIds]
  have hcancelledIds : cancelledIds (es ++ [e]) = cancelledIds es := by
    rw [cancelledIds, filterMap_snoc, hcancels, Option.toList_none, List.append_nil, cancelledIds]
  obtain ⟨hissued, hwindow, hstored, hexecuted, hcancelled, honce, hpending, hnodup, hroom,
    hsingle⟩ := hs
  simp only [Recorded, ← htimelock] at *
  refine ⟨?_, hwindow, ?_, ?_, ?_, ?_, hpending, hnodup, hroom, hsingle⟩
  · rw [filterMap_snoc, hsalt, Option.toList_none, List.append_nil]
    exact hissued
  · rw [hqueuedIds]
    exact hstored
  · rw [hexecutedIds]
    exact hexecuted
  · rw [hcancelledIds]
    exact hcancelled
  · rw [hexecutedIds]
    exact honce

/-- The id of the next change is unused. -/
theorem Scheduled.unused (hs : Scheduled crypto s es) {rest : List Byte}
    (hfits : s.timelock.counter + 1 < 2^64)
    (hfree : CollisionFree (crypto.sha256 ∘ fun p => p.rotate 8)
      (es.filterMap (Step.turnedSalt crypto) ++ [beBytes 8 (s.timelock.counter + 1) ++ rest])) :
    s.timelock.queuedChange
      (crypto.sha256 ((beBytes 8 (s.timelock.counter + 1) ++ rest).rotate 8)) = none := by
  have hunused := hs.issued.fresh rfl hfits hfree
  rw [not_not] at hunused
  exact hunused

/-- No pending change of the same proposer is for the same action. -/
theorem Scheduled.no_rival (hs : Scheduled crypto s es) {change row : QueuedChange}
    (hsingle : alreadyQueued s.timelock change.proposer change.action = false)
    (hpending : id ∈ s.timelock.pendingIds) (hrow : s.timelock.queuedChange id = some row)
    (hproposer : row.proposer = change.proposer) : row.action ≠ change.action := by
  intro haction
  obtain ⟨row', hrow', hwaits⟩ := (hs.pending id).mp hpending
  obtain rfl := Option.some.inj (hrow.symm.trans hrow')
  have halready := alreadyQueued_of_mem hpending hrow hwaits.2
  rw [hproposer, haction, hsingle] at halready
  cases halready

/-- A change that a line queues has an unused id. -/
theorem Scheduled.queue (hs : Scheduled crypto e.pre es) {change : QueuedChange} {rest : List Byte}
    (hfree : CollisionFree (crypto.sha256 ∘ fun p => p.rotate 8)
      ((es ++ [e]).filterMap (Step.turnedSalt crypto)))
    (hline : Queues e id change) (hcancels : e.cancels = none)
    (hexecutes : e.executes = none)
    (hsalt : e.turnedSalt crypto = some (beBytes 8 (e.pre.timelock.counter + 1) ++ rest))
    (hfits : e.pre.timelock.counter + 1 < 2^64)
    (hhashed : id = crypto.sha256 ((beBytes 8 (e.pre.timelock.counter + 1) ++ rest).rotate 8))
    (hroom : e.pre.timelock.pendingIds.length < maxQueuedChanges)
    (hsingle : alreadyQueued e.pre.timelock change.proposer change.action = false)
    (hopen : change.Waits)
    (htimelock : e.post.timelock = { e.pre.timelock with
      counter := e.pre.timelock.counter + 1
      queuedChange := Function.update e.pre.timelock.queuedChange id (some change)
      pendingIds := e.pre.timelock.pendingIds ++ [id] }) :
    Scheduled crypto e.post (es ++ [e]) := by
  have hsalts : (es ++ [e]).filterMap (Step.turnedSalt crypto) =
      es.filterMap (Step.turnedSalt crypto) ++ [beBytes 8 (e.pre.timelock.counter + 1) ++ rest] := by
    rw [filterMap_snoc, hsalt, Option.toList_some]
  rw [hsalts] at hfree
  have hfresh : e.pre.timelock.queuedChange id = none := by
    rw [hhashed]
    exact hs.unused hfits hfree
  have hunpending : id ∉ e.pre.timelock.pendingIds := by
    rw [hs.pending]
    exact not_recorded hfresh
  have hstored : e.post.timelock.queuedChange =
      Function.update e.pre.timelock.queuedChange id (some change) := by rw [htimelock]
  have hpendingIds : e.post.timelock.pendingIds = e.pre.timelock.pendingIds ++ [id] := by
    rw [htimelock]
  refine ⟨?_, ?_, ?_, ?_, ?_, ?_, ?_, ?_, ?_, ?_⟩
  · rw [hsalts, hstored, htimelock]
    exact hs.issued.insert rfl hfits hhashed
  · rw [htimelock]
    exact hs.window
  · intro x
    rw [queuedIds, mem_filterMap_snoc, hline.queued, hstored, Option.some.injEq]
    by_cases hx : x = id
    · rw [hx, Function.update_self]
      exact iff_of_true (.inr rfl) (Option.some_ne_none change)
    · rw [Function.update_of_ne hx, ← hs.stored]
      exact or_iff_left fun heq => hx heq.symm
  · refine recorded_snoc (not_recorded hfresh) ?_ hstored hs.executed
    rw [hexecutes, if_neg]
    rw [hopen.1]
    exact Bool.false_ne_true
  · refine recorded_snoc (not_recorded hfresh) ?_ hstored hs.cancelled
    rw [hcancels, if_neg]
    rw [hopen.2]
    exact Bool.false_ne_true
  · rw [executedIds, filterMap_snoc, hexecutes, Option.toList_none, List.append_nil]
    exact hs.once
  · intro x
    rw [hpendingIds, List.mem_append, List.mem_singleton, hs.pending, Recorded, Recorded, hstored,
      exists_update_row]
    constructor
    · intro h
      by_cases hx : x = id
      · exact .inl ⟨hx, hopen⟩
      · exact .inr ⟨hx, h.resolve_right hx⟩
    · intro h
      rcases h with ⟨hx, _⟩ | ⟨_, h⟩
      · exact .inr hx
      · exact .inl h
  · rw [hpendingIds]
    exact hs.nodup.append (List.nodup_singleton id) (List.disjoint_singleton.mpr hunpending)
  · rw [hpendingIds, List.length_append, List.length_singleton]
    exact hroom
  · -- A pending change of the same proposer for the same action would have kept this one out.
    intro x x' row row' hx hx' hrow hrow' hproposer haction
    rw [hpendingIds, List.mem_append, List.mem_singleton] at hx hx'
    rw [hstored] at hrow hrow'
    rcases update_row_cases hrow with ⟨rfl, rfl⟩ | ⟨hne, hold⟩
    · rcases update_row_cases hrow' with ⟨rfl, _⟩ | ⟨hne', hold'⟩
      · rfl
      · exact absurd haction.symm
          (hs.no_rival hsingle (hx'.resolve_right hne') hold' hproposer.symm)
    · rcases update_row_cases hrow' with ⟨rfl, rfl⟩ | ⟨hne', hold'⟩
      · exact absurd haction (hs.no_rival hsingle (hx.resolve_right hne) hold hproposer)
      · exact hs.single x x' row row' (hx.resolve_right hne) (hx'.resolve_right hne') hold hold'
          hproposer haction

/-- A waiting change is executed or cancelled. -/
theorem Scheduled.settle (hs : Scheduled crypto e.pre es) {change next : QueuedChange}
    (hqueued : e.queued = none) (hsalt : e.turnedSalt crypto = none)
    (hfound : e.pre.timelock.queuedChange id = some change) (hopen : change.Waits)
    (hexecutes : e.executes = if next.executed = true then some id else none)
    (hcancels : e.cancels = if next.cancelled = true then some id else none)
    (hsettled : next.executed = true ∨ next.cancelled = true)
    (hwindow : (timelockConfig e.post.timelock).Bounded)
    (hcounter : e.post.timelock.counter = e.pre.timelock.counter)
    (hstored : e.post.timelock.queuedChange =
      Function.update e.pre.timelock.queuedChange id (some next))
    (hpendingIds : e.post.timelock.pendingIds =
      e.pre.timelock.pendingIds.filter fun x => x ≠ id) :
    Scheduled crypto e.post (es ++ [e]) := by
  have hunexecuted : ¬Recorded e.pre (fun row => row.executed = true) id := by
    rw [recorded_iff hfound, hopen.1]
    exact Bool.false_ne_true
  have huncancelled : ¬Recorded e.pre (fun row => row.cancelled = true) id := by
    rw [recorded_iff hfound, hopen.2]
    exact Bool.false_ne_true
  have hdone : ¬next.Waits := by
    intro h
    rcases hsettled with hset | hset
    · rw [h.1] at hset
      cases hset
    · rw [h.2] at hset
      cases hset
  have hkeeps : ∀ x, x ∈ e.post.timelock.pendingIds ↔ x ∈ e.pre.timelock.pendingIds ∧ x ≠ id := by
    intro x
    rw [hpendingIds, List.mem_filter, decide_eq_true_iff]
  refine ⟨?_, hwindow, ?_, ?_, ?_, ?_, ?_, ?_, ?_, ?_⟩
  · rw [filterMap_snoc, hsalt, Option.toList_none, List.append_nil, hcounter, hstored]
    exact hs.issued.rewrite hfound
  · intro x
    rw [queuedIds, mem_filterMap_snoc_none hqueued, hstored]
    by_cases hx : x = id
    · rw [hx, Function.update_self]
      refine iff_of_true ((hs.stored id).mpr ?_) (Option.some_ne_none next)
      rw [hfound]
      exact Option.some_ne_none change
    · rw [Function.update_of_ne hx]
      exact hs.stored x
  · exact recorded_snoc hunexecuted hexecutes hstored hs.executed
  · exact recorded_snoc huncancelled hcancels hstored hs.cancelled
  · rw [executedIds, filterMap_snoc, hexecutes]
    split_ifs
    · have hfirst : id ∉ executedIds es := by
        rw [hs.executed]
        exact hunexecuted
      exact hs.once.append (List.nodup_singleton id) (List.disjoint_singleton.mpr hfirst)
    · rw [Option.toList_none, List.append_nil]
      exact hs.once
  · intro x
    rw [hkeeps, hs.pending, Recorded, Recorded, hstored, exists_update_row]
    constructor
    · intro h
      exact .inr ⟨h.2, h.1⟩
    · intro h
      rcases h with ⟨_, hwaits⟩ | ⟨hne, hwaits⟩
      · exact absurd hwaits hdone
      · exact ⟨hwaits, hne⟩
  · rw [hpendingIds]
    exact hs.nodup.filter _
  · rw [hpendingIds]
    exact (List.length_filter_le _ _).trans hs.room
  · intro x x' row row' hx hx' hrow hrow' hproposer haction
    obtain ⟨hx, hne⟩ := (hkeeps x).mp hx
    obtain ⟨hx', hne'⟩ := (hkeeps x').mp hx'
    rw [hstored, Function.update_of_ne hne] at hrow
    rw [hstored, Function.update_of_ne hne'] at hrow'
    exact hs.single x x' row row' hx hx' hrow hrow' hproposer haction

theorem Scheduling.scheduled (h : Scheduling crypto e) (hs : Scheduled crypto e.pre es)
    (hfree : CollisionFree (crypto.sha256 ∘ fun p => p.rotate 8)
      ((es ++ [e]).filterMap (Step.turnedSalt crypto))) :
    Scheduled crypto e.post (es ++ [e]) := by
  cases h with
  | quiet hqueued hcancels hexecutes hsalt htimelock =>
    exact hs.quiet hqueued hcancels hexecutes hsalt htimelock
  | queue id change rest hline hcancels hexecutes hsalt hfits hhashed hroom hsingle hexecuted
      hcancelled htimelock =>
    exact hs.queue hfree hline hcancels hexecutes hsalt hfits hhashed hroom hsingle
      ⟨hexecuted, hcancelled⟩ htimelock
  | settle id change next hqueued hsalt hfound hexecuted hcancelled hexecutes hcancels hsettled _
      _ hwindow hcounter hstored hpendingIds =>
    exact hs.settle hqueued hsalt hfound ⟨hexecuted, hcancelled⟩ hexecutes hcancels hsettled
      (hwindow hs.window) hcounter hstored hpendingIds

theorem run_scheduled (is : List (Input contract))
    (hfree : CollisionFree crypto.sha256
      (((machine contract crypto).journal State.empty is).filterMap (Step.salt crypto))) :
    Scheduled crypto ((machine contract crypto).run State.empty is)
      ((machine contract crypto).journal State.empty is) := by
  rw [salts_eq_rotated] at hfree
  refine Machine.run_journal_invariant (P := fun s es =>
    CollisionFree (crypto.sha256 ∘ fun p => p.rotate 8) (es.filterMap (Step.turnedSalt crypto)) →
      Scheduled crypto s es) ?_ ?_ is (hfree.of_map (List.rotate_injective 8))
  · exact fun _ => scheduled_empty
  · intro es s i o s' hs h hfree
    exact (step_scheduling h).scheduled (hs hfree.filterMap_left) hfree

end Invariant

/-- A line that executes a change does so once its eta has come, which lay the delay in force ahead when
the change was queued, and an hour at least; and nobody has cancelled it. -/
structure Matured (earlier : List (Step contract)) (e : Step contract) (id : Bytes32) : Prop where
  queued : ∃ change, e.pre.timelock.queuedChange id = some change ∧
    change.eta ≤ e.input.env.timestamp ∧ ∃ q ∈ earlier, Queues q id change ∧
      q.input.env.timestamp + timelockMinBound ≤ change.eta
  uncancelled : id ∉ cancelledIds earlier

section Results

theorem Scheduled.pending_iff (hs : Scheduled crypto s es) (id : Bytes32) :
    id ∈ s.timelock.pendingIds ↔
      id ∈ queuedIds es ∧ id ∉ executedIds es ∧ id ∉ cancelledIds es := by
  rw [hs.pending, hs.stored, hs.executed, hs.cancelled]
  cases hfound : s.timelock.queuedChange id with
  | none => simp [Recorded, hfound]
  | some change =>
    rw [recorded_iff hfound, recorded_iff hfound, recorded_iff hfound]
    simp [QueuedChange.Waits]

/-- The delay of a change that has been queued is at least the floor of the window. -/
theorem Queues.floor {change : QueuedChange} (h : Queues e id change)
    (hs : Scheduled crypto e.pre es) :
    e.input.env.timestamp + timelockMinBound ≤ change.eta := by
  have hdelay := h.delay
  have hfloor := hs.window.floor
  omega

/-- The store in which a line is taken is scheduled by the lines before it. -/
theorem line_scheduled {earlier later : List (Step contract)} (is : List (Input contract))
    (hfree : CollisionFree crypto.sha256
      (((machine contract crypto).journal State.empty is).filterMap (Step.salt crypto)))
    (hes : (machine contract crypto).journal State.empty is = earlier ++ e :: later) :
    Scheduled crypto e.pre earlier ∧ Backed e.pre earlier ∧ Scheduling crypto e := by
  obtain ⟨js, _, _, hjournal, hrun, hstep⟩ := Machine.journal_split hes
  rw [hes] at hfree
  have hbacked := @run_backed contract crypto js
  rw [hjournal, hrun] at hbacked
  refine ⟨?_, hbacked, step_scheduling hstep⟩
  rw [← hrun, ← hjournal]
  apply run_scheduled
  rw [hjournal]
  exact hfree.filterMap_left

theorem line_matured {earlier later : List (Step contract)} (is : List (Input contract))
    (hfree : CollisionFree crypto.sha256
      (((machine contract crypto).journal State.empty is).filterMap (Step.salt crypto)))
    (hes : (machine contract crypto).journal State.empty is = earlier ++ e :: later)
    (hexecutes : e.executes = some id) : Matured earlier e id := by
  obtain ⟨hpre, hbacked, hline⟩ := line_scheduled is hfree hes
  cases hline with
  | quiet _ _ hnone =>
    rw [hexecutes] at hnone
    cases hnone
  | queue _ _ _ _ _ hnone =>
    rw [hexecutes] at hnone
    cases hnone
  | settle x change next _ _ hfound _ hcancelled hsome _ _ _ hripe =>
    rw [hexecutes] at hsome
    split_ifs at hsome with hset
    obtain rfl := Option.some.inj hsome
    obtain ⟨q, hq, hqueues⟩ := hbacked id change hfound
    obtain ⟨qs, rest, hearlier⟩ := List.append_of_mem hq
    rw [hearlier, List.append_assoc] at hes
    have hfloor := hqueues.floor (line_scheduled is hfree hes).1
    refine ⟨⟨change, hfound, hripe hset, q, hq, hqueues, hfloor⟩, ?_⟩
    rw [hpre.cancelled, recorded_iff hfound, hcancelled]
    exact Bool.false_ne_true

end Results

/-- Over every run whose change ids do not collide, each change is executed at most once, when it has
matured; the pending list has exactly the changes neither executed nor cancelled, once each, and never
more than 64 of them or two of one proposer for one action; and the window stays within its bounds. -/
theorem run_timelock (is : List (Input contract))
    (hfree : CollisionFree crypto.sha256
      (((machine contract crypto).journal State.empty is).filterMap (Step.salt crypto))) :
    let s := (machine contract crypto).run State.empty is
    let es := (machine contract crypto).journal State.empty is
    (executedIds es).Nodup ∧
    (∀ earlier e later, es = earlier ++ e :: later → ∀ id, e.executes = some id →
      Matured earlier e id) ∧
    s.timelock.pendingIds.Nodup ∧ s.timelock.pendingIds.length ≤ 64 ∧
    (∀ id, id ∈ s.timelock.pendingIds ↔
      id ∈ queuedIds es ∧ id ∉ executedIds es ∧ id ∉ cancelledIds es) ∧
    (∀ id id' change change', id ∈ s.timelock.pendingIds → id' ∈ s.timelock.pendingIds →
      s.timelock.queuedChange id = some change → s.timelock.queuedChange id' = some change' →
      change.proposer = change'.proposer → change.action = change'.action → id = id') ∧
    (timelockConfig s.timelock).Bounded := by
  intro s es
  have hs : Scheduled crypto s es := run_scheduled is hfree
  refine ⟨hs.once, ?_, hs.nodup, hs.room, hs.pending_iff, hs.single, hs.window⟩
  intro earlier e later hes id hexecutes
  exact line_matured is hfree hes hexecutes

/-- The administrator queues a new registry a week ahead, and it is executed when the week is over. -/
def sampleExecuted : List (Input ⟨0⟩) :=
  [sampleBootstrap,
    ⟨.sample, sampleRegistries, .govern (.queueChange ⟨1⟩ (.updateCourseRegistry ⟨7⟩) 604810)⟩,
    ⟨.signedByAll ⟨0⟩ 604811 (by decide), sampleRegistries, .govern (.executeChange ⟨9⟩ sampleChangeId)⟩]

theorem sampleExecuted_matured :
    let es := (machine ⟨0⟩ sampleCrypto).journal State.empty sampleExecuted
    executedIds es = [sampleChangeId] ∧
      ∃ earlier, ∃ e : Step ⟨0⟩, e ∈ es ∧ e.executes = some sampleChangeId ∧ Matured earlier e sampleChangeId := by
  intro es
  have hexecuted : executedIds es = [sampleChangeId] := by decide +kernel
  have hlocked := @run_timelock ⟨0⟩ sampleCrypto sampleExecuted (by decide +kernel)
  have hmem : sampleChangeId ∈ executedIds es := by
    rw [hexecuted]
    exact List.mem_singleton_self _
  obtain ⟨e, he, hexecutes⟩ := List.mem_filterMap.mp hmem
  obtain ⟨earlier, later, hes⟩ := List.append_of_mem he
  exact ⟨hexecuted, earlier, e, he, hexecutes,
    hlocked.2.1 earlier e later hes sampleChangeId hexecutes⟩

end ChainVerse.LibraryRights
