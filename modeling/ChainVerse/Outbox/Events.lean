import ChainVerse.Outbox.Steps
import ChainVerse.Framework.Histories
import Mathlib.Data.Set.Card
import Mathlib.Order.Interval.Set.Nat

namespace ChainVerse.ScholarshipOutbox

section Events

variable {contract : Address} {env : Env contract} {s s' : State}

/-- The id the next event gets. -/
def State.next (s : State) : Nat := s.nextEventId.getD 1

/-- The ids whose event is in storage. -/
def State.stored (s : State) : Set Nat := {id | s.event id ≠ none}

/-- The stored events that have not left the chain. -/
def State.unpublished (s : State) : Set Nat :=
  {id | ∃ event, s.event id = some event ∧ event.publishedAt = 0}

/-- The storage that events live in is untouched. -/
structure SameEvents (s s' : State) : Prop where
  admin : s'.admin = s.admin
  next : s'.nextEventId = s.nextEventId
  pending : s'.pending = s.pending
  floor : s'.pruneFloor = s.pruneFloor
  event : s'.event = s.event
  dedup : s'.dedup = s.dedup

/-- The numbering of events: a stored window below the next id, and one key for each id. -/
structure Numbered (s : State) : Prop where
  fresh : s.admin = none → s.next = 1 ∧ s.pruneFloor = 1
  floor_pos : 0 < s.pruneFloor
  floor_le : s.pruneFloor ≤ s.next
  stored : s.stored = Set.Ico s.pruneFloor s.next
  keyed : ∀ {key id}, s.dedup key = some id → 0 < id ∧ id < s.next
  distinct : ∀ {key key' id}, s.dedup key = some id → s.dedup key' = some id → key = key'

/-- The backlog counter counts the unpublished events. -/
structure Backlogged (s : State) : Prop where
  pending : s.unpublished.ncard = s.pending
  bounded : s.pending ≤ maxPendingEvents

structure Intact (s : State) : Prop extends Numbered s, Backlogged s

section Storage

theorem SameEvents.unchanged (h : SameEvents s s') :
    s'.next = s.next ∧ s'.stored = s.stored ∧ s'.unpublished = s.unpublished := by
  simp only [State.next, State.stored, State.unpublished, h.next, h.event, and_self]

theorem Numbered.of_same (hs : Numbered s) (h : SameEvents s s') : Numbered s' := by
  obtain ⟨hnext, hstored, _⟩ := h.unchanged
  constructor
  · rw [h.admin, hnext, h.floor]
    exact hs.fresh
  · rw [h.floor]
    exact hs.floor_pos
  · rw [h.floor, hnext]
    exact hs.floor_le
  · rw [hstored, h.floor, hnext]
    exact hs.stored
  · rw [h.dedup, hnext]
    exact hs.keyed
  · rw [h.dedup]
    exact hs.distinct

theorem Backlogged.of_same (hs : Backlogged s) (h : SameEvents s s') : Backlogged s' := by
  obtain ⟨_, _, hunpublished⟩ := h.unchanged
  exact ⟨by rw [hunpublished, h.pending, hs.pending], by rw [h.pending]; exact hs.bounded⟩

theorem advanceHistory_same {endpointId sequence : Nat}
    (h : advanceHistory s endpointId sequence = .ok s') : SameEvents s s' := by
  rcases advanceHistory_cases h with ⟨_, rfl⟩ | ⟨_, rfl⟩ | ⟨_, _, rfl⟩ <;>
    exact ⟨rfl, rfl, rfl, rfl, rfl, rfl⟩

/-- A delivery attempt leaves the events alone. -/
theorem record_same {record : DeliveryRecord} {endpoint : WebhookEndpoint} {advanced : State}
    {endpointId sequence : Nat}
    (h : advanceHistory (s.attempted record) endpointId sequence = .ok advanced) :
    SameEvents s (saveEndpoint advanced endpoint) := by
  have hadvanced := advanceHistory_same h
  exact ⟨hadvanced.admin, hadvanced.next, hadvanced.pending, hadvanced.floor, hadvanced.event,
    hadvanced.dedup⟩

theorem Numbered.not_mem_next (hs : Numbered s) : s.event s.next = none := by
  have hout : s.next ∉ s.stored := by
    rw [hs.stored]
    exact fun hin => lt_irrefl _ hin.2
  simpa [State.stored] using hout

theorem unpublished_subset_stored : s.unpublished ⊆ s.stored := by
  rintro id ⟨event, hevent, _⟩
  simp [State.stored, hevent]

theorem Numbered.finite (hs : Numbered s) : s.unpublished.Finite := by
  have hstored : s.stored.Finite := by
    rw [hs.stored]
    exact Set.finite_Ico _ _
  exact hstored.subset unpublished_subset_stored

theorem stored_swept (hs : Numbered s) (count : Nat) :
    (s.swept count).stored = Set.Ico (s.pruneFloor + count) s.next := by
  ext id
  have hid : s.event id ≠ none ↔ s.pruneFloor ≤ id ∧ id < s.next := by
    have := Set.ext_iff.mp hs.stored id
    simpa [State.stored] using this
  have hfloor := hs.floor_le
  simp only [State.stored, State.swept, Set.mem_ofPred_eq, Set.mem_Ico]
  split_ifs with hgone
  · simp only [ne_eq, not_true_eq_false, false_iff]
    omega
  · rw [hid]
    omega

/-- What a sweep steps over is published, so the backlog is as it was. -/
theorem unpublished_swept {horizon count : Nat}
    (hremoved : ∀ id, s.pruneFloor ≤ id → id < s.pruneFloor + count →
      removable horizon (s.event id) = true) : (s.swept count).unpublished = s.unpublished := by
  ext id
  simp only [State.unpublished, State.swept, Set.mem_ofPred_eq]
  split_ifs with hgone
  · have hremovable := hremoved id hgone.1 hgone.2
    constructor
    · rintro ⟨event, hevent, _⟩
      cases hevent
    · rintro ⟨event, hevent, hunpublished⟩
      simp [hevent, removable, hunpublished] at hremovable
  · rfl

theorem unpublished_insert {id : Nat} {event : OutboxEvent} (habsent : s.event id = none)
    (hnew : event.publishedAt = 0)
    (hevent : s'.event = Function.update s.event id (some event)) :
    s'.unpublished = insert id s.unpublished := by
  ext other
  simp only [State.unpublished, hevent, Set.mem_ofPred_eq, Set.mem_insert_iff]
  rcases eq_or_ne other id with rfl | hne
  · simp [hnew]
  · simp [hne]

theorem unpublished_erase {id : Nat} {event : OutboxEvent} (hpublished : event.publishedAt ≠ 0)
    (hevent : s'.event = Function.update s.event id (some event)) :
    s'.unpublished = s.unpublished \ {id} := by
  ext other
  simp only [State.unpublished, hevent, Set.mem_ofPred_eq, Set.mem_sdiff, Set.mem_singleton_iff]
  rcases eq_or_ne other id with rfl | hne
  · simp [hpublished]
  · simp [hne]

theorem stored_update {id : Nat} {event : OutboxEvent}
    (hevent : s'.event = Function.update s.event id (some event)) :
    s'.stored = insert id s.stored := by
  ext other
  simp only [State.stored, hevent, Set.mem_ofPred_eq, Set.mem_insert_iff]
  rcases eq_or_ne other id with rfl | hne
  · simp
  · simp [hne]

end Storage

section Preservation

theorem numbered_empty : Numbered State.empty := by
  constructor
  · exact fun _ => ⟨rfl, rfl⟩
  · exact Nat.one_pos
  · exact le_rfl
  · simp [State.stored, State.next, State.empty]
  · simp [State.empty]
  · simp [State.empty]

theorem backlogged_empty : Backlogged State.empty := by
  constructor
  · simp [State.unpublished, State.empty]
  · simp [State.empty]

theorem Numbered.enqueue (hs : Numbered s) {id : Nat} {event : OutboxEvent} {dedupKey : Bytes32}
    (hid : s.next = id)
    (hadmin : s'.admin ≠ none) (hnext : s'.nextEventId = some (id + 1))
    (hfloor : s'.pruneFloor = s.pruneFloor)
    (hevent : s'.event = Function.update s.event id (some event))
    (hdedup : s'.dedup = Function.update s.dedup dedupKey (some id)) : Numbered s' := by
  have hnext' : s'.next = id + 1 := by simp [State.next, hnext]
  have hpos := hs.floor_pos
  have hle := hs.floor_le
  rw [hid] at hle
  have hbound : ∀ {key other}, s'.dedup key = some other →
      key = dedupKey ∧ other = id ∨ key ≠ dedupKey ∧ s.dedup key = some other := by
    intro key other hkey
    rw [hdedup, Function.update_apply] at hkey
    split_ifs at hkey with hsame
    · exact .inl ⟨hsame, (Option.some.inj hkey).symm⟩
    · exact .inr ⟨hsame, hkey⟩
  constructor
  · exact fun h => absurd h hadmin
  · rwa [hfloor]
  · rw [hfloor, hnext']
    omega
  · rw [stored_update hevent, hs.stored, hid, hfloor, hnext']
    ext other
    simp only [Set.mem_insert_iff, Set.mem_Ico]
    omega
  · intro key other hkey
    rw [hnext']
    rcases hbound hkey with ⟨_, rfl⟩ | ⟨_, hold⟩
    · omega
    · have := hs.keyed hold
      omega
  · intro key key' other hkey hkey'
    rcases hbound hkey with ⟨hnew, hother⟩ | ⟨_, hold⟩ <;>
      rcases hbound hkey' with ⟨hnew', hother'⟩ | ⟨_, hold'⟩
    · exact hnew.trans hnew'.symm
    · have := hs.keyed hold'
      omega
    · have := hs.keyed hold
      omega
    · exact hs.distinct hold hold'

theorem Effect.numbered {call : Call} {answer : Answer} (h : Effect env s call answer s')
    (hs : Numbered s) : Numbered s' := by
  cases h with
  | start _ habsent =>
    obtain ⟨hnext, hfloor⟩ := hs.fresh habsent
    have hstored := hs.stored
    rw [hnext, hfloor] at hstored
    refine ⟨fun h => ?_, Nat.one_pos, le_rfl, hstored, fun hkey => ?_, hs.distinct⟩
    · cases h
    · have := hs.keyed hkey
      rwa [hnext] at this
  | @enqueue _ _ _ _ id _ _ _ _ hrole _ _ hnextId =>
    have hid : s.next = id := by rw [State.next, hnextId, Option.getD_some]
    exact hs.enqueue hid (by simp [hrole]) rfl rfl rfl rfl
  | @publish _ event id _ _ hstored _ =>
    have hmem : id ∈ s.stored := by simp [State.stored, hstored]
    refine ⟨hs.fresh, hs.floor_pos, hs.floor_le, ?_, hs.keyed, hs.distinct⟩
    rw [stored_update rfl, Set.insert_eq_of_mem hmem]
    exact hs.stored
  | @prune _ horizon limit count hrole _ _ hwithin =>
    have hpos := hs.floor_pos
    have hle := hs.floor_le
    refine ⟨fun h => ?_, ?_, ?_, stored_swept hs count, hs.keyed, hs.distinct⟩
    · have : s.admin = none := h
      simp [hrole] at this
    · change 0 < s.pruneFloor + count
      omega
    · change s.pruneFloor + count ≤ s.next
      change count = 0 ∨ s.pruneFloor + count ≤ s.next at hwithin
      omega
  | record _ _ _ _ _ _ _ _ _ hhistory => exact hs.of_same (record_same hhistory)
  | enqueueAgain | acknowledgeAgain => exact hs
  | acknowledge | register | rotate | activate | acknowledgeDelivery | settle =>
    exact hs.of_same ⟨rfl, rfl, rfl, rfl, rfl, rfl⟩

/-- The backlog counter follows the unpublished events, as long as the ledger clock is not at
zero: a publication at time zero would look like none. -/
theorem Effect.backlogged {call : Call} {answer : Answer} (h : Effect env s call answer s')
    (hclock : 0 < env.timestamp) (hn : Numbered s) (hs : Backlogged s) : Backlogged s' := by
  have hpending := hs.pending
  have hbounded := hs.bounded
  cases h with
  | start _ habsent =>
    obtain ⟨hnext, hfloor⟩ := hn.fresh habsent
    have hempty : s.unpublished = ∅ := by
      have hstored := hn.stored
      rw [hnext, hfloor, Set.Ico_self] at hstored
      exact Set.subset_eq_empty unpublished_subset_stored hstored
    refine ⟨?_, Nat.zero_le _⟩
    change s.unpublished.ncard = 0
    rw [hempty, Set.ncard_empty]
  | @enqueue _ _ _ _ id _ _ _ _ _ _ hroom hnextId =>
    have hid : s.next = id := by rw [State.next, hnextId, Option.getD_some]
    have habsent : s.event id = none := hid ▸ hn.not_mem_next
    have hout : id ∉ s.unpublished := by
      rintro ⟨event, hevent, _⟩
      simp [habsent] at hevent
    refine ⟨?_, hroom⟩
    rw [unpublished_insert habsent rfl rfl, Set.ncard_insert_of_notMem hout hn.finite, hpending]
  | @publish _ event id _ _ hstored hunpublished =>
    have hin : id ∈ s.unpublished := ⟨event, hstored, hunpublished⟩
    refine ⟨?_, (Nat.sub_le _ _).trans hbounded⟩
    rw [unpublished_erase hclock.ne' rfl, Set.ncard_sdiff_singleton_of_mem hin, hpending]
  | prune _ _ _ _ hremoved =>
    refine ⟨?_, hbounded⟩
    rw [unpublished_swept hremoved]
    exact hpending
  | record _ _ _ _ _ _ _ _ _ hhistory => exact hs.of_same (record_same hhistory)
  | enqueueAgain | acknowledgeAgain => exact hs
  | acknowledge | register | rotate | activate | acknowledgeDelivery | settle =>
    exact hs.of_same ⟨rfl, rfl, rfl, rfl, rfl, rfl⟩

/-- No call removes an event that is still on its way. -/
theorem Effect.keeps_unpublished {call : Call} {answer : Answer}
    (h : Effect env s call answer s') : s.unpublished ⊆ s'.stored := by
  have hkept : s.stored ⊆ s'.stored → s.unpublished ⊆ s'.stored :=
    unpublished_subset_stored.trans
  cases h with
  | enqueue | publish =>
    apply hkept
    exact (Set.subset_insert _ _).trans (stored_update rfl).ge
  | prune _ _ _ _ hremoved =>
    rw [← unpublished_swept hremoved]
    exact unpublished_subset_stored
  | record _ _ _ _ _ _ _ _ _ hhistory => exact hkept (record_same hhistory).unchanged.2.1.ge
  | start | enqueueAgain | acknowledgeAgain | acknowledge | register | rotate | activate
  | acknowledgeDelivery | settle => exact hkept subset_rfl

/-- A sweep answers with the number of entries that are gone. -/
theorem Effect.prune_answer {admin : Address} {horizon limit : Nat} {answer : Answer}
    (h : Effect env s (.prune admin horizon limit) answer s') (hs : Numbered s) :
    answer = .number (s.stored \ s'.stored).ncard := by
  cases h with
  | @prune _ _ _ count _ _ _ hwithin =>
    have hremoved : s.stored \ (s.swept count).stored =
        Set.Ico s.pruneFloor (s.pruneFloor + count) := by
      have hle := hs.floor_le
      change count = 0 ∨ s.pruneFloor + count ≤ s.next at hwithin
      rw [stored_swept hs count, hs.stored]
      ext id
      simp only [Set.mem_sdiff, Set.mem_Ico]
      omega
    rw [hremoved, Set.ncard_Ico_nat]
    simp
  | settle kind => simp [Call.isSettlement] at kind

end Preservation

section Runs

variable (contract)

theorem run_numbered (is : List (Input contract)) :
    Numbered ((machine contract).run State.empty is) :=
  Machine.run_invariant numbered_empty (fun _ _ _ _ hs h => (execute_effect h).numbered hs) is

theorem journal_numbered {is : List (Input contract)} {e : Entry State (Input contract) Answer}
    (he : e ∈ (machine contract).journal State.empty is) : Numbered e.pre :=
  Machine.journal_invariant numbered_empty (fun _ _ _ _ hs h => (execute_effect h).numbered hs) he

theorem run_intact {is : List (Input contract)} (hclock : ∀ i ∈ is, 0 < i.env.timestamp) :
    Intact ((machine contract).run State.empty is) := by
  have hempty : Intact State.empty := ⟨numbered_empty, backlogged_empty⟩
  apply Machine.run_invariant_on hempty ?_ hclock
  intro s i answer s' hi hs h
  have heffect := execute_effect h
  exact ⟨heffect.numbered hs.toNumbered, heffect.backlogged hi hs.toNumbered hs.toBacklogged⟩

/-- After any calls the stored events are the window from the prune floor to the next id and the
backlog counter counts the unpublished ones, within its bound; on the way no unpublished event was
removed and every sweep has answered with the number of events it removed. -/
theorem run_outbox_intact (is : List (Input contract))
    (hclock : ∀ i ∈ is, 0 < i.env.timestamp) :
    let s := (machine contract).run State.empty is
    s.stored = Set.Ico s.pruneFloor s.next ∧
      s.unpublished.ncard = s.pending ∧ s.pending ≤ maxPendingEvents ∧
      ∀ e ∈ (machine contract).journal State.empty is,
        e.pre.unpublished ⊆ e.post.stored ∧
        ∀ admin horizon limit, e.input.call = .prune admin horizon limit →
          e.output = .number (e.pre.stored \ e.post.stored).ncard := by
  intro s
  have hintact : Intact s := run_intact contract hclock
  refine ⟨hintact.stored, hintact.pending, hintact.bounded, ?_⟩
  intro e he
  have hnumbered := journal_numbered contract he
  have heffect := execute_effect (Machine.journal_step he).1
  refine ⟨heffect.keeps_unpublished, ?_⟩
  intro admin horizon limit hcall
  rw [hcall] at heffect
  exact heffect.prune_answer hnumbered

/-- The sample calls and a sweep that drops the published event and stops at the other. -/
theorem run_outbox_intact_sample :
    let m := machine ⟨0⟩
    let is := sampleCalls ++ [⟨.sampleLater, .prune ⟨1⟩ 15 200⟩]
    let s := m.run State.empty is
    (s.pruneFloor, s.next, s.pending) = (2, 3, 1) ∧ s.stored = Set.Ico 2 3 ∧
      s.unpublished.ncard = 1 := by
  intro m is s
  have hclock : ∀ i ∈ is, 0 < i.env.timestamp := by decide
  obtain ⟨hstored, hpending, _⟩ := run_outbox_intact ⟨0⟩ is hclock
  have hcounters : (s.pruneFloor, s.next, s.pending) = (2, 3, 1) := by decide +kernel
  simp only [Prod.mk.injEq] at hcounters
  obtain ⟨hfloor, hnext, hcount⟩ := hcounters
  refine ⟨by rw [hfloor, hnext, hcount], ?_, ?_⟩
  · rw [← hfloor, ← hnext]
    exact hstored
  · rw [← hcount]
    exact hpending

end Runs

end Events

variable {contract : Address} {env : Env contract} {s s' : State} {call : Call} {answer : Answer}

def Call.isEnqueue : Call → Bool
  | .enqueue .. => true
  | _ => false

/-- The cursor that a call asks to be moved, and where to. -/
def Call.acknowledges : Call → Option (Address × Nat)
  | .acknowledge consumer eventId => some (consumer, eventId)
  | _ => none

/-- An accepted enqueue has answered with the id. -/
def Enqueued (id : Nat) (es : List (Entry State (Input contract) Answer)) : Prop :=
  ∃ e ∈ es, e.input.call.isEnqueue = true ∧ e.output = .number id

section Steps

theorem advanceHistory_cursor {endpointId sequence : Nat}
    (h : advanceHistory s endpointId sequence = .ok s') : s'.cursor = s.cursor := by
  rcases advanceHistory_cases h with ⟨_, rfl⟩ | ⟨_, rfl⟩ | ⟨_, _, rfl⟩ <;> rfl

/-- Only an acknowledgement by the consumer moves a cursor, forward and to an event that is stored. -/
theorem Effect.cursor (h : Effect env s call answer s') :
    (∃ consumer id, call = .acknowledge consumer id ∧ env.signers consumer = true ∧ s.event id ≠ none ∧
      s.cursor consumer ≤ id ∧ s'.cursor = Function.update s.cursor consumer id) ∨
    call.acknowledges = none ∧ s'.cursor = s.cursor := by
  cases h with
  | @acknowledgeAgain consumer signed stored =>
    exact .inl ⟨consumer, _, rfl, signed, stored, le_rfl, (Function.update_eq_self _ _).symm⟩
  | acknowledge signed stored forward => exact .inl ⟨_, _, rfl, signed, stored, forward, rfl⟩
  | record _ _ _ _ _ _ _ _ _ hhistory => exact .inr ⟨rfl, (advanceHistory_cursor hhistory).trans rfl⟩
  | settle kind =>
    right
    cases call <;> simp_all [Call.isSettlement, Call.acknowledges]
  | _ => exact .inr ⟨rfl, rfl⟩

theorem Effect.cursor_mono (h : Effect env s call answer s') (consumer : Address) :
    s.cursor consumer ≤ s'.cursor consumer := by
  rcases h.cursor with ⟨other, id, _, _, _, hforward, hmoved⟩ | ⟨_, hsame⟩
  · rw [hmoved, Function.update_apply]
    split_ifs with hother
    · rw [hother]
      exact hforward
    · exact le_rfl
  · rw [hsame]

/-- An event comes into storage by an enqueue that answers with its id. -/
theorem Effect.enqueued (h : Effect env s call answer s') {id : Nat} (hstored : s'.event id ≠ none) :
    s.event id ≠ none ∨ call.isEnqueue = true ∧ answer = .number id := by
  cases h with
  | @enqueue _ _ _ _ added =>
    by_cases hid : id = added
    · right
      rw [hid]
      exact ⟨rfl, rfl⟩
    · left
      dsimp only at hstored
      rwa [Function.update_of_ne hid] at hstored
  | @publish _ event published _ _ stored =>
    left
    by_cases hid : id = published
    · rw [hid, stored]
      simp
    · dsimp only at hstored
      rwa [Function.update_of_ne hid] at hstored
  | prune =>
    left
    intro hnone
    apply hstored
    simp only [State.swept]
    split_ifs
    · rfl
    · exact hnone
  | record _ _ _ _ _ _ _ _ _ hhistory => exact .inl ((record_same hhistory).event ▸ hstored)
  | _ => exact .inl hstored

/-- As long as its event is stored, acknowledging the position of the cursor changes nothing. -/
theorem acknowledge_again {consumer : Address} (hsigned : env.signers consumer = true)
    (hstored : s.event (s.cursor consumer) ≠ none) :
    acknowledge env s consumer (s.cursor consumer) = .ok (s.cursor consumer, s) := by
  simp only [acknowledge, requireAuth, hsigned, refuseIf, hstored, lt_irrefl, if_false, ok_bind,
    Bool.true_eq_false]
  split_ifs with hzero
  · rfl
  · have hsame : { s with cursor := Function.update s.cursor consumer (s.cursor consumer) } = s := by
      rw [Function.update_eq_self]
    rw [hsame]
    rfl

end Steps

section Runs

theorem run_cursor_mono (js : List (Input contract)) (s : State) (consumer : Address) :
    s.cursor consumer ≤ ((machine contract).run s js).cursor consumer := by
  induction js generalizing s with
  | nil => exact le_rfl
  | cons i is ih =>
    rw [Machine.run_cons]
    rcases (machine contract).next_cases s i with hsame | ⟨answer, hstep⟩
    · rw [hsame]
      exact ih s
    · exact ((execute_effect hstep).cursor_mono consumer).trans (ih _)

theorem run_enqueued (is : List (Input contract)) {id : Nat}
    (hstored : ((machine contract).run State.empty is).event id ≠ none) :
    Enqueued id ((machine contract).journal State.empty is) := by
  revert hstored
  apply Machine.run_journal_invariant (P := fun s es => s.event id ≠ none → Enqueued id es)
  · intro hstored
    exact absurd rfl hstored
  · intro es s i answer s' hall h hstored
    rcases (execute_effect h).enqueued hstored with hbefore | ⟨hkind, hanswer⟩
    · obtain ⟨e, he, henqueue⟩ := hall hbefore
      exact ⟨e, List.mem_append_left _ he, henqueue⟩
    · exact ⟨_, List.mem_concat_self, hkind, hanswer⟩

/-- A cursor only moves forward, only by its consumer's own acknowledgement and only to an event that is
stored, which an earlier enqueue has answered with; acknowledging its position again changes
nothing as long as that event is stored. -/
theorem run_cursors (is : List (Input contract)) :
    let m := machine contract
    let s := m.run State.empty is
    (∀ js consumer, s.cursor consumer ≤ (m.run s js).cursor consumer) ∧
    (∀ earlier e later consumer id, m.journal State.empty is = earlier ++ e :: later →
      e.input.call.acknowledges = some (consumer, id) → e.pre.event id ≠ none ∧ Enqueued id earlier ∧
        e.pre.cursor consumer ≤ id ∧ e.post.cursor consumer = id) ∧
    (∀ e ∈ m.journal State.empty is, ∀ consumer, e.post.cursor consumer ≠ e.pre.cursor consumer →
      e.input.env.signers consumer = true ∧
        e.input.call.acknowledges = some (consumer, e.post.cursor consumer)) ∧
    ∀ (env : Env contract) consumer, env.signers consumer = true →
      s.event (s.cursor consumer) ≠ none →
        acknowledge env s consumer (s.cursor consumer) = .ok (s.cursor consumer, s) := by
  intro m s
  refine ⟨?_, ?_, ?_, ?_⟩
  · intro js consumer
    exact run_cursor_mono js s consumer
  · intro earlier e later consumer id hes hacknowledges
    obtain ⟨js, ks, _, rfl, hpre, hstep⟩ := Machine.journal_split hes
    rcases (execute_effect hstep).cursor with ⟨_, _, hcall, _, hstored, hforward, hmoved⟩ | ⟨hnone, _⟩
    · rw [hcall] at hacknowledges
      cases hacknowledges
      have henqueued := run_enqueued js (hpre.symm ▸ hstored)
      rw [hmoved, Function.update_self]
      exact ⟨hstored, henqueued, hforward, rfl⟩
    · rw [hnone] at hacknowledges
      cases hacknowledges
  · intro e he consumer hmoves
    rcases (execute_effect (Machine.journal_step he).1).cursor with
      ⟨other, id, hcall, hsigned, _, _, hmoved⟩ | ⟨_, hsame⟩
    · rw [hmoved] at hmoves ⊢
      by_cases hother : consumer = other
      · subst hother
        rw [Function.update_self, hcall]
        exact ⟨hsigned, rfl⟩
      · rw [Function.update_of_ne hother] at hmoves
        exact absurd rfl hmoves
    · rw [hsame] at hmoves
      exact absurd rfl hmoves
  · intro env consumer hsigned hstored
    exact acknowledge_again hsigned hstored

/-- A consumer `⟨2⟩` acknowledges an event before its publication. -/
theorem acknowledged_unpublished :
    let s := (machine ⟨0⟩).run State.empty ([.initializeContract ⟨1⟩,
      .enqueue ⟨1⟩ ⟨2⟩ "award" 1 7 1 9, .acknowledge ⟨2⟩ 1].map (⟨.sample, ·⟩))
    s.cursor ⟨2⟩ = 1 ∧ s.event 1 = some ⟨1, "award", 1, 7, 9, ⟨2⟩, 10, 0⟩ ∧ 1 ∈ s.unpublished := by
  intro s
  have hevent : s.event 1 = some ⟨1, "award", 1, 7, 9, ⟨2⟩, 10, 0⟩ := by decide +kernel
  exact ⟨by decide +kernel, hevent, _, hevent, rfl⟩

end Runs

end ChainVerse.ScholarshipOutbox
