import ChainVerse.Outbox.Delivery

namespace ChainVerse.ScholarshipOutbox

variable {contract : Address} {env : Env contract} {s s' : State}

/-- The last sequence number of an endpoint, zero before it is enrolled. -/
def State.lastSequence (s : State) (id : Nat) : Nat := (s.endpoint id).elim 0 (·.lastSequence)

/-- The oldest sequence number that is kept; nothing is kept while it is above the last one. -/
def State.historyFloor (s : State) (id : Nat) : Nat := (s.deliveryFloor id).getD 1

/-- The sequence numbers whose delivery record is in storage. -/
def State.retained (s : State) (id : Nat) : Set Nat := {sequence | s.delivery id sequence ≠ none}

/-- The history ring of an endpoint whose last sequence number is `last`. -/
structure Ring (s : State) (id last : Nat) : Prop where
  floor_pos : 0 < s.historyFloor id
  retained : s.retained id = Set.Icc (s.historyFloor id) last
  count : s.deliveryCount id = last + 1 - s.historyFloor id
  bounded : s.deliveryCount id ≤ maxDeliveryHistory
  acked : s.endpointAck id ≤ last

/-- The history of one endpoint is untouched. -/
structure SameHistory (s s' : State) (id : Nat) : Prop where
  delivery : s'.delivery id = s.delivery id
  floor : s'.deliveryFloor id = s.deliveryFloor id
  count : s'.deliveryCount id = s.deliveryCount id
  acked : s'.endpointAck id = s.endpointAck id

section Rings

theorem Ring.of_same {id last : Nat} (hr : Ring s id last) (h : SameHistory s s' id) :
    Ring s' id last := by
  have hfloor : s'.historyFloor id = s.historyFloor id := by
    rw [State.historyFloor, State.historyFloor, h.floor]
  constructor
  · rw [hfloor]
    exact hr.floor_pos
  · rw [hfloor, ← hr.retained, State.retained, State.retained, h.delivery]
  · rw [hfloor, h.count]
    exact hr.count
  · rw [h.count]
    exact hr.bounded
  · rw [h.acked]
    exact hr.acked

/-- Everything that advancing one history leaves alone. -/
theorem advanceHistory_others {endpointId sequence : Nat}
    (h : advanceHistory s endpointId sequence = .ok s') :
    s'.endpoint = s.endpoint ∧ s'.attempts = s.attempts ∧ s'.endpointAck = s.endpointAck ∧
      ∀ id, id ≠ endpointId → SameHistory s s' id := by
  rcases advanceHistory_cases h with ⟨_, rfl⟩ | ⟨_, rfl⟩ | ⟨_, _, rfl⟩
  · exact ⟨rfl, rfl, rfl, fun id hne =>
      ⟨Function.update_of_ne hne _ _, Function.update_of_ne hne _ _, rfl, rfl⟩⟩
  · exact ⟨rfl, rfl, rfl, fun id hne =>
      ⟨rfl, Function.update_of_ne hne _ _, Function.update_of_ne hne _ _, rfl⟩⟩
  · exact ⟨rfl, rfl, rfl, fun id hne => ⟨rfl, rfl, Function.update_of_ne hne _ _, rfl⟩⟩

theorem retained_attempted {id last : Nat} {record : DeliveryRecord} (hid : record.endpointId = id)
    (hsequence : record.sequence = last) :
    (s.attempted record).retained id = insert last (s.retained id) := by
  ext sequence
  simp only [State.retained, State.attempted, hid, hsequence, Function.update_self,
    Set.mem_ofPred_eq, Set.mem_insert_iff]
  rcases eq_or_ne sequence last with rfl | hne
  · simp
  · simp [hne]

theorem retained_evicted (s : State) (id : Nat) :
    (s.evicted id).retained id = s.retained id \ {s.historyFloor id} := by
  ext sequence
  simp only [State.retained, State.evicted, State.historyFloor, Function.update_self,
    Set.mem_ofPred_eq, Set.mem_sdiff, Set.mem_singleton_iff]
  rcases eq_or_ne sequence ((s.deliveryFloor id).getD 1) with rfl | hne
  · simp
  · simp [hne]

theorem historyFloor_evicted (s : State) (id : Nat) :
    (s.evicted id).historyFloor id = s.historyFloor id + 1 := by
  simp [State.evicted, State.historyFloor]

theorem historyFloor_started (s : State) (id sequence : Nat) :
    (s.started id sequence).historyFloor id = sequence := by
  simp [State.started, State.historyFloor]

/-- A record of the next sequence number moves the ring on: below the cap it grows, at the cap its
oldest record goes. -/
theorem advanceHistory_ring {id last : Nat} {record : DeliveryRecord} {advanced : State}
    (hr : Ring s id last) (hid : record.endpointId = id) (hsequence : record.sequence = last + 1)
    (h : advanceHistory (s.attempted record) id (last + 1) = .ok advanced) :
    Ring advanced id (last + 1) := by
  have hpos := hr.floor_pos
  have hcount : (s.attempted record).deliveryCount id = last + 1 - s.historyFloor id := hr.count
  have hbounded : (s.attempted record).deliveryCount id ≤ maxDeliveryHistory := hr.bounded
  have hacked : s.endpointAck id ≤ last + 1 := hr.acked.trans (Nat.le_succ last)
  have hretained : (s.attempted record).retained id =
      insert (last + 1) (Set.Icc (s.historyFloor id) last) := by
    rw [retained_attempted hid hsequence, hr.retained]
  rcases advanceHistory_cases h with ⟨hfull, rfl⟩ | ⟨hfirst, rfl⟩ | ⟨hsome, hroom, rfl⟩
  · have hfloor : ((s.attempted record).evicted id).historyFloor id = s.historyFloor id + 1 :=
      historyFloor_evicted _ id
    simp only [maxDeliveryHistory] at hfull
    refine ⟨by omega, ?_, ?_, hbounded, hacked⟩
    · rw [hfloor, retained_evicted, hretained]
      ext sequence
      change _ ∧ sequence ∉ {s.historyFloor id} ↔ _
      simp only [Set.mem_insert_iff, Set.mem_Icc, Set.mem_singleton_iff]
      omega
    · rw [hfloor]
      change (s.attempted record).deliveryCount id = _
      omega
  · have hfloor := historyFloor_started (s.attempted record) id (last + 1)
    have hone : ((s.attempted record).started id (last + 1)).deliveryCount id = 1 := by
      simp [State.started]
    refine ⟨by omega, ?_, by omega, ?_, hacked⟩
    · rw [hfloor]
      change (s.attempted record).retained id = _
      rw [hretained]
      ext sequence
      simp only [Set.mem_insert_iff, Set.mem_Icc]
      omega
    · rw [hone]
      decide
  · have hmore : ((s.attempted record).grown id).deliveryCount id =
        (s.attempted record).deliveryCount id + 1 := by
      simp [State.grown]
    have hfloor : ((s.attempted record).grown id).historyFloor id = s.historyFloor id := rfl
    refine ⟨hpos, ?_, by omega, by omega, hacked⟩
    change (s.attempted record).retained id = Set.Icc (s.historyFloor id) (last + 1)
    rw [hretained]
    ext sequence
    simp only [Set.mem_insert_iff, Set.mem_Icc]
    omega

end Rings

section Preservation

/-- Every endpoint, enrolled or not, has a history ring. -/
def Histories (s : State) : Prop := ∀ id, Ring s id (s.lastSequence id)

theorem histories_empty : Histories State.empty := by
  intro id
  constructor <;> simp [State.historyFloor, State.retained, State.lastSequence, State.empty]

theorem Histories.of_same (hs : Histories s) (hlast : ∀ id, s'.lastSequence id = s.lastSequence id)
    (h : ∀ id, SameHistory s s' id) : Histories s' := by
  intro id
  rw [hlast id]
  exact (hs id).of_same (h id)

/-- Saving an endpoint changes the last sequence number of that endpoint only. -/
theorem lastSequence_save (s : State) (endpoint : WebhookEndpoint) (id : Nat) :
    (saveEndpoint s endpoint).lastSequence id =
      if id = endpoint.id then endpoint.lastSequence else s.lastSequence id := by
  simp only [State.lastSequence, saveEndpoint, Function.update_apply]
  split_ifs <;> rfl

theorem lastSequence_stored {id : Nat} {endpoint : WebhookEndpoint}
    (h : s.endpoint id = some endpoint) : s.lastSequence id = endpoint.lastSequence := by
  rw [State.lastSequence, h]
  rfl

theorem Histories.save (hs : Histories s) {id : Nat} {endpoint replacement : WebhookEndpoint}
    (hstored : s.endpoint id = some endpoint) (hid : replacement.id = id)
    (hlast : replacement.lastSequence = endpoint.lastSequence) :
    Histories (saveEndpoint s replacement) := by
  apply hs.of_same
  · intro other
    rw [lastSequence_save, hid, hlast]
    split_ifs with heq
    · rw [heq, lastSequence_stored hstored]
    · rfl
  · exact fun _ => ⟨rfl, rfl, rfl, rfl⟩

theorem Histories.record (hs : Histories s) {id now : Nat} {endpoint : WebhookEndpoint}
    {record : DeliveryRecord} {advanced : State} (hstored : s.endpoint id = some endpoint)
    (hnamed : endpoint.id = id) (hid : record.endpointId = id)
    (hsequence : record.sequence = endpoint.lastSequence + 1)
    (hhistory : advanceHistory (s.attempted record) id (endpoint.lastSequence + 1) =
      .ok advanced) :
    Histories (saveEndpoint advanced { endpoint with
      lastSequence := endpoint.lastSequence + 1, updatedAt := now }) := by
  intro other
  obtain ⟨hendpoint, _, _, hothers⟩ := advanceHistory_others hhistory
  rw [lastSequence_save, hnamed]
  split_ifs with heq
  · have hring := hs id
    rw [lastSequence_stored hstored] at hring
    rw [heq]
    exact (advanceHistory_ring hring hid hsequence hhistory).of_same ⟨rfl, rfl, rfl, rfl⟩
  · have hlast : advanced.lastSequence other = s.lastSequence other := by
      rw [State.lastSequence, hendpoint]
      rfl
    have hattempted : SameHistory s (s.attempted record) other :=
      ⟨Function.update_of_ne (hid ▸ heq) _ _, rfl, rfl, rfl⟩
    rw [hlast]
    exact (((hs other).of_same hattempted).of_same (hothers other heq)).of_same
      ⟨rfl, rfl, rfl, rfl⟩

/-- Acknowledging a stored record keeps what is retained. -/
theorem Histories.acknowledgeDelivery (hs : Histories s) {id sequence : Nat}
    {endpoint : WebhookEndpoint} {record acked : DeliveryRecord}
    (hstored : s.endpoint id = some endpoint) (hrecorded : s.delivery id sequence = some record)
    (hrange : sequence ≤ endpoint.lastSequence) :
    Histories { s with
      delivery := Function.update s.delivery id
        (Function.update (s.delivery id) sequence (some acked))
      endpointAck := Function.update s.endpointAck id sequence } := by
  intro other
  have hring := hs other
  rcases eq_or_ne other id with rfl | hne
  · refine ⟨hring.floor_pos, ?_, hring.count, hring.bounded, ?_⟩
    · change _ = Set.Icc (s.historyFloor other) (s.lastSequence other)
      rw [← hring.retained]
      ext kept
      simp only [State.retained, Function.update_self, Set.mem_ofPred_eq]
      rcases eq_or_ne kept sequence with rfl | hkept
      · simp [hrecorded]
      · simp [hkept]
    · simp only [Function.update_self]
      change sequence ≤ s.lastSequence other
      rwa [lastSequence_stored hstored]
  · exact hring.of_same
      ⟨Function.update_of_ne hne _ _, rfl, rfl, Function.update_of_ne hne _ _⟩

theorem Effect.histories {call : Call} {answer : Answer} (h : Effect env s call answer s')
    (hn : Enrolled s) (hs : Histories s) : Histories s' := by
  have hsame : s'.endpoint = s.endpoint → (∀ id, SameHistory s s' id) → Histories s' := by
    intro hendpoint
    apply hs.of_same
    intro id
    rw [State.lastSequence, State.lastSequence, hendpoint]
  cases h with
  | @register _ owner _ _ _ id _ _ _ hnext =>
    apply hs.of_same
    · intro other
      have hfree : s.endpoint id = none := by
        by_contra hsome
        obtain ⟨endpoint, hendpoint⟩ := Option.ne_none_iff_exists'.mp hsome
        have hbelow := hn.below hendpoint
        simp [hnext] at hbelow
      simp only [State.lastSequence, Function.update_apply]
      split_ifs with heq
      · simp [heq, hfree]
      · rfl
    · exact fun _ => ⟨rfl, rfl, rfl, rfl⟩
  | rotate _ _ hstored =>
    have hnamed := hn.named hstored
    exact hs.save hstored hnamed rfl
  | activate _ _ hstored =>
    have hnamed := hn.named hstored
    exact hs.save hstored hnamed rfl
  | record _ _ hstored _ _ _ _ _ _ hhistory =>
    exact hs.record hstored (hn.named hstored) rfl rfl hhistory
  | acknowledgeDelivery _ hstored hrecorded hrange _ =>
    exact hs.acknowledgeDelivery hstored hrecorded hrange.2
  | start | enqueueAgain | enqueue | publish | acknowledgeAgain | acknowledge | prune | settle =>
    exact hsame rfl fun _ => ⟨rfl, rfl, rfl, rfl⟩

/-- The acknowledgement cursor of an endpoint never goes back. -/
theorem Effect.acked_mono {call : Call} {answer : Answer} (h : Effect env s call answer s')
    (id : Nat) : s.endpointAck id ≤ s'.endpointAck id := by
  cases h with
  | @acknowledgeDelivery endpointId sequence _ _ _ _ _ _ hlater =>
    simp only [Function.update_apply]
    split_ifs with heq
    · rw [heq]
      exact hlater.le
    · exact le_rfl
  | record _ _ _ _ _ _ _ _ _ hhistory =>
    simp only [saveEndpoint, (advanceHistory_others hhistory).2.2.1]
    exact le_rfl
  | _ => exact le_rfl

end Preservation

section Attempts

/-- The calls that attempt to deliver an event to an endpoint. -/
def Call.isAttempt (id event : Nat) : Call → Bool
  | .recordDelivery _ endpointId eventId _ _ _ => endpointId = id ∧ eventId = event
  | _ => false

/-- The number in an answer. -/
def Answer.value : Answer → Nat
  | .number n => n
  | _ => 0

/-- The number that an accepted attempt was given. -/
def attemptNumber (id event : Nat) (e : Entry State (Input contract) Answer) : List Nat :=
  if e.input.call.isAttempt id event = true then [e.output.value] else []

/-- A step numbers an attempt with the next number of its endpoint and event, and leaves all other
attempt counters alone. -/
theorem Effect.attempt_numbered {call : Call} {answer : Answer} (h : Effect env s call answer s')
    (id event : Nat) : s.attempts id event + 1 ≤ s'.attempts id event + 1 ∧
      attemptNumber id event ⟨s, ⟨env, call⟩, answer, s'⟩ =
        List.range' (s.attempts id event + 1)
          (s'.attempts id event + 1 - (s.attempts id event + 1)) := by
  have hnone : s'.attempts id event = s.attempts id event → call.isAttempt id event = false →
      s.attempts id event + 1 ≤ s'.attempts id event + 1 ∧
      attemptNumber id event ⟨s, ⟨env, call⟩, answer, s'⟩ =
        List.range' (s.attempts id event + 1)
          (s'.attempts id event + 1 - (s.attempts id event + 1)) := by
    intro hattempts hcall
    simp [attemptNumber, hattempts, hcall]
  cases h with
  | @record _ endpointId eventId _ _ endpoint _ advanced _ _ _ _ _ _ _ _ _ hhistory =>
    have hattempts : advanced.attempts = Function.update s.attempts endpointId
        (Function.update (s.attempts endpointId) eventId (s.attempts endpointId eventId + 1)) :=
      (advanceHistory_others hhistory).2.1
    by_cases hpair : endpointId = id ∧ eventId = event
    · obtain ⟨rfl, rfl⟩ := hpair
      simp only [attemptNumber, Call.isAttempt, saveEndpoint, hattempts, Function.update_self,
        Answer.value]
      simp
    · apply hnone
      · simp only [saveEndpoint, hattempts]
        rcases eq_or_ne id endpointId with rfl | hid
        · have hevent : event ≠ eventId := fun heq => hpair ⟨rfl, heq.symm⟩
          rw [Function.update_self, Function.update_of_ne hevent]
        · rw [Function.update_of_ne hid]
      · simpa [Call.isAttempt] using hpair
  | @settle call _ _ _ _ _ kind =>
    apply hnone rfl
    cases call <;> simp_all [Call.isSettlement, Call.isAttempt]
  | start | enqueueAgain | enqueue | publish | acknowledgeAgain | acknowledge | prune | register
  | rotate | activate | acknowledgeDelivery => exact hnone rfl rfl

theorem run_attempts (contract : Address) (is : List (Input contract)) (id event : Nat) :
    ((machine contract).journal State.empty is).flatMap (attemptNumber id event) =
      List.range' 1 (((machine contract).run State.empty is).attempts id event) := by
  have hnumbering := Machine.run_numbering (m := machine contract)
    (f := fun s => s.attempts id event + 1) (g := attemptNumber id event) enrolled_empty
    (fun _ _ _ _ hs h => (execute_effect h).enrolled hs)
    (fun _ _ _ _ _ h => (execute_effect h).attempt_numbered id event) is
  exact hnumbering.2

end Attempts

section Runs

theorem run_histories (contract : Address) (is : List (Input contract)) :
    Histories ((machine contract).run State.empty is) := by
  have hboth : Enrolled ((machine contract).run State.empty is) ∧
      Histories ((machine contract).run State.empty is) := by
    have hempty : Enrolled State.empty ∧ Histories State.empty :=
      ⟨enrolled_empty, histories_empty⟩
    apply @Machine.run_invariant _ _ _ _ _ (fun s => Enrolled s ∧ Histories s) _ hempty
    intro s i answer s' hs h
    have heffect := execute_effect h
    exact ⟨heffect.enrolled hs.1, heffect.histories hs.1 hs.2⟩
  exact hboth.2

/-- The attempts of an event to an endpoint that a journal holds. -/
theorem flatMap_attemptNumber (id event : Nat) (es : List (Entry State (Input contract) Answer)) :
    es.flatMap (attemptNumber id event) =
      (es.filter fun e => e.input.call.isAttempt id event).map (·.output.value) := by
  induction es with
  | nil => rfl
  | cons e es ih =>
    rw [List.flatMap_cons, ih, attemptNumber]
    split_ifs with hattempt <;> simp [hattempt]

/-- After any calls every enrolled endpoint keeps exactly the deliveries from its floor to its last
one, no more than the cap, and has acknowledged none beyond; the accepted attempts for an endpoint
and an event were numbered from 1 on, as many as their counter says, whatever has been evicted
since; and no later call takes an acknowledgement back. -/
theorem run_delivery_history (is : List (Input contract)) :
    let m := machine contract
    let s := m.run State.empty is
    (∀ id endpoint, s.endpoint id = some endpoint →
      s.retained id = Set.Icc (s.historyFloor id) endpoint.lastSequence ∧
      s.deliveryCount id = (s.retained id).ncard ∧ s.deliveryCount id ≤ maxDeliveryHistory ∧
      s.endpointAck id ≤ endpoint.lastSequence) ∧
    (∀ id event,
      let attempts := (m.journal State.empty is).filter fun e => e.input.call.isAttempt id event
      s.attempts id event = attempts.length ∧
        attempts.map (·.output.value) = List.range' 1 attempts.length) ∧
    ∀ id js, s.endpointAck id ≤ (m.run s js).endpointAck id := by
  intro m s
  refine ⟨?_, ?_, ?_⟩
  · intro id endpoint hstored
    have hring := run_histories contract is id
    rw [lastSequence_stored hstored] at hring
    refine ⟨hring.retained, ?_, hring.bounded, hring.acked⟩
    rw [hring.retained, Set.ncard_Icc_nat]
    exact hring.count
  · intro id event attempts
    have hnumbers := run_attempts contract is id event
    rw [flatMap_attemptNumber] at hnumbers
    have hlength := congrArg List.length hnumbers
    rw [List.length_map, List.length_range'] at hlength
    refine ⟨hlength.symm, ?_⟩
    rw [hnumbers, ← hlength]
  · intro id js
    have hs : Enrolled s := run_enrolled contract is
    exact Machine.run_relation (m := m) (R := fun s s' => s.endpointAck id ≤ s'.endpointAck id)
      (fun _ => le_rfl) (fun _ _ _ => le_trans) hs
      (fun _ _ _ _ hs h => (execute_effect h).enrolled hs)
      (fun _ _ _ _ _ h => (execute_effect h).acked_mono id) js

end Runs

end ChainVerse.ScholarshipOutbox
