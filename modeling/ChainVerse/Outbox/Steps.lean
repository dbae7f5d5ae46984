import ChainVerse.Outbox.Operations

namespace ChainVerse.ScholarshipOutbox

variable {contract : Address} {env : Env contract} {s s' : State}

/-- The entries that a sweep of `count` steps removes. -/
def State.swept (s : State) (count : Nat) : State :=
  { s with
    event := fun id =>
      if s.pruneFloor ≤ id ∧ id < s.pruneFloor + count then none else s.event id
    pruneFloor := s.pruneFloor + count }

/-- The store with a delivery record and its attempt number, before the history advances. -/
def State.attempted (s : State) (record : DeliveryRecord) : State :=
  { s with
    attempts := Function.update s.attempts record.endpointId
      (Function.update (s.attempts record.endpointId) record.eventId record.attempt)
    delivery := Function.update s.delivery record.endpointId
      (Function.update (s.delivery record.endpointId) record.sequence (some record)) }

/-- The store after the oldest delivery record of an endpoint has gone. -/
def State.evicted (s : State) (id : Nat) : State :=
  let floor := (s.deliveryFloor id).getD 1
  { s with
    delivery := Function.update s.delivery id (Function.update (s.delivery id) floor none)
    deliveryFloor := Function.update s.deliveryFloor id (some (floor + 1)) }

/-- The store after the first delivery of an endpoint is counted. -/
def State.started (s : State) (id sequence : Nat) : State :=
  { s with
    deliveryFloor := Function.update s.deliveryFloor id (some sequence)
    deliveryCount := Function.update s.deliveryCount id 1 }

/-- The store after one more delivery of an endpoint is counted. -/
def State.grown (s : State) (id : Nat) : State :=
  { s with deliveryCount := Function.update s.deliveryCount id (s.deliveryCount id + 1) }

/-- The calls about settlement intents. -/
def Call.isSettlement : Call → Bool
  | .openSettlement .. | .observeSettlement .. | .reconcileSettlement .. | .expireSettlement ..
  | .resolveSettlement .. | .archiveSettlement .. => true
  | _ => false

/-- Everything an accepted call can have done, with the checks it has passed. -/
inductive Effect (env : Env contract) (s : State) : Call → Answer → State → Prop where
  | start {admin : Address} (signed : env.signers admin = true) (absent : s.admin = none) :
      Effect env s (.initializeContract admin) .done { s with
        admin := some admin, nextEventId := some 1, pending := 0, pruneFloor := 1
        nextEndpointId := some 1, enrolledEndpoints := 0 }
  | enqueueAgain {operator source : Address} {topic : Topic} {schemaVersion id : Nat}
      {correlationId dedupKey payloadHash : Bytes32} (signed : env.signers operator = true)
      (role : s.admin = some operator) (used : s.dedup dedupKey = some id) :
      Effect env s
        (.enqueue operator source topic schemaVersion correlationId dedupKey payloadHash)
        (.number id) s
  | enqueue {operator source : Address} {topic : Topic} {schemaVersion id : Nat}
      {correlationId dedupKey payloadHash : Bytes32} (signed : env.signers operator = true)
      (role : s.admin = some operator) (unused : s.dedup dedupKey = none)
      (room : s.pending < maxPendingEvents) (next : s.nextEventId = some id)
      (fits : id + 1 < 2^64) :
      Effect env s
        (.enqueue operator source topic schemaVersion correlationId dedupKey payloadHash)
        (.number id) { s with
          event := Function.update s.event id (some ⟨id, topic, schemaVersion, correlationId,
            payloadHash, source, env.timestamp, 0⟩)
          dedup := Function.update s.dedup dedupKey (some id)
          nextEventId := some (id + 1), pending := s.pending + 1 }
  | publish {relay : Address} {event : OutboxEvent} {id : Nat}
      (signed : env.signers relay = true) (role : s.admin = some relay)
      (stored : s.event id = some event) (unpublished : event.publishedAt = 0) :
      Effect env s (.markPublished relay id) .done { s with
        event := Function.update s.event id (some { event with publishedAt := env.timestamp })
        pending := s.pending - 1 }
  | acknowledgeAgain {consumer : Address} (signed : env.signers consumer = true)
      (stored : s.event (s.cursor consumer) ≠ none) :
      Effect env s (.acknowledge consumer (s.cursor consumer)) (.number (s.cursor consumer)) s
  | acknowledge {consumer : Address} {id : Nat} (signed : env.signers consumer = true)
      (stored : s.event id ≠ none) (forward : s.cursor consumer ≤ id) :
      Effect env s (.acknowledge consumer id) (.number id)
        { s with cursor := Function.update s.cursor consumer id }
  | prune {admin : Address} {horizon limit count : Nat} (role : s.admin = some admin)
      (past : horizon ≤ env.timestamp) (bounded : count ≤ limit)
      (within : count = 0 ∨ s.pruneFloor + count ≤ s.nextEventId.getD 1)
      (removed : ∀ id, s.pruneFloor ≤ id → id < s.pruneFloor + count →
        removable horizon (s.event id) = true) :
      Effect env s (.prune admin horizon limit) (.number count) (s.swept count)
  | register {operator owner : Address} {urlHash secretHash : Bytes32} {topics : List Topic}
      {id : Nat} (signed : env.signers operator = true) (consent : env.signers owner = true)
      (role : s.admin = some operator) (next : s.nextEndpointId = some id) :
      Effect env s (.registerEndpoint operator owner urlHash secretHash topics) (.number id)
        { s with
          endpoint := Function.update s.endpoint id (some ⟨id, owner, urlHash, secretHash, topics,
            true, 1, 0, env.timestamp, env.timestamp⟩)
          nextEndpointId := some (id + 1), enrolledEndpoints := s.enrolledEndpoints + 1 }
  | rotate {operator : Address} {endpointId : Nat} {newSecretHash : Bytes32}
      {endpoint : WebhookEndpoint} (signed : env.signers operator = true)
      (role : s.admin = some operator) (stored : s.endpoint endpointId = some endpoint) :
      Effect env s (.rotateSecret operator endpointId newSecretHash)
        (.number (endpoint.secretEpoch + 1)) (saveEndpoint s { endpoint with
          secretHash := newSecretHash, secretEpoch := endpoint.secretEpoch + 1
          updatedAt := env.timestamp })
  | activate {operator : Address} {endpointId : Nat} {active : Bool}
      {endpoint : WebhookEndpoint} (signed : env.signers operator = true)
      (role : s.admin = some operator) (stored : s.endpoint endpointId = some endpoint) :
      Effect env s (.setEndpointActive operator endpointId active) .done
        (saveEndpoint s { endpoint with active := active, updatedAt := env.timestamp })
  | record {operator : Address} {endpointId eventId expiresAt : Nat} {outcome : DeliveryOutcome}
      {endpoint : WebhookEndpoint} {event : OutboxEvent} {advanced : State}
      (signed : env.signers operator = true) (role : s.admin = some operator)
      (stored : s.endpoint endpointId = some endpoint) (active : endpoint.active = true)
      (next : endpoint.lastSequence + 1 < 2^64) (early : env.timestamp < expiresAt)
      (known : s.event eventId = some event)
      (subscribed : outcome ≠ .skipped → event.topic ∈ endpoint.topics)
      (attempt : s.attempts endpointId eventId + 1 < 2^32)
      (history : advanceHistory (s.attempted ⟨endpointId, eventId, endpoint.lastSequence + 1,
        endpoint.secretEpoch, expiresAt, s.attempts endpointId eventId + 1, env.timestamp, outcome,
        0⟩) endpointId (endpoint.lastSequence + 1) = .ok advanced) :
      Effect env s
        (.recordDelivery operator endpointId eventId (endpoint.lastSequence + 1) expiresAt outcome)
        (.number (s.attempts endpointId eventId + 1)) (saveEndpoint advanced { endpoint with
          lastSequence := endpoint.lastSequence + 1, updatedAt := env.timestamp })
  | acknowledgeDelivery {endpointId sequence : Nat} {endpoint : WebhookEndpoint}
      {record : DeliveryRecord} (signed : env.signers endpoint.owner = true)
      (stored : s.endpoint endpointId = some endpoint)
      (recorded : s.delivery endpointId sequence = some record)
      (range : 0 < sequence ∧ sequence ≤ endpoint.lastSequence)
      (later : s.endpointAck endpointId < sequence) :
      Effect env s (.acknowledgeDelivery endpoint.owner endpointId sequence) .done { s with
        delivery := Function.update s.delivery endpointId (Function.update
          (s.delivery endpointId) sequence (some { record with ackedAt := env.timestamp }))
        endpointAck := Function.update s.endpointAck endpointId sequence }
  | settle {call : Call} {answer : Answer} {operator : Address} {intent : Bytes32 → Option
      SettlementIntent} {tracked alerted : Nat} (kind : call.isSettlement = true)
      (signed : env.signers operator = true) (role : s.admin = some operator) :
      Effect env s call answer { s with
        intent := intent, trackedIntents := tracked, alertedIntents := alerted }

section Specs

theorem quiet_eq_ok {x : Outcome State} {a : Answer} :
    quiet x = .ok (a, s') ↔ .done = a ∧ x = .ok s' := by
  simp [quiet, and_comm]

theorem counted_eq_ok {x : Outcome (Nat × State)} {a : Answer} :
    counted x = .ok (a, s') ↔ ∃ n, .number n = a ∧ x = .ok (n, s') := by
  simp only [counted, map_eq_ok, Prod.exists, Prod.mk.injEq]
  constructor
  · rintro ⟨n, t, hx, rfl, rfl⟩
    exact ⟨n, rfl, hx⟩
  · rintro ⟨n, rfl, hx⟩
    exact ⟨n, s', hx, rfl, rfl⟩

theorem swept_zero (s : State) : s.swept 0 = s := by
  have hevent : (fun id => if s.pruneFloor ≤ id ∧ id < s.pruneFloor + 0 then none
      else s.event id) = s.event := by
    funext id
    exact if_neg (by omega)
  unfold State.swept
  rw [hevent, Nat.add_zero]

/-- Removing the entry at the floor and then sweeping further is one longer sweep. -/
theorem swept_succ (s : State) (count : Nat) :
    State.swept { s with
      event := Function.update s.event s.pruneFloor none, pruneFloor := s.pruneFloor + 1 } count =
      s.swept (count + 1) := by
  have hevent : (fun id => if s.pruneFloor + 1 ≤ id ∧ id < s.pruneFloor + 1 + count then none
      else Function.update s.event s.pruneFloor none id) = fun id =>
        if s.pruneFloor ≤ id ∧ id < s.pruneFloor + (count + 1) then none else s.event id := by
    funext id
    rcases eq_or_ne id s.pruneFloor with rfl | hne
    · simp
    · rw [Function.update_of_ne hne]
      have hiff : s.pruneFloor + 1 ≤ id ∧ id < s.pruneFloor + 1 + count ↔
          s.pruneFloor ≤ id ∧ id < s.pruneFloor + (count + 1) := by omega
      simp only [hiff]
  have hfloor : s.pruneFloor + 1 + count = s.pruneFloor + (count + 1) := by omega
  unfold State.swept
  rw [hevent]
  simp only [hfloor]

/-- What the loop of `prune` does: it removes a run of removable entries at the floor. -/
theorem sweep_ok {horizon next left pruned n : Nat}
    (h : sweep horizon next left pruned s = .ok (n, s')) :
    ∃ count, count ≤ left ∧ n = pruned + count ∧ s' = s.swept count ∧
      (count = 0 ∨ s.pruneFloor + count ≤ next) ∧
      ∀ id, s.pruneFloor ≤ id → id < s.pruneFloor + count →
        removable horizon (s.event id) = true := by
  induction left generalizing s pruned with
  | zero =>
    simp only [sweep, pure_eq_ok, Prod.mk.injEq] at h
    obtain ⟨rfl, rfl⟩ := h
    exact ⟨0, le_rfl, rfl, (swept_zero s).symm, .inl rfl, fun id _ _ => by omega⟩
  | succ left ih =>
    have hstop : pruned = n → s = s' → ∃ count, count ≤ left + 1 ∧ n = pruned + count ∧
        s' = s.swept count ∧ (count = 0 ∨ s.pruneFloor + count ≤ next) ∧
        ∀ id, s.pruneFloor ≤ id → id < s.pruneFloor + count →
          removable horizon (s.event id) = true := by
      rintro rfl rfl
      exact ⟨0, Nat.zero_le _, rfl, (swept_zero s).symm, .inl rfl, fun id _ _ => by omega⟩
    unfold sweep at h
    split_ifs at h with hlt hremovable
    · simp only [bind_eq_ok, orRefuse_eq_ok, fitsU_eq_some] at h
      obtain ⟨_, ⟨_, rfl⟩, _, ⟨_, rfl⟩, h⟩ := h
      obtain ⟨count, hcount, rfl, rfl, hwithin, hrest⟩ := ih h
      refine ⟨count + 1, by omega, by omega, swept_succ s count, .inr ?_, ?_⟩
      · dsimp only at hwithin
        omega
      · intro id hlow hhigh
        rcases eq_or_ne id s.pruneFloor with rfl | hne
        · exact hremovable
        · have hid := hrest id (by dsimp only; omega) (by dsimp only; omega)
          dsimp only at hid
          rwa [Function.update_of_ne hne] at hid
    · simp only [pure_eq_ok, Prod.mk.injEq] at h
      exact hstop h.1 h.2
    · simp only [pure_eq_ok, Prod.mk.injEq] at h
      exact hstop h.1 h.2

/-- The three ways in which the history of an endpoint goes on. -/
theorem advanceHistory_cases {id sequence : Nat} (h : advanceHistory s id sequence = .ok s') :
    maxDeliveryHistory ≤ s.deliveryCount id ∧ s' = s.evicted id ∨
      s.deliveryCount id = 0 ∧ s' = s.started id sequence ∨
      0 < s.deliveryCount id ∧ s.deliveryCount id < maxDeliveryHistory ∧ s' = s.grown id := by
  unfold advanceHistory at h
  dsimp only at h
  split_ifs at h with hfull hzero
  · simp only [bind_eq_ok, orRefuse_eq_ok, fitsU_eq_some, pure_eq_ok] at h
    obtain ⟨_, ⟨_, rfl⟩, rfl⟩ := h
    exact .inl ⟨hfull, rfl⟩
  · simp only [bind_eq_ok, orRefuse_eq_ok, fitsU_eq_some, hzero, pure_eq_ok] at h
    obtain ⟨_, ⟨_, rfl⟩, rfl⟩ := h
    exact .inr (.inl ⟨hzero, rfl⟩)
  · simp only [bind_eq_ok, orRefuse_eq_ok, fitsU_eq_some, pure_eq_ok] at h
    obtain ⟨_, ⟨_, rfl⟩, rfl⟩ := h
    exact .inr (.inr ⟨Nat.pos_of_ne_zero hzero, not_le.mp hfull, rfl⟩)

theorem initializeContract_effect {admin : Address}
    (h : initializeContract env s admin = .ok s') :
    Effect env s (.initializeContract admin) .done s' := by
  simp only [initializeContract, bind_eq_ok, refuseIf_eq_ok, exists_unit, requireAuth_eq_ok,
    pure_eq_ok] at h
  obtain ⟨habsent, hsigned, rfl⟩ := h
  exact .start hsigned (by simpa using habsent)

theorem enqueue_effect {operator source : Address} {topic : Topic} {schemaVersion id : Nat}
    {correlationId dedupKey payloadHash : Bytes32}
    (h : enqueue env s operator source topic schemaVersion correlationId dedupKey payloadHash =
      .ok (id, s')) :
    Effect env s
      (.enqueue operator source topic schemaVersion correlationId dedupKey payloadHash)
      (.number id) s' := by
  simp only [enqueue, bind_eq_ok, refuseIf_eq_ok, exists_unit, requireAuth_eq_ok,
    requireAdmin_eq_ok] at h
  obtain ⟨hsigned, hrole, _, h⟩ := h
  split at h
  · next hused =>
    simp only [pure_eq_ok, Prod.mk.injEq] at h
    obtain ⟨rfl, rfl⟩ := h
    exact .enqueueAgain hsigned hrole hused
  · next hunused =>
    simp only [appendEvent, bind_eq_ok, refuseIf_eq_ok, exists_unit, not_le, orRefuse_eq_ok,
      fitsU_eq_some, pure_eq_ok, Prod.mk.injEq] at h
    obtain ⟨hroom, id, hnext, _, ⟨hfits, rfl⟩, _, ⟨_, rfl⟩, rfl, rfl⟩ := h
    exact .enqueue hsigned hrole hunused hroom hnext hfits

theorem markPublished_effect {relay : Address} {id : Nat}
    (h : markPublished env s relay id = .ok s') :
    Effect env s (.markPublished relay id) .done s' := by
  simp only [markPublished, bind_eq_ok, refuseIf_eq_ok, exists_unit, requireAuth_eq_ok,
    requireAdmin_eq_ok, orRefuse_eq_ok, not_not, pure_eq_ok] at h
  obtain ⟨hsigned, hrole, event, hstored, hunpublished, rfl⟩ := h
  exact .publish hsigned hrole hstored hunpublished

theorem acknowledge_effect {consumer : Address} {id n : Nat}
    (h : acknowledge env s consumer id = .ok (n, s')) :
    Effect env s (.acknowledge consumer id) (.number n) s' := by
  simp only [acknowledge, bind_eq_ok, refuseIf_eq_ok, exists_unit, requireAuth_eq_ok,
    not_lt] at h
  obtain ⟨hsigned, hstored, hforward, h⟩ := h
  split_ifs at h with hagain
  · obtain ⟨rfl, _⟩ := hagain
    simp only [pure_eq_ok, Prod.mk.injEq] at h
    obtain ⟨rfl, rfl⟩ := h
    exact .acknowledgeAgain hsigned hstored
  · simp only [pure_eq_ok, Prod.mk.injEq] at h
    obtain ⟨rfl, rfl⟩ := h
    exact .acknowledge hsigned hstored hforward

theorem prune_effect {admin : Address} {horizon limit n : Nat}
    (h : prune env s admin horizon limit = .ok (n, s')) :
    Effect env s (.prune admin horizon limit) (.number n) s' := by
  simp only [prune, bind_eq_ok, refuseIf_eq_ok, exists_unit, requireAdmin_eq_ok, not_lt] at h
  obtain ⟨hrole, hpast, _, h⟩ := h
  obtain ⟨count, hcount, hn, rfl, hwithin, hremoved⟩ := sweep_ok h
  rw [hn, Nat.zero_add]
  exact .prune hrole hpast hcount hwithin hremoved

theorem registerEndpoint_effect {operator owner : Address} {urlHash secretHash : Bytes32}
    {topics : List Topic} {id : Nat}
    (h : registerEndpoint env s operator owner urlHash secretHash topics = .ok (id, s')) :
    Effect env s (.registerEndpoint operator owner urlHash secretHash topics) (.number id) s' := by
  simp only [registerEndpoint, saveEndpoint, bind_eq_ok, refuseIf_eq_ok, exists_unit,
    requireAuth_eq_ok, requireAuthAfter_eq_ok, requireAdmin_eq_ok, orRefuse_eq_ok, fitsU_eq_some,
    pure_eq_ok, Prod.mk.injEq] at h
  obtain ⟨hsigned, ⟨hconsent, _⟩, hrole, _, _, _, _, _, id, hnext, _, ⟨_, rfl⟩, _, ⟨_, rfl⟩, rfl,
    rfl⟩ := h
  exact .register hsigned hconsent hrole hnext

theorem rotateSecret_effect {operator : Address} {endpointId n : Nat} {newSecretHash : Bytes32}
    (h : rotateSecret env s operator endpointId newSecretHash = .ok (n, s')) :
    Effect env s (.rotateSecret operator endpointId newSecretHash) (.number n) s' := by
  simp only [rotateSecret, loadEndpoint, bind_eq_ok, exists_unit, requireAuth_eq_ok,
    requireAdmin_eq_ok, orRefuse_eq_ok, fitsU_eq_some, pure_eq_ok, Prod.mk.injEq] at h
  obtain ⟨hsigned, hrole, _, endpoint, hstored, _, ⟨_, rfl⟩, rfl, rfl⟩ := h
  exact .rotate hsigned hrole hstored

theorem setEndpointActive_effect {operator : Address} {endpointId : Nat} {active : Bool}
    (h : setEndpointActive env s operator endpointId active = .ok s') :
    Effect env s (.setEndpointActive operator endpointId active) .done s' := by
  simp only [setEndpointActive, loadEndpoint, bind_eq_ok, exists_unit, requireAuth_eq_ok,
    requireAdmin_eq_ok, orRefuse_eq_ok, pure_eq_ok] at h
  obtain ⟨hsigned, hrole, endpoint, hstored, rfl⟩ := h
  exact .activate hsigned hrole hstored

theorem recordDelivery_effect {operator : Address} {endpointId eventId sequence expiresAt n : Nat}
    {outcome : DeliveryOutcome}
    (h : recordDelivery env s operator endpointId eventId sequence expiresAt outcome =
      .ok (n, s')) :
    Effect env s (.recordDelivery operator endpointId eventId sequence expiresAt outcome)
      (.number n) s' := by
  simp only [recordDelivery, loadEndpoint, nextSequence, bind_eq_ok, exists_unit,
    requireAuth_eq_ok, requireAdmin_eq_ok, orRefuse_eq_ok, fitsU_eq_some, refuseIf_eq_ok, not_not,
    not_and, not_le, Bool.not_eq_false, pure_eq_ok, Prod.mk.injEq] at h
  obtain ⟨hsigned, hrole, endpoint, hstored, hactive, _, ⟨hnext, rfl⟩, rfl, hearly, event, hknown,
    hsubscribed, _, ⟨hattempt, rfl⟩, advanced, hhistory, rfl, rfl⟩ := h
  exact .record hsigned hrole hstored hactive hnext hearly hknown hsubscribed hattempt hhistory

theorem acknowledgeDelivery_effect {owner : Address} {endpointId sequence : Nat}
    (h : acknowledgeDelivery env s owner endpointId sequence = .ok s') :
    Effect env s (.acknowledgeDelivery owner endpointId sequence) .done s' := by
  simp only [acknowledgeDelivery, loadEndpoint, bind_eq_ok, exists_unit, requireAuth_eq_ok,
    orRefuse_eq_ok, refuseIf_eq_ok, not_not, not_or, not_lt, not_le, pure_eq_ok] at h
  obtain ⟨hsigned, endpoint, hstored, rfl, ⟨hpos, hlast⟩, hlater, record, hrecorded, rfl⟩ := h
  exact .acknowledgeDelivery hsigned hstored hrecorded ⟨Nat.pos_of_ne_zero hpos, hlast⟩ hlater

/-- A settlement call touches the settlement book only. -/
theorem settlement_effect {call : Call} {answer : Answer} (hkind : call.isSettlement = true)
    (h : execute env s call = .ok (answer, s')) : Effect env s call answer s' := by
  cases call with
  | openSettlement operator intentId source correlationId expectedAmount requiredFinality =>
    simp only [execute, quiet_eq_ok, openSettlement, saveIntent, bind_eq_ok, exists_unit,
      requireAuth_eq_ok, requireAdmin_eq_ok, pure_eq_ok] at h
    obtain ⟨rfl, hsigned, hrole, _, _, _, _, tracked, _, rfl⟩ := h
    exact .settle rfl hsigned hrole
  | observeSettlement operator intentId txHash txLedger =>
    simp only [execute, quiet_eq_ok, observeSettlement, saveIntent, bind_eq_ok, exists_unit,
      requireAuth_eq_ok, requireAdmin_eq_ok] at h
    obtain ⟨rfl, hsigned, hrole, intent, _, _, h⟩ := h
    split_ifs at h
    · obtain ⟨_, _, hpost⟩ := bind_eq_ok.mp h
      rw [← pure_eq_ok.mp hpost]
      exact .settle rfl hsigned hrole
    · obtain ⟨_, _, hpost⟩ := bind_eq_ok.mp h
      rw [← pure_eq_ok.mp hpost]
      exact .settle rfl hsigned hrole
  | reconcileSettlement operator intentId observedAmount =>
    simp only [execute, map_eq_ok, Prod.exists, Prod.mk.injEq, reconcileSettlement, bind_eq_ok,
      exists_unit, requireAuth_eq_ok, requireAdmin_eq_ok] at h
    obtain ⟨state, t, ⟨hsigned, hrole, intent, _, h⟩, rfl, rfl⟩ := h
    split_ifs at h
    · simp only [pure_eq_ok, Prod.mk.injEq] at h
      obtain ⟨_, rfl⟩ := h
      exact .settle rfl hsigned hrole
    · simp only [bind_eq_ok, exists_unit, adjudicate, raiseAlert, saveIntent] at h
      obtain ⟨_, _, _, _, _, _, h⟩ := h
      split_ifs at h
      · simp only [pure_eq_ok, Prod.mk.injEq] at h
        obtain ⟨_, rfl⟩ := h
        exact .settle rfl hsigned hrole
      · simp only [bind_eq_ok, pure_eq_ok, Prod.mk.injEq] at h
        obtain ⟨_, ⟨alerts, _, rfl⟩, _, rfl⟩ := h
        exact .settle rfl hsigned hrole
  | expireSettlement operator intentId =>
    simp only [execute, quiet_eq_ok, expireSettlement, saveIntent, raiseAlert, bind_eq_ok,
      exists_unit, requireAuth_eq_ok, requireAdmin_eq_ok, pure_eq_ok] at h
    obtain ⟨rfl, hsigned, hrole, intent, _, _, alerts, _, rfl⟩ := h
    exact .settle rfl hsigned hrole
  | resolveSettlement operator intentId resolutionHash =>
    simp only [execute, quiet_eq_ok, resolveSettlement, saveIntent, bind_eq_ok, exists_unit,
      requireAuth_eq_ok, requireAdmin_eq_ok, pure_eq_ok] at h
    obtain ⟨rfl, hsigned, hrole, _, intent, _, _, rfl⟩ := h
    exact .settle rfl hsigned hrole
  | archiveSettlement operator intentId =>
    simp only [execute, quiet_eq_ok, archiveSettlement, bind_eq_ok, exists_unit,
      requireAuth_eq_ok, requireAdmin_eq_ok, pure_eq_ok] at h
    obtain ⟨rfl, hsigned, hrole, intent, _, _, rfl⟩ := h
    exact .settle rfl hsigned hrole
  | _ => simp [Call.isSettlement] at hkind

/-- What an accepted entry point has done. -/
theorem execute_effect {call : Call} {answer : Answer}
    (h : execute env s call = .ok (answer, s')) : Effect env s call answer s' := by
  cases call with
  | initializeContract =>
    obtain ⟨rfl, hcall⟩ := quiet_eq_ok.mp h
    exact initializeContract_effect hcall
  | enqueue =>
    obtain ⟨_, rfl, hcall⟩ := counted_eq_ok.mp h
    exact enqueue_effect hcall
  | markPublished =>
    obtain ⟨rfl, hcall⟩ := quiet_eq_ok.mp h
    exact markPublished_effect hcall
  | acknowledge =>
    obtain ⟨_, rfl, hcall⟩ := counted_eq_ok.mp h
    exact acknowledge_effect hcall
  | prune =>
    obtain ⟨_, rfl, hcall⟩ := counted_eq_ok.mp h
    exact prune_effect hcall
  | registerEndpoint =>
    obtain ⟨_, rfl, hcall⟩ := counted_eq_ok.mp h
    exact registerEndpoint_effect hcall
  | rotateSecret =>
    obtain ⟨_, rfl, hcall⟩ := counted_eq_ok.mp h
    exact rotateSecret_effect hcall
  | setEndpointActive =>
    obtain ⟨rfl, hcall⟩ := quiet_eq_ok.mp h
    exact setEndpointActive_effect hcall
  | recordDelivery =>
    obtain ⟨_, rfl, hcall⟩ := counted_eq_ok.mp h
    exact recordDelivery_effect hcall
  | acknowledgeDelivery =>
    obtain ⟨rfl, hcall⟩ := quiet_eq_ok.mp h
    exact acknowledgeDelivery_effect hcall
  | openSettlement | observeSettlement | reconcileSettlement | expireSettlement
  | resolveSettlement | archiveSettlement => exact settlement_effect rfl h

end Specs

end ChainVerse.ScholarshipOutbox
