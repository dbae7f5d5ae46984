import ChainVerse.Outbox.Events

namespace ChainVerse.ScholarshipOutbox

variable {contract : Address} {env : Env contract} {s s' : State}

/-- The bounded history of an endpoint: empty before the first delivery, then the last `count`
sequence numbers. -/
def HistoryWindow (floor : Option Nat) (count last : Nat) : Prop :=
  count = 0 ∧ last = 0 ∨
    0 < count ∧ count ≤ maxDeliveryHistory ∧ ∃ f, floor = some f ∧ f + count = last + 1

/-- The enrolled endpoints and their delivery histories. -/
structure Enrolled (s : State) : Prop where
  fresh : s.admin = none → ∀ id, s.endpoint id = none
  named : ∀ {id endpoint}, s.endpoint id = some endpoint → endpoint.id = id
  below : ∀ {id endpoint}, s.endpoint id = some endpoint → id < s.nextEndpointId.getD 1
  unused : ∀ {id}, s.endpoint id = none → s.deliveryCount id = 0
  history : ∀ {id endpoint}, s.endpoint id = some endpoint →
    HistoryWindow (s.deliveryFloor id) (s.deliveryCount id) endpoint.lastSequence

/-- The storage that endpoints and their histories live in is untouched. -/
structure SameEndpoints (s s' : State) : Prop where
  admin : s'.admin = s.admin
  next : s'.nextEndpointId = s.nextEndpointId
  endpoint : s'.endpoint = s.endpoint
  floor : s'.deliveryFloor = s.deliveryFloor
  count : s'.deliveryCount = s.deliveryCount

section Histories

theorem Enrolled.of_same (hs : Enrolled s) (h : SameEndpoints s s') : Enrolled s' := by
  constructor
  · rw [h.admin, h.endpoint]
    exact hs.fresh
  · rw [h.endpoint]
    exact hs.named
  · rw [h.endpoint, h.next]
    exact hs.below
  · rw [h.endpoint, h.count]
    exact hs.unused
  · rw [h.endpoint, h.floor, h.count]
    exact hs.history

/-- One more delivery fits into the history and moves its window to the new sequence number. -/
theorem advanceHistory_window {endpointId last : Nat}
    (h : HistoryWindow (s.deliveryFloor endpointId) (s.deliveryCount endpointId) last)
    (hfits : last + 1 < 2^64) :
    ∃ advanced, advanceHistory s endpointId (last + 1) = .ok advanced ∧
      HistoryWindow (advanced.deliveryFloor endpointId) (advanced.deliveryCount endpointId)
        (last + 1) := by
  unfold advanceHistory
  dsimp only
  rcases h with ⟨hcount, rfl⟩ | ⟨hpos, hle, f, hfloor, hwindow⟩
  · rw [if_neg (by simp [hcount, maxDeliveryHistory])]
    simp [hcount, fitsU, orRefuse, HistoryWindow, maxDeliveryHistory]
  · split_ifs with hfull hzero
    · have hnext : f + 1 < 2^64 := by omega
      simp only [hfloor, Option.getD_some, fitsU, hnext, if_true, orRefuse, ok_bind]
      refine ⟨_, rfl, .inr ⟨hpos, hle, f + 1, Function.update_self _ _ _, ?_⟩⟩
      change f + 1 + s.deliveryCount endpointId = last + 1 + 1
      omega
    · omega
    · have hnext : s.deliveryCount endpointId + 1 < 2^32 := by
        simp only [maxDeliveryHistory] at hle
        omega
      simp only [fitsU, hnext, if_true, orRefuse, ok_bind]
      refine ⟨_, rfl, .inr ?_⟩
      simp only [Function.update_self]
      exact ⟨by omega, by omega, f, hfloor, by omega⟩

/-- Advancing the history of one endpoint leaves the endpoints and all other histories alone. -/
theorem advanceHistory_frame {endpointId sequence : Nat}
    (h : advanceHistory s endpointId sequence = .ok s') :
    s'.admin = s.admin ∧ s'.nextEndpointId = s.nextEndpointId ∧ s'.endpoint = s.endpoint ∧
      ∀ id, id ≠ endpointId →
        s'.deliveryFloor id = s.deliveryFloor id ∧ s'.deliveryCount id = s.deliveryCount id := by
  rcases advanceHistory_cases h with ⟨_, rfl⟩ | ⟨_, rfl⟩ | ⟨_, _, rfl⟩
  · exact ⟨rfl, rfl, rfl, fun id hne => ⟨Function.update_of_ne hne _ _, rfl⟩⟩
  · exact ⟨rfl, rfl, rfl, fun id hne =>
      ⟨Function.update_of_ne hne _ _, Function.update_of_ne hne _ _⟩⟩
  · exact ⟨rfl, rfl, rfl, fun id hne => ⟨rfl, Function.update_of_ne hne _ _⟩⟩

/-- An endpoint may be replaced by one of the same id and last sequence number. -/
theorem Enrolled.save (hs : Enrolled s) {id : Nat} {endpoint replacement : WebhookEndpoint}
    (hstored : s.endpoint id = some endpoint) (hid : replacement.id = endpoint.id)
    (hlast : replacement.lastSequence = endpoint.lastSequence) :
    Enrolled (saveEndpoint s replacement) := by
  have hreplacement : replacement.id = id := hid.trans (hs.named hstored)
  have hcases : ∀ {other found}, (saveEndpoint s replacement).endpoint other = some found →
      other = id ∧ found = replacement ∨ s.endpoint other = some found := by
    intro other found hfound
    simp only [saveEndpoint, hreplacement, Function.update_apply] at hfound
    split_ifs at hfound with hother
    · exact .inl ⟨hother, (Option.some.inj hfound).symm⟩
    · exact .inr hfound
  constructor
  · intro habsent
    rw [hs.fresh habsent id] at hstored
    cases hstored
  · intro other found hfound
    rcases hcases hfound with ⟨rfl, rfl⟩ | hold
    · exact hreplacement
    · exact hs.named hold
  · intro other found hfound
    rcases hcases hfound with ⟨rfl, rfl⟩ | hold
    · exact hs.below hstored
    · exact hs.below hold
  · intro other hnone
    simp only [saveEndpoint, hreplacement, Function.update_apply] at hnone
    split_ifs at hnone
    exact hs.unused hnone
  · intro other found hfound
    rcases hcases hfound with ⟨rfl, rfl⟩ | hold
    · rw [hlast]
      exact hs.history hstored
    · exact hs.history hold

theorem Enrolled.record (hs : Enrolled s) {id now : Nat} {endpoint : WebhookEndpoint}
    {record : DeliveryRecord} {advanced : State} (hstored : s.endpoint id = some endpoint)
    (hfits : endpoint.lastSequence + 1 < 2^64)
    (hhistory : advanceHistory (s.attempted record) id (endpoint.lastSequence + 1) =
      .ok advanced) :
    Enrolled (saveEndpoint advanced { endpoint with
      lastSequence := endpoint.lastSequence + 1, updatedAt := now }) := by
  have hnamed := hs.named hstored
  obtain ⟨hadmin, hnext, hendpoint, hothers⟩ := advanceHistory_frame hhistory
  have hwindow : HistoryWindow (advanced.deliveryFloor id) (advanced.deliveryCount id)
      (endpoint.lastSequence + 1) := by
    obtain ⟨found, hfound, hwindow⟩ := @advanceHistory_window (s.attempted record) id
      endpoint.lastSequence (hs.history hstored) hfits
    rw [hhistory, Except.ok.injEq] at hfound
    rwa [hfound]
  constructor
  · intro habsent
    have hadmin' : s.admin = none := hadmin.symm.trans habsent
    rw [hs.fresh hadmin' id] at hstored
    cases hstored
  · intro other found hfound
    simp only [saveEndpoint, hendpoint, State.attempted, hnamed, Function.update_apply] at hfound
    split_ifs at hfound with heq
    · cases hfound
      exact heq.symm
    · exact hs.named hfound
  · intro other found hfound
    simp only [saveEndpoint, hendpoint, State.attempted, hnamed, Function.update_apply] at hfound
    simp only [saveEndpoint, hnext, State.attempted]
    split_ifs at hfound with heq
    · exact heq ▸ hs.below hstored
    · exact hs.below hfound
  · intro other hnone
    simp only [saveEndpoint, hendpoint, State.attempted, hnamed, Function.update_apply] at hnone
    split_ifs at hnone with hne
    rw [saveEndpoint, (hothers other hne).2]
    exact hs.unused hnone
  · intro other found hfound
    simp only [saveEndpoint, hendpoint, State.attempted, hnamed, Function.update_apply] at hfound
    simp only [saveEndpoint]
    split_ifs at hfound with heq
    · cases hfound
      rw [heq]
      exact hwindow
    · rw [(hothers other heq).1, (hothers other heq).2]
      exact hs.history hfound

end Histories

section Preservation

theorem enrolled_empty : Enrolled State.empty := by
  constructor <;> simp [State.empty]

theorem Effect.enrolled {call : Call} {answer : Answer} (h : Effect env s call answer s')
    (hs : Enrolled s) : Enrolled s' := by
  cases h with
  | start _ habsent =>
    have hnone := hs.fresh habsent
    constructor
    · exact fun h => nomatch h
    all_goals
      intro id
      simp [hnone id, hs.unused (hnone id)]
  | @register _ owner _ _ _ id _ _ hrole hnext =>
    have hfree : s.endpoint id = none := by
      by_contra hsome
      obtain ⟨endpoint, hendpoint⟩ := Option.ne_none_iff_exists'.mp hsome
      have := hs.below hendpoint
      simp [hnext] at this
    have hcount := hs.unused hfree
    constructor
    · intro h
      simp [hrole] at h
    · intro other endpoint hother
      simp only [Function.update_apply] at hother
      split_ifs at hother with heq
      · cases hother
        exact heq.symm
      · exact hs.named hother
    · intro other endpoint hother
      simp only [Function.update_apply] at hother
      split_ifs at hother with heq
      · simp [heq]
      · have := hs.below hother
        rw [hnext, Option.getD_some] at this
        simp only [Option.getD_some]
        omega
    · intro other hother
      simp only [Function.update_apply] at hother
      split_ifs at hother
      exact hs.unused hother
    · intro other endpoint hother
      simp only [Function.update_apply] at hother
      split_ifs at hother with heq
      · cases hother
        exact .inl ⟨heq ▸ hcount, rfl⟩
      · exact hs.history hother
  | rotate _ _ hstored => exact hs.save hstored rfl rfl
  | activate _ _ hstored => exact hs.save hstored rfl rfl
  | record _ _ hstored _ hfits _ _ _ _ hhistory => exact hs.record hstored hfits hhistory
  | enqueueAgain | acknowledgeAgain => exact hs
  | enqueue | publish | acknowledge | prune | acknowledgeDelivery | settle =>
    exact hs.of_same ⟨rfl, rfl, rfl, rfl, rfl⟩

theorem run_enrolled (contract : Address) (is : List (Input contract)) :
    Enrolled ((machine contract).run State.empty is) :=
  Machine.run_invariant enrolled_empty (fun _ _ _ _ hs h => (execute_effect h).enrolled hs) is

end Preservation

section Gates

/-- What signing and recording ask in common: a stored event and the next sequence number of an
active endpoint. -/
structure NextDelivery (s : State) (endpointId eventId sequence : Nat)
    (endpoint : WebhookEndpoint) (event : OutboxEvent) : Prop where
  stored : s.endpoint endpointId = some endpoint
  active : endpoint.active = true
  next : sequence = endpoint.lastSequence + 1
  fits : sequence < 2^64
  known : s.event eventId = some event

/-- A next delivery determines the endpoint and the event it is for. -/
theorem NextDelivery.unique {endpointId eventId sequence : Nat}
    {endpoint endpoint' : WebhookEndpoint} {event event' : OutboxEvent}
    (h : NextDelivery s endpointId eventId sequence endpoint event)
    (h' : NextDelivery s endpointId eventId sequence endpoint' event') :
    endpoint' = endpoint ∧ event' = event := by
  have hendpoint := h'.stored.symm.trans h.stored
  have hevent := h'.known.symm.trans h.known
  exact ⟨Option.some.inj hendpoint, Option.some.inj hevent⟩

theorem NextDelivery.exists_iff {endpointId eventId sequence : Nat}
    {endpoint : WebhookEndpoint} {event : OutboxEvent}
    (h : NextDelivery s endpointId eventId sequence endpoint event)
    {p : WebhookEndpoint → OutboxEvent → Prop} :
    (∃ endpoint' event', NextDelivery s endpointId eventId sequence endpoint' event' ∧
      p endpoint' event') ↔ p endpoint event := by
  constructor
  · rintro ⟨endpoint', event', h', hp⟩
    obtain ⟨rfl, rfl⟩ := h.unique h'
    exact hp
  · exact fun hp => ⟨endpoint, event, h, hp⟩

/-- The endpoint takes the event's topic and its attempts can still be counted. -/
def Sendable (s : State) (endpointId eventId : Nat) (endpoint : WebhookEndpoint)
    (event : OutboxEvent) : Prop :=
  event.topic ∈ endpoint.topics ∧ s.attempts endpointId eventId + 1 < 2^32

variable {crypto : Crypto} {operator : Address} {endpointId eventId sequence expiresAt : Nat}

theorem checkExpiry_eq_ok {now : Nat} {u : Unit} :
    checkExpiry now expiresAt = .ok u ↔ now ≤ expiresAt ∧ expiresAt ≤ now + maxSignatureTtl := by
  simp only [checkExpiry, bind_eq_ok, orRefuse_eq_ok, checkedSub_eq_some, refuseIf_eq_ok, not_lt]
  constructor
  · rintro ⟨ttl, ⟨hle, rfl⟩, hbound⟩
    omega
  · rintro ⟨hle, hbound⟩
    exact ⟨_, ⟨hle, rfl⟩, by omega⟩

/-- When a digest is signed. -/
theorem deliveryPayload_accepts :
    (∃ digest, deliveryPayload env crypto s endpointId eventId sequence expiresAt = .ok digest) ↔
      ∃ endpoint event, NextDelivery s endpointId eventId sequence endpoint event ∧
        env.timestamp ≤ expiresAt ∧ expiresAt ≤ env.timestamp + maxSignatureTtl := by
  simp only [deliveryPayload, loadEndpoint, nextSequence, bind_eq_ok, orRefuse_eq_ok,
    fitsU_eq_some, refuseIf_eq_ok, exists_unit, checkExpiry_eq_ok, not_not, Bool.not_eq_false,
    pure_eq_ok]
  constructor
  · rintro ⟨_, endpoint, hstored, hactive, _, ⟨hfits, rfl⟩, rfl, hwindow, event, hknown, _⟩
    exact ⟨endpoint, event, ⟨hstored, hactive, rfl, hfits, hknown⟩, hwindow⟩
  · rintro ⟨endpoint, event, ⟨hstored, hactive, rfl, hfits, hknown⟩, hwindow⟩
    exact ⟨_, endpoint, hstored, hactive, _, ⟨hfits, rfl⟩, rfl, hwindow, event, hknown, rfl⟩

/-- When the operator's record of a sent delivery is taken. -/
theorem recordDelivery_accepts (hs : Enrolled s) (hsigned : env.signers operator = true)
    (hrole : s.admin = some operator) :
    (∃ r, recordDelivery env s operator endpointId eventId sequence expiresAt .delivered =
        .ok r) ↔
      ∃ endpoint event, NextDelivery s endpointId eventId sequence endpoint event ∧
        env.timestamp < expiresAt ∧ Sendable s endpointId eventId endpoint event := by
  constructor
  · rintro ⟨⟨n, s'⟩, haccepted⟩
    have heffect := recordDelivery_effect haccepted
    cases heffect with
    | record _ _ hstored hactive hfits hearly hknown hsubscribed hattempt _ =>
      exact ⟨_, _, ⟨hstored, hactive, rfl, hfits, hknown⟩, hearly, hsubscribed (by decide),
        hattempt⟩
    | settle kind => simp [Call.isSettlement] at kind
  · rintro ⟨endpoint, event, ⟨hstored, hactive, rfl, hfits, hknown⟩, hearly, hsubscribed,
      hattempt⟩
    have hadvance := fun record => @advanceHistory_window (s.attempted record) endpointId
      endpoint.lastSequence (hs.history hstored) hfits
    obtain ⟨advanced, hadvanced, _⟩ := hadvance ⟨endpointId, eventId, endpoint.lastSequence + 1,
      endpoint.secretEpoch, expiresAt, s.attempts endpointId eventId + 1, env.timestamp,
      .delivered, 0⟩
    simp only [recordDelivery, loadEndpoint, nextSequence, bind_eq_ok, exists_unit,
      requireAuth_eq_ok, requireAdmin_eq_ok, orRefuse_eq_ok, fitsU_eq_some, refuseIf_eq_ok,
      not_not, not_and, not_le, Bool.not_eq_false, pure_eq_ok]
    exact ⟨_, hsigned, hrole, endpoint, hstored, hactive, _, ⟨hfits, rfl⟩, rfl, hearly, event,
      hknown, fun _ => hsubscribed, _, ⟨hattempt, rfl⟩, advanced, hadvanced, rfl⟩

/-- Signing and recording take the same deliveries, and only ones that are due: the next sequence
number of an active, subscribed endpoint with an expiry in `(now, now + MAX_SIGNATURE_TTL]`. -/
def GatesAgree (env : Env contract) (crypto : Crypto) (s : State) (operator : Address)
    (endpointId eventId sequence expiresAt : Nat) : Prop :=
  let signs := ∃ digest,
    deliveryPayload env crypto s endpointId eventId sequence expiresAt = .ok digest
  let records := ∃ r,
    recordDelivery env s operator endpointId eventId sequence expiresAt .delivered = .ok r
  (signs ↔ records) ∧ (signs ∨ records → ∃ endpoint event,
    NextDelivery s endpointId eventId sequence endpoint event ∧
      event.topic ∈ endpoint.topics ∧ env.timestamp < expiresAt ∧
      expiresAt ≤ env.timestamp + maxSignatureTtl)

/-- In every reachable state the two gates agree on a next delivery exactly when both turn it down
for its expiry, when it is due and can be sent, or when its expiry is too far off and it cannot be
sent. -/
theorem gates_agree_iff (is : List (Input contract)) (env : Env contract) (crypto : Crypto)
    (operator : Address) (endpointId eventId sequence expiresAt : Nat)
    (hsigned : env.signers operator = true)
    (hrole : ((machine contract).run State.empty is).admin = some operator) :
    let s := (machine contract).run State.empty is
    GatesAgree env crypto s operator endpointId eventId sequence expiresAt ↔
      ∀ endpoint event, NextDelivery s endpointId eventId sequence endpoint event →
        expiresAt < env.timestamp ∨
        (env.timestamp < expiresAt ∧ expiresAt ≤ env.timestamp + maxSignatureTtl ∧
          Sendable s endpointId eventId endpoint event) ∨
        (env.timestamp + maxSignatureTtl < expiresAt ∧
          ¬ Sendable s endpointId eventId endpoint event) := by
  intro s
  have hs : Enrolled s := run_enrolled contract is
  simp only [GatesAgree, deliveryPayload_accepts, recordDelivery_accepts hs hsigned hrole]
  by_cases hexists : ∃ endpoint event, NextDelivery s endpointId eventId sequence endpoint event
  · obtain ⟨endpoint, event, hnext⟩ := hexists
    have hforall : ∀ {p : WebhookEndpoint → OutboxEvent → Prop}, p endpoint event ↔
        ∀ endpoint' event', NextDelivery s endpointId eventId sequence endpoint' event' →
          p endpoint' event' := by
      intro p
      constructor
      · intro hp endpoint' event' h'
        obtain ⟨rfl, rfl⟩ := hnext.unique h'
        exact hp
      · exact fun hall => hall endpoint event hnext
    rw [← hforall]
    simp only [hnext.exists_iff, Sendable]
    by_cases hsendable : event.topic ∈ endpoint.topics ∧
        s.attempts endpointId eventId + 1 < 2^32
    · simp only [hsendable, true_and, and_true, not_true_eq_false, and_false, or_false]
      omega
    · simp only [hsendable, and_false, not_false_eq_true, and_true, or_false, false_or, iff_false]
      constructor
      · rintro ⟨hclosed, _⟩
        omega
      · intro hout
        have hclosed : ¬ (env.timestamp ≤ expiresAt ∧
            expiresAt ≤ env.timestamp + maxSignatureTtl) := by omega
        exact ⟨hclosed, fun hopen => absurd hopen hclosed⟩
  · have hnone : ∀ endpoint event, ¬ NextDelivery s endpointId eventId sequence endpoint event :=
      fun endpoint event h => hexists ⟨endpoint, event, h⟩
    simp [hnone]

/-- The sample calls and an endpoint of the owner `⟨3⟩` for the topic of the first event. -/
def sampleSubscription : List (Input ⟨0⟩) :=
  sampleCalls ++ [⟨.sample, .registerEndpoint ⟨1⟩ ⟨3⟩ 5 6 ["award"]⟩]

def sampleCrypto : Crypto := ⟨fun bytes => bytes.length, fun account => [account.key], 11⟩

/-- A digest that expires at the current ledger time is signed, and its delivery is refused. -/
theorem gates_disagree_at_now :
    ¬ GatesAgree .sample sampleCrypto ((machine ⟨0⟩).run State.empty sampleSubscription) ⟨1⟩
      1 1 1 10 := by
  rintro ⟨hiff, _⟩
  have hrecorded := hiff.mp (by decide +kernel)
  exact absurd hrecorded (by decide +kernel)

/-- One second later both accept. -/
theorem gates_agree_sample :
    GatesAgree .sample sampleCrypto ((machine ⟨0⟩).run State.empty sampleSubscription) ⟨1⟩
      1 1 1 11 := by
  have hsigned : Env.sample.signers ⟨1⟩ = true := by decide
  have hrole : ((machine ⟨0⟩).run State.empty sampleSubscription).admin = some ⟨1⟩ := by
    decide +kernel
  apply (gates_agree_iff sampleSubscription .sample sampleCrypto ⟨1⟩ 1 1 1 11 hsigned hrole).mpr
  intro endpoint event hnext
  have hsendable : ∃ found stored,
      ((machine ⟨0⟩).run State.empty sampleSubscription).endpoint 1 = some found ∧
      ((machine ⟨0⟩).run State.empty sampleSubscription).event 1 = some stored ∧
      stored.topic ∈ found.topics := ⟨_, _, rfl, rfl, by decide +kernel⟩
  obtain ⟨found, stored, hfound, hstored, htopic⟩ := hsendable
  have hendpoint : found = endpoint := Option.some.inj (hfound.symm.trans hnext.stored)
  have hevent : stored = event := Option.some.inj (hstored.symm.trans hnext.known)
  subst hendpoint hevent
  refine .inr (.inl ⟨by decide, by decide, htopic, ?_⟩)
  decide +kernel

end Gates

end ChainVerse.ScholarshipOutbox
