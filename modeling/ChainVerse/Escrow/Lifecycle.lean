import ChainVerse.Escrow.Conservation

namespace ChainVerse.EscrowContract

variable {contract : Address}

/-- How a stored escrow may look later: the terms stay, the amount only comes down, and a settled
escrow stays as it is. -/
structure Escrow.Continues (e e' : Escrow) : Prop where
  buyer : e'.buyer = e.buyer
  seller : e'.seller = e.seller
  token : e'.token = e.token
  originalAmount : e'.originalAmount = e.originalAmount
  expiration : e'.expiration = e.expiration
  amount_le : e'.amount ≤ e.amount
  absorbed : e.status = .completed ∨ e.status = .cancelled → e' = e

/-- Every stored escrow is still there and is one of its continuations. -/
def State.Continues (s s' : State) : Prop :=
  ∀ id e, s.escrow id = some e → ∃ e', s'.escrow id = some e' ∧ e.Continues e'

/-- The arbiter's resolution of a disputed escrow. -/
def ByArbiter (env : Env contract) (s : State) (call : Call) (id : Nat) (e : Escrow) : Prop :=
  ∃ arbiter toBuyer toSeller fee, call = .resolveDispute arbiter id toBuyer toSeller fee ∧
    s.arbiter = some arbiter ∧ env.signers arbiter = true ∧ e.status = .disputed

/-- A release before the expiration that the buyer or the admin has authorized. -/
def ByReleaser (env : Env contract) (s : State) (call : Call) (id : Nat) (e : Escrow) : Prop :=
  ∃ caller, (call = .releaseEscrow caller id ∨ ∃ part, call = .partialRelease caller id part) ∧
    env.signers caller = true ∧ (caller = e.buyer ∨ s.admin = some caller) ∧
    env.timestamp < e.expiration

/-- A refund at or after the expiration. -/
def ByRefund (env : Env contract) (call : Call) (id : Nat) (e : Escrow) : Prop :=
  call = .refundEscrow e.buyer id ∧ e.expiration ≤ env.timestamp

/-- A payment out of an escrow goes to one of its parties: to the seller by a release or by the
arbiter, to the buyer by a refund or by the arbiter. -/
def EscrowPayment (x : Step contract) (t : Transfer) : Prop :=
  ∃ env call id e, x.input = .invoke env call ∧ x.pre.escrow id = some e ∧ t.token = e.token ∧
    (t.recipient = e.seller ∨ t.recipient = e.buyer) ∧
    (t.recipient = e.seller → ByReleaser env x.pre call id e ∨ ByArbiter env x.pre call id e) ∧
    (t.recipient = e.buyer → ByRefund env call id e ∨ ByArbiter env x.pre call id e)

/-- The admin's withdrawal of accrued fees. -/
def FeePayment (x : Step contract) (t : Transfer) : Prop :=
  ∃ env admin, x.input = .invoke env (.withdrawFees admin t.token t.recipient t.amount) ∧
    x.pre.admin = some admin ∧ env.signers admin = true

/-- One for an accepted funding of escrow `id`. -/
def Step.funding (id : Nat) (x : Step contract) : Int :=
  match x.input with
  | .invoke _ (.fundEscrow _ named) => if named = id then 1 else 0
  | _ => 0

/-- One for an escrow that has been funded. -/
def everFunded : Option Escrow → Int
  | some e => if e.status = .created then 0 else 1
  | none => 0

section Changes

variable {env : Env contract} {s s' : State} {call : Call} {id : Nat} {e e' : Escrow}
  {ts : List Transfer} {fee : Int} {records : List FeeRecord}

theorem Escrow.Continues.refl (e : Escrow) : e.Continues e :=
  ⟨rfl, rfl, rfl, rfl, rfl, le_rfl, fun _ => rfl⟩

theorem Escrow.Continues.trans {e e' e'' : Escrow} (h : e.Continues e') (h' : e'.Continues e'') :
    e.Continues e'' where
  buyer := h'.buyer.trans h.buyer
  seller := h'.seller.trans h.seller
  token := h'.token.trans h.token
  originalAmount := h'.originalAmount.trans h.originalAmount
  expiration := h'.expiration.trans h.expiration
  amount_le := h'.amount_le.trans h.amount_le
  absorbed hsettled := by
    have heq := h.absorbed hsettled
    exact (h'.absorbed (heq ▸ hsettled)).trans heq

/-- The guards that an operation makes by hand agree with the shared transition table. -/
theorem Change.transition (h : Change env s call id e e' ts fee records) :
    e'.status = e.status ∨ assertTransitionAllowed e.status e'.status = .ok () := by
  cases h with
  | partialRelease _ _ hstatus =>
    dsimp only
    split_ifs
    · exact .inr (by rw [hstatus]; rfl)
    · exact .inl rfl
  | fund _ hstatus | release _ _ hstatus | dispute _ hstatus | resolve _ _ hstatus
  | refund _ hstatus => exact .inr (by rw [hstatus]; rfl)

theorem Change.continues (h : Change env s call id e e' ts fee records) (he : e.WellFormed) :
    e.Continues e' := by
  obtain ⟨hbuyer, hseller, htoken, horiginal, hexpiration⟩ := h.fixed
  refine ⟨hbuyer, hseller, htoken, horiginal, hexpiration, ?_, ?_⟩
  · cases h with
    | partialRelease _ _ _ _ hpos => exact sub_le_self _ hpos.le
    | fund | dispute => exact le_rfl
    | release | resolve | refund => exact he.amount_nonneg
  · cases h with
    | fund _ hstatus | release _ _ hstatus | partialRelease _ _ hstatus | dispute _ hstatus
    | resolve _ _ hstatus | refund _ hstatus => simp [hstatus]

/-- Who may cause each payment of a change. -/
theorem Change.authority (h : Change env s call id e e' ts fee records) (he : e.WellFormed)
    {t : Transfer} (ht : t ∈ ts) (hsender : t.sender = contract) :
    (t.recipient = e.seller ∨ t.recipient = e.buyer) ∧
    (t.recipient = e.seller → ByReleaser env s call id e ∨ ByArbiter env s call id e) ∧
    (t.recipient = e.buyer → ByRefund env call id e ∨ ByArbiter env s call id e) := by
  refine ⟨h.recipients t ht hsender, ?_⟩
  have hparties := he.parties
  cases h with
  | fund hsigned =>
    obtain rfl := List.mem_singleton.mp ht
    exact absurd hsender (Env.signer_ne_contract hsigned)
  | release hsigned hrole _ hearly =>
    obtain rfl := List.mem_singleton.mp ht
    exact ⟨fun _ => .inl ⟨_, .inl rfl, hsigned, hrole, hearly⟩, fun h => absurd h.symm hparties⟩
  | partialRelease hsigned hrole _ hearly =>
    obtain rfl := List.mem_singleton.mp ht
    exact ⟨fun _ => .inl ⟨_, .inr ⟨_, rfl⟩, hsigned, hrole, hearly⟩,
      fun h => absurd h.symm hparties⟩
  | dispute => simp at ht
  | @resolve arbiter _ _ toBuyer toSeller fee hsigned hrole hstatus =>
    have harbiter : ByArbiter env s (.resolveDispute arbiter id toBuyer toSeller fee) id e :=
      ⟨arbiter, toBuyer, toSeller, fee, rfl, hrole, hsigned, hstatus⟩
    exact ⟨fun _ => .inr harbiter, fun _ => .inr harbiter⟩
  | refund _ _ hlate =>
    obtain rfl := List.mem_singleton.mp ht
    exact ⟨fun h => absurd h hparties, fun _ => .inl ⟨rfl, hlate⟩⟩

/-- Only funding leaves the status `created`, and no change returns to it. -/
theorem Change.everFunded (h : Change env s call id e e' ts fee records) (o : Option Nat) :
    everFunded (some e') =
      everFunded (some e) + Step.funding id ⟨s, .invoke env call, o, s'⟩ := by
  cases h with
  | partialRelease _ _ hstatus =>
    simp only [EscrowContract.everFunded, Step.funding, hstatus]
    split_ifs <;> simp_all
  | fund _ hstatus | release _ _ hstatus | dispute _ hstatus | resolve _ _ hstatus
  | refund _ hstatus => simp [EscrowContract.everFunded, Step.funding, hstatus]

end Changes

section Steps

variable {x : Step contract}

/-- What a step does to a stored escrow. -/
theorem step_row (hs : Proper x.pre)
    (h : (machine contract).step x.pre x.input = .ok (x.output, x.post)) {id : Nat} {e : Escrow}
    (hrow : x.pre.escrow id = some e) :
    ∃ e', x.post.escrow id = some e' ∧ e.Continues e' ∧
      (e'.status = e.status ∨ assertTransitionAllowed e.status e'.status = .ok ()) := by
  obtain ⟨s, i, o, s'⟩ := x
  dsimp only at h hs hrow ⊢
  cases i with
  | drift move => exact ⟨e, by rw [step_drift h]; exact hrow, .refl e, .inl rfl⟩
  | invoke env call =>
    cases (step_invoke h).row id with
    | same hsame _ => exact ⟨e, hsame.trans hrow, .refl e, .inl rfl⟩
    | opened _ hnew => simp [hs.fresh hnew] at hrow
    | @changed _ e' _ _ _ _ hold hchange hpost =>
      obtain rfl : _ = e := Option.some.inj (hold.symm.trans hrow)
      exact ⟨e', by simp [hpost], hchange.continues (hs.records id _ hold), hchange.transition⟩

theorem step_continues (hs : Proper x.pre)
    (h : (machine contract).step x.pre x.input = .ok (x.output, x.post)) :
    x.pre.Continues x.post := fun _ _ hrow =>
  let ⟨e', hrow', hcontinues, _⟩ := step_row hs h hrow
  ⟨e', hrow', hcontinues⟩

theorem step_funding (hs : Proper x.pre)
    (h : (machine contract).step x.pre x.input = .ok (x.output, x.post)) (id : Nat) :
    everFunded (x.post.escrow id) = everFunded (x.pre.escrow id) + x.funding id := by
  obtain ⟨s, i, o, s'⟩ := x
  dsimp only at h hs ⊢
  cases i with
  | drift move => simp [step_drift h, Step.funding]
  | invoke env call =>
    cases (step_invoke h).row id with
    | same hsame hother =>
      have hzero : Step.funding id ⟨s, .invoke env call, o, s'⟩ = 0 := by
        unfold Step.funding
        split
        · next hinput =>
          obtain ⟨-, rfl⟩ : _ ∧ call = _ := by simpa using hinput
          simpa [Call.escrowId] using hother
        · rfl
      simp [hsame, hzero]
    | opened hrow hnew hkind hstatus =>
      have hnone := hs.fresh hnew
      simp [hrow, hnone, everFunded, hstatus, Step.funding, hkind]
    | changed hold hchange hpost => simpa [hpost, hold] using hchange.everFunded o

/-- A funding is accepted from the buyer before the expiration. -/
theorem step_fund_early (h : (machine contract).step x.pre x.input = .ok (x.output, x.post))
    {env : Env contract} {caller : Address} {id : Nat}
    (hinput : x.input = .invoke env (.fundEscrow caller id)) :
    ∃ e, x.pre.escrow id = some e ∧ env.timestamp < e.expiration := by
  rw [hinput] at h
  cases (step_invoke h).row id with
  | same _ hother => simp [Call.escrowId] at hother
  | opened _ _ hkind => simp at hkind
  | changed hrow hchange _ =>
    cases hchange with
    | fund _ _ hearly => exact ⟨_, hrow, hearly⟩

/-- Every transfer out of the contract is a payment of an escrow or of fees. -/
theorem step_payments (hs : Proper x.pre)
    (h : (machine contract).step x.pre x.input = .ok (x.output, x.post)) {t : Transfer}
    (ht : t ∈ x.transfers) (hsender : t.sender = contract) :
    EscrowPayment x t ∨ FeePayment x t := by
  obtain ⟨s, i, o, s'⟩ := x
  dsimp only at h hs
  unfold Step.transfers at ht
  dsimp only at ht
  cases i with
  | drift move => simp [step_drift h] at ht
  | invoke env call =>
    cases step_invoke h with
    | configure same _ => simp [same.2.2.2.2] at ht
    | create _ _ _ _ _ _ _ _ hsame => simp [hsame] at ht
    | @change _ _ id e _ ts _ _ hrow hchange =>
      have ht' : t ∈ ts := by simpa [Tokens.foldl_move_transfers] using ht
      obtain ⟨hto, hauthority⟩ := hchange.authority (hs.records id e hrow) ht' hsender
      exact .inl ⟨env, call, id, e, rfl, hrow, hchange.transfer_token t ht', hto, hauthority⟩
    | withdraw hsigned hrole =>
      obtain rfl : t = _ := by simpa using ht
      exact .inr ⟨env, _, rfl, hrole, hsigned⟩

end Steps

/-- The life of every escrow over every run. -/
theorem run_lifecycle (tokens : Tokens) (is : List (Input contract)) :
    let m := machine contract
    let s := m.run (State.empty tokens) is
    (∀ id e, s.escrow id = some e → 0 ≤ e.amount ∧ e.amount ≤ e.originalAmount ∧
      (e.status = .completed ∨ e.status = .cancelled → e.amount = 0)) ∧
    (∀ js, s.Continues (m.run s js)) ∧
    (∀ id, m.tally (Step.funding id) (State.empty tokens) is ≤ 1) ∧
    ∀ x ∈ m.journal (State.empty tokens) is,
      (∀ id e, x.pre.escrow id = some e → ∃ e', x.post.escrow id = some e' ∧
        (e'.status = e.status ∨ assertTransitionAllowed e.status e'.status = .ok ())) ∧
      (∀ env caller id, x.input = .invoke env (.fundEscrow caller id) →
        ∃ e, x.pre.escrow id = some e ∧ env.timestamp < e.expiration) ∧
      ∀ t ∈ Step.transfers x, t.sender = contract → EscrowPayment x t ∨ FeePayment x t := by
  intro m s
  have hproper : Proper s := run_proper tokens is
  refine ⟨fun id e hrow => ?_, fun js => ?_, fun id => ?_, fun x hx => ?_⟩
  · have he := hproper.records id e hrow
    exact ⟨he.amount_nonneg, he.amount_le, he.settled⟩
  · refine Machine.run_relation (R := State.Continues) (fun s id e hrow => ⟨e, hrow, .refl e⟩) ?_
      hproper (fun _ _ _ _ hs h => step_proper hs h)
      (fun s i o s' hs h => step_continues (x := ⟨s, i, o, s'⟩) hs h) js
    intro a b c hab hbc id e hrow
    obtain ⟨e', hrow', he'⟩ := hab id e hrow
    obtain ⟨e'', hrow'', he''⟩ := hbc id e' hrow'
    exact ⟨e'', hrow'', he'.trans he''⟩
  · have hbalance := Machine.run_balance (m := m) (f := fun s => everFunded (s.escrow id))
      (w := Step.funding id) (empty_proper tokens) (fun _ _ _ _ hs h => step_proper hs h)
      (fun s i o s' hs h => step_funding (x := ⟨s, i, o, s'⟩) hs h id) is
    have hstart : everFunded ((State.empty tokens).escrow id) = 0 := rfl
    have hend : ∀ row, everFunded row ≤ 1 := by
      rintro (_ | e) <;> simp only [everFunded]
      · omega
      · split_ifs <;> omega
    have := hend ((m.run (State.empty tokens) is).escrow id)
    simp only [hstart] at hbalance
    omega
  · have hpre : Proper x.pre :=
      Machine.journal_invariant (empty_proper tokens) (fun _ _ _ _ hs h => step_proper hs h) hx
    have hstep := (Machine.journal_step hx).1
    refine ⟨fun id e hrow => ?_, fun env caller id => step_fund_early hstep,
      fun t => step_payments hpre hstep⟩
    obtain ⟨e', hrow', _, hstatus⟩ := step_row hpre hstep hrow
    exact ⟨e', hrow', hstatus⟩

end ChainVerse.EscrowContract
