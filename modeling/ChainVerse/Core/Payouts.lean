import ChainVerse.Core.Books

namespace ChainVerse.ChainverseCore

variable {contract : Address} {env : Env contract} {s s' : State} {call : Call}

abbrev Step (contract : Address) := Entry State (Input contract) (Option Nat)

/-- The escrow that a line ends. -/
def Step.exits (e : Step contract) : Option Nat :=
  match e.input with
  | .invoke _ call => call.exits
  | .drift _ => none

/-- What a line takes from the contract. -/
def Step.payments (e : Step contract) : List Transfer :=
  Tokens.newFrom contract e.pre.tokens e.post.tokens

/-- The line that has paid an escrow, which was pending before it: to the recipient when the depositor
released it, and to the depositor otherwise. -/
def Step.PaysOut (e : Step contract) (r : EscrowRecord) : Prop :=
  e.pre.record r.id = some { r with status := .pending } ∧
    ((∃ env, e.input = .invoke env (.releaseEscrow r.depositor r.id) ∧
        env.signers r.depositor = true ∧
        e.payments = [⟨r.token, contract, r.recipient, r.amount⟩]) ∨
      (∀ env caller, e.input ≠ .invoke env (.releaseEscrow caller r.id)) ∧
        e.payments = [⟨r.token, contract, r.depositor, r.amount⟩])

/-- The lines that end an escrow. -/
def endings (es : List (Step contract)) (id : Nat) : List (Step contract) :=
  es.filter fun e => e.exits = some id

/-- An escrow is pending and has not been paid, or it has been paid in one line. -/
def Accounted (es : List (Step contract)) (id : Nat) (r : EscrowRecord) : Prop :=
  r.status = .pending ∧ endings es id = [] ∨
    r.status ≠ .pending ∧ ∃ e, endings es id = [e] ∧ e.PaysOut r

/-- The journal tells of every payment. -/
structure Paid (es : List (Step contract)) (s : State) : Prop where
  known : ∀ e ∈ es, ∀ id, e.exits = some id → id < s.nextId
  silent : ∀ e ∈ es, e.exits = none → e.payments = []
  accounted : ∀ id r, s.record id = some r → Accounted es id r

section Lines

variable {es : List (Step contract)} {e : Step contract} {id : Nat}

theorem endings_snoc : endings (es ++ [e]) id =
    endings es id ++ if e.exits = some id then [e] else [] := by
  unfold endings
  rw [List.filter_append]
  congr 1
  by_cases h : e.exits = some id
  · simp [h]
  · simp [h]

theorem endings_other (h : e.exits ≠ some id) : endings (es ++ [e]) id = endings es id := by
  rw [endings_snoc, if_neg h, List.append_nil]

theorem Paid.unended (h : Paid es s) (hid : s.nextId ≤ id) : endings es id = [] := by
  apply List.filter_eq_nil_iff.mpr
  intro e he hexits
  have hlt := h.known e he id (of_decide_eq_true hexits)
  omega

/-- A line that ends no escrow takes nothing. -/
theorem Paid.quiet (h : Paid es s) (hexits : e.exits = none) (hpayments : e.payments = [])
    (hnext : s.nextId ≤ s'.nextId)
    (hrecords : ∀ id r, s'.record id = some r →
      s.record id = some r ∨ s.nextId ≤ id ∧ r.status = .pending) : Paid (es ++ [e]) s' where
  known e' he' id hid := by
    rcases List.mem_append.mp he' with hold | hnew
    · exact Nat.lt_of_lt_of_le (h.known e' hold id hid) hnext
    · rw [List.mem_singleton.mp hnew, hexits] at hid
      cases hid
  silent e' he' hnone := by
    rcases List.mem_append.mp he' with hold | hnew
    · exact h.silent e' hold hnone
    · rw [List.mem_singleton.mp hnew]
      exact hpayments
  accounted id r hrow := by
    have hsame : endings (es ++ [e]) id = endings es id := by
      apply endings_other
      rw [hexits]
      exact (Option.some_ne_none id).symm
    unfold Accounted
    rw [hsame]
    rcases hrecords id r hrow with hold | ⟨hid, hpending⟩
    · exact h.accounted id r hold
    · exact .inl ⟨hpending, h.unended hid⟩

theorem payments_of_same (h : e.post.tokens.transfers = e.pre.tokens.transfers) : e.payments = [] := by
  unfold Step.payments Tokens.newFrom
  rw [h, List.drop_length, List.filter_nil]

/-- The one payment of a line that ends an escrow. -/
theorem Paid.ended {r : EscrowRecord} {payee : Address} {status : EscrowStatus} {o : Option Nat}
    (h : Paid es s) (hs : Books contract s) (hstored : s.record id = some r)
    (hpending : r.status = .pending) (hclosing : Closing env id r call payee status) :
    Paid (es ++ [⟨s, .invoke env call, o, s.closed contract r payee status⟩])
      (s.closed contract r payee status) := by
  let e : Step contract := ⟨s, .invoke env call, o, s.closed contract r payee status⟩
  obtain rfl := hs.named id r hstored
  have hexits : e.exits = some r.id := by
    cases hclosing <;> rfl
  have hpayments : e.payments = [⟨r.token, contract, payee, r.amount⟩] := by
    have hmove := Tokens.newFrom_move contract s.tokens ⟨r.token, contract, payee, r.amount⟩
    rwa [if_pos rfl] at hmove
  have hpaid : e.PaysOut { r with status } := by
    constructor
    · change s.record r.id = some { r with status := .pending }
      rw [hstored, ← hpending]
    · rw [hpayments]
      cases hclosing with
      | release signed => exact .inl ⟨env, rfl, signed, rfl⟩
      | cancel | buyerCancel | refundExpired =>
        refine .inr ⟨?_, rfl⟩
        intro env' caller hinput
        cases hinput
  refine ⟨?_, ?_, ?_⟩
  · intro e' he' id' hid'
    rcases List.mem_append.mp he' with hold | hnew
    · exact h.known e' hold id' hid'
    · rw [List.mem_singleton.mp hnew, hexits] at hid'
      cases hid'
      exact hs.contiguous.lt hstored
  · intro e' he' hnone
    rcases List.mem_append.mp he' with hold | hnew
    · exact h.silent e' hold hnone
    · rw [List.mem_singleton.mp hnew, hexits] at hnone
      cases hnone
  · intro id' row hrow
    rcases update_row_cases hrow with ⟨rfl, rfl⟩ | ⟨hne, hold⟩
    · have hunended : endings es r.id = [] := by
        rcases h.accounted r.id r hstored with ⟨_, hnone⟩ | ⟨hclosed, _⟩
        · exact hnone
        · exact absurd hpending hclosed
      refine .inr ⟨hclosing.not_pending, e, ?_, hpaid⟩
      rw [endings_snoc, hunended, if_pos hexits]
      rfl
    · unfold Accounted
      rw [endings_other]
      · exact h.accounted id' row hold
      · rw [hexits]
        intro heq
        exact hne (Option.some.inj heq).symm

end Lines

section Runs

variable {o : Option Nat} {i : Input contract}

theorem step_paid {es : List (Step contract)} (h : Paid es s) (hs : Books contract s)
    (hstep : (machine contract).step s i = .ok (o, s')) : Paid (es ++ [⟨s, i, o, s'⟩]) s' := by
  cases i with
  | drift move =>
    have hpost := step_drift hstep
    apply h.quiet rfl
    · apply payments_of_same
      rw [hpost]
    · rw [hpost]
    · rw [hpost]
      intro id r hrow
      exact .inl hrow
  | invoke env call =>
    cases step_invoke hstep with
    | configure kind same tokens =>
      refine h.quiet kind ?_ same.nextId.ge ?_
      · apply payments_of_same
        rw [tokens]
      · intro id r hrow
        rw [same.record] at hrow
        exact .inl hrow
    | @opened r signed id pending =>
      refine h.quiet rfl ?_ (Nat.le_succ _) ?_
      · have hmove := Tokens.newFrom_move contract s.tokens ⟨r.token, r.depositor, contract, r.amount⟩
        rwa [if_neg (Env.signer_ne_contract signed)] at hmove
      · intro id' row hrow
        rcases update_row_cases hrow with ⟨rfl, rfl⟩ | ⟨_, hold⟩
        · exact .inr ⟨le_rfl, pending⟩
        · exact .inl hold
    | closed stored pending sent closing => exact h.ended hs stored pending closing

/-- An escrow that has ended stays as it is. -/
theorem step_ended {id : Nat} {r : EscrowRecord} (hs : Books contract s)
    (hstep : (machine contract).step s i = .ok (o, s')) (hrow : s.record id = some r)
    (hended : r.status ≠ .pending) : s'.record id = some r := by
  cases i with
  | drift move =>
    rw [step_drift hstep]
    exact hrow
  | invoke env call =>
    cases step_invoke hstep with
    | configure kind same tokens =>
      rw [same.record]
      exact hrow
    | opened => exact update_keeps_row hs.contiguous.fresh hrow
    | @closed _ id' r' payee status stored pending =>
      have hkey : s.record r'.id = some r' := by
        rw [hs.named id' r' stored]
        exact stored
      exact update_keeps_unless (q := fun r => r.status ≠ .pending) hkey (not_not.mpr pending) hrow hended

variable {tokens : Tokens}

theorem run_paid (h : ∀ token, 0 ≤ tokens.balance token contract) (is : List (Input contract)) :
    Paid ((machine contract).journal (State.empty tokens) is)
      ((machine contract).run (State.empty tokens) is) := by
  have hboth := Machine.run_journal_invariant (m := machine contract)
    (P := fun s es => Books contract s ∧ Paid es s) ⟨books_empty h, by
      refine ⟨?_, ?_, ?_⟩
      · intro e he
        cases he
      · intro e he
        cases he
      · intro id r hrow
        cases hrow⟩
    (fun es s i o s' hs hstep => ⟨step_books hs.1 hstep, step_paid hs.2 hs.1 hstep⟩) is
  exact hboth.2

/-- The balance, the payments, the statistics and the indexes of the contract in every run. -/
theorem run_core_escrows (h : ∀ token, 0 ≤ tokens.balance token contract)
    (is : List (Input contract)) :
    let s := (machine contract).run (State.empty tokens) is
    let es := (machine contract).journal (State.empty tokens) is
    (∀ token, held s token ≤ s.tokens.balance token contract) ∧
    (∀ id, (∃ r, s.record id = some r) ↔ id < s.nextId) ∧
    (∀ id r, s.record id = some r → Accounted es id r ∧
      (r.status ≠ .pending → ∀ js, ((machine contract).run s js).record id = some r)) ∧
    (∀ e ∈ es, Step.payments e ≠ [] → ∃ id r, Step.exits e = some id ∧ s.record id = some r) ∧
    getStats s = .ok ⟨s.nextId, withStatus s .pending, withStatus s .completed⟩ ∧
    (∀ buyer, s.buyerIndex buyer = depositedBy s buyer) ∧
    ∀ seller, s.sellerIndex seller = destinedTo s seller := by
  intro s es
  have hs : Books contract s := run_books h is
  have hpaid : Paid es s := run_paid h is
  refine ⟨hs.covered, hs.contiguous, ?_, ?_, hs.getStats, hs.buyers, hs.sellers⟩
  · intro id r hrow
    refine ⟨hpaid.accounted id r hrow, ?_⟩
    intro hended js
    have hkept : Books contract ((machine contract).run s js) ∧
        ((machine contract).run s js).record id = some r := by
      apply @Machine.run_invariant _ _ _ _ _ fun s => Books contract s ∧ s.record id = some r
      · exact ⟨hs, hrow⟩
      · intro s i o s' hs hstep
        exact ⟨step_books hs.1 hstep, step_ended hs.1 hstep hs.2 hended⟩
    exact hkept.2
  · intro e he hpayments
    cases hexits : Step.exits e with
    | none => exact absurd (hpaid.silent e he hexits) hpayments
    | some id =>
      obtain ⟨r, hrow⟩ := (hs.contiguous id).mpr (hpaid.known e he id hexits)
      exact ⟨id, r, rfl, hrow⟩

/-- The depositor `⟨1⟩` with 1000 units of the token `⟨3⟩`. -/
def sampleTokens : Tokens where
  balance token holder := if token = ⟨3⟩ ∧ holder = ⟨1⟩ then 1000 else 0
  transfers := []

/-- Of three escrows one is released, one expires and one is pending. -/
def sampleEscrows : List (Input ⟨0⟩) :=
  [.initializeContract ⟨4⟩ 100 [⟨3⟩], .createEscrow ⟨1⟩ ⟨2⟩ ⟨3⟩ 100 0, .createEscrow ⟨1⟩ ⟨2⟩ ⟨3⟩ 200 15,
      .createEscrow ⟨1⟩ ⟨5⟩ ⟨3⟩ 300 0, .releaseEscrow ⟨1⟩ 0].map (.invoke .sample) ++
    [.invoke .sampleLater (.refundExpiredEscrow 1)]

theorem sampleEscrows_told :
    let s := (machine ⟨0⟩).run (State.empty sampleTokens) sampleEscrows
    getStats s = .ok ⟨3, 1, 1⟩ ∧ s.buyerIndex ⟨1⟩ = [0, 1, 2] ∧
      ∀ token, held s token ≤ s.tokens.balance token ⟨0⟩ :=
  ⟨by decide +kernel, by decide +kernel,
    (run_core_escrows (fun token => by simp [sampleTokens]) sampleEscrows).1⟩

end Runs

end ChainVerse.ChainverseCore
