import ChainVerse.Deposits.Contract
import ChainVerse.Framework.Accounts
import ChainVerse.Framework.Tables
import ChainVerse.Host.Issuance

namespace ChainVerse.LibraryDeposits

variable {contract : Address} {crypto : Crypto} {env : Env contract} {s s' : State}
  {es : List (Step contract)}

section Quantities

/-- What the contract still owes in `token` for a deposit. -/
def owed (token : Address) : Option Deposit → Int
  | some deposit =>
    if deposit.status = .locked ∧ deposit.token = token then deposit.remainingAmount else 0
  | none => 0

/-- The remaining amounts of the locked deposits in `token`. -/
def State.lockedAmounts (s : State) (token : Address) : Bytes32 → Int :=
  fun id => owed token (s.deposit id)

/-- The amount that an accepted call has transferred. -/
def transferred (e : Step contract) : Int :=
  ((e.post.tokens.transfers.drop e.pre.tokens.transfers.length).map Transfer.amount).sum

/-- What a call has charged to deposit `id`. -/
def charged (id : Bytes32) (e : Step contract) : Int :=
  match e.input.call with
  | .partialCharge _ named _ | .fullCharge _ named => if named = id then transferred e else 0
  | _ => 0

/-- What a call has refunded of deposit `id`. -/
def refunded (id : Bytes32) (e : Step contract) : Int :=
  match e.input.call with
  | .releaseDeposit _ named => if named = id then transferred e else 0
  | _ => 0

/-- The deposit that an accepted call is about. -/
def subject (e : Step contract) : Option Bytes32 :=
  match e.input.call with
  | .releaseDeposit _ id | .partialCharge _ id _ | .fullCharge _ id => some id
  | _ => e.output

/-- The bytes that a call has hashed into a deposit id. -/
def preimage (crypto : Crypto) (e : Step contract) : Option (List Byte) :=
  match e.input.call with
  | .lockDeposit patron loanId _ _ =>
    some (depositPreimage crypto (e.pre.depositCount + 1) e.input.env.timestamp loanId patron)
  | _ => none

/-- The bytes that the calls have hashed into deposit ids. -/
def hashed (crypto : Crypto) (es : List (Step contract)) : List (List Byte) :=
  es.filterMap (preimage crypto)

/-- The treasury that a call sets up. -/
def Call.treasury : Call → Option Address
  | .initializeContract _ treasury => some treasury
  | _ => none

/-- The contract is not its own treasury. -/
def TreasuryApart (es : List (Step contract)) : Prop :=
  ∀ e ∈ es, e.input.call.treasury ≠ some contract

instance : Decidable (TreasuryApart es) := inferInstanceAs (Decidable (∀ e ∈ es, _))

end Quantities

/-- What is always true of a stored deposit, with what has been charged and refunded of it. -/
structure Deposit.Proper (deposit : Deposit) (contract : Address) (charges refunds : Int) : Prop where
  apart : deposit.patron ≠ contract
  bounds : 0 ≤ deposit.remainingAmount ∧ deposit.remainingAmount ≤ deposit.originalAmount
  split : deposit.originalAmount = deposit.remainingAmount + charges + refunds
  closed : deposit.status ≠ .locked → deposit.remainingAmount = 0

/-- The contract's books after the calls `es`. -/
structure Solvent (crypto : Crypto) (s : State) (es : List (Step contract)) : Prop where
  treasury : s.treasury ≠ some contract
  rows : ∀ id deposit, s.deposit id = some deposit →
    deposit.Proper contract (es.map (charged id)).sum (es.map (refunded id)).sum
  untouched : ∀ id, s.deposit id = none →
    (es.map (charged id)).sum = 0 ∧ (es.map (refunded id)).sum = 0
  sound : ∀ token, Sound (s.lockedAmounts token)
  balance : ∀ token, s.tokens.balance token contract = holdings (s.lockedAmounts token)
  issued : Issued crypto.sha256 (fun id => s.deposit id ≠ none) s.depositCount
    (hashed crypto es)

section Books

theorem lockedAmounts_update (token : Address) (id : Bytes32) (deposit : Deposit)
    (h : s'.deposit = Function.update s.deposit id (some deposit)) :
    s'.lockedAmounts token =
      Function.update (s.lockedAmounts token) id (owed token (some deposit)) := by
  unfold State.lockedAmounts
  rw [h]
  exact Function.comp_update (owed token) s.deposit id (some deposit)

theorem solvent_empty {tokens : Tokens} (h : ∀ token, tokens.balance token contract = 0) :
    Solvent crypto (State.empty tokens) ([] : List (Step contract)) where
  treasury := by simp [State.empty]
  rows _ _ h := by cases h
  untouched _ _ := ⟨rfl, rfl⟩
  sound _ := sound_zero
  balance token := (h token).trans holdings_zero.symm
  issued := issued_empty.mono fun _ h => h rfl

theorem transferred_move {e : Step contract} {t : Transfer}
    (h : e.post.tokens = e.pre.tokens.move t) : transferred e = t.amount := by
  simp [transferred, h]

/-- A payment is charged to its deposit or refunded of it, and touches no other. -/
theorem Payment.amounts {id : Bytes32} {deposit : Deposit} {recipient : Address} {amount : Int}
    {status : DepositStatus} {e : Step contract}
    (h : Payment s id deposit e.input.call recipient amount status)
    (hamount : transferred e = amount) :
    charged id e + refunded id e = amount ∧
      ∀ x, x ≠ id → charged x e = 0 ∧ refunded x e = 0 := by
  unfold charged refunded
  generalize e.input.call = call at h
  cases h with
  | release => exact ⟨by simp [hamount], fun x hx => by simp [hx.symm]⟩
  | partialCharge => exact ⟨by simp [hamount], fun x hx => by simp [hx.symm]⟩
  | fullCharge => exact ⟨by simp [hamount], fun x hx => by simp [hx.symm]⟩

/-- What a payment takes is there, and a payment that closes a deposit takes all of it. -/
theorem Payment.bounds {id : Bytes32} {deposit : Deposit} {call : Call} {recipient : Address}
    {amount : Int} {status : DepositStatus}
    (h : Payment s id deposit call recipient amount status) (hremaining : 0 ≤ deposit.remainingAmount) :
    0 ≤ amount ∧ amount ≤ deposit.remainingAmount ∧
      (status ≠ .locked → deposit.remainingAmount - amount = 0) := by
  cases h with
  | release => exact ⟨hremaining, le_rfl, fun _ => Int.sub_self _⟩
  | partialCharge _ hpositive hcovered => exact ⟨hpositive.le, hcovered, fun h => absurd rfl h⟩
  | fullCharge => exact ⟨hremaining, le_rfl, fun _ => Int.sub_self _⟩

theorem Payment.recipient_ne {id : Bytes32} {deposit : Deposit} {call : Call} {recipient : Address}
    {amount : Int} {status : DepositStatus}
    (h : Payment s id deposit call recipient amount status) (hpatron : deposit.patron ≠ contract)
    (htreasury : s.treasury ≠ some contract) : recipient ≠ contract := by
  have howner : ∀ treasury, s.treasury = some treasury → treasury ≠ contract := by
    intro treasury htreasury' heq
    rw [htreasury', heq] at htreasury
    exact htreasury rfl
  cases h with
  | release => exact hpatron
  | partialCharge hstored => exact howner _ hstored
  | fullCharge hstored => exact howner _ hstored

theorem depositPreimage_start {count timestamp : Nat} {loanId : Bytes32} {patron : Address} :
    ∃ rest, depositPreimage crypto count timestamp loanId patron = beBytes 8 count ++ rest := by
  rw [depositPreimage, List.append_assoc, List.append_assoc]
  exact ⟨_, rfl⟩

theorem hashed_snoc (e : Step contract) :
    hashed crypto (es ++ [e]) = hashed crypto es ++ (preimage crypto e).toList := filterMap_snoc e

theorem hashed_left {fs : List (Step contract)}
    (h : CollisionFree crypto.sha256 (hashed crypto (es ++ fs))) :
    CollisionFree crypto.sha256 (hashed crypto es) := h.filterMap_left

/-- The id of the next deposit is not in use. -/
theorem Solvent.fresh (hs : Solvent crypto s es) {e : Step contract} {timestamp : Nat}
    {loanId : Bytes32} {patron : Address}
    (hfree : CollisionFree crypto.sha256 (hashed crypto (es ++ [e])))
    (hfits : s.depositCount + 1 < 2^64)
    (hpreimage : preimage crypto e =
      some (depositPreimage crypto (s.depositCount + 1) timestamp loanId patron)) :
    s.deposit (crypto.sha256
      (depositPreimage crypto (s.depositCount + 1) timestamp loanId patron)) = none := by
  obtain ⟨rest, hstart⟩ := @depositPreimage_start crypto (s.depositCount + 1) timestamp loanId patron
  rw [hashed_snoc, hpreimage] at hfree
  exact not_not.mp (hs.issued.fresh hstart hfits hfree)

theorem sum_snoc (f : Step contract → Int) (e : Step contract) :
    ((es ++ [e]).map f).sum = (es.map f).sum + f e := by
  simp

/-- A call that leaves the deposits keeps the books. -/
theorem Solvent.leave (hs : Solvent crypto s es) {e : Step contract}
    (htreasury : s'.treasury ≠ some contract) (hdeposit : s'.deposit = s.deposit)
    (hcount : s'.depositCount = s.depositCount)
    (hbalance : ∀ token, s'.tokens.balance token contract = s.tokens.balance token contract)
    (hamounts : ∀ id, charged id e = 0 ∧ refunded id e = 0) (hpreimage : preimage crypto e = none) :
    Solvent crypto s' (es ++ [e]) := by
  have hlocked : s'.lockedAmounts = s.lockedAmounts := by
    unfold State.lockedAmounts
    rw [hdeposit]
  refine ⟨htreasury, ?_, ?_, ?_, ?_, ?_⟩
  · intro id deposit hstored
    rw [hdeposit] at hstored
    rw [sum_snoc, sum_snoc, (hamounts id).1, (hamounts id).2, add_zero, add_zero]
    exact hs.rows id deposit hstored
  · intro id hnone
    rw [hdeposit] at hnone
    rw [sum_snoc, sum_snoc, (hamounts id).1, (hamounts id).2, add_zero, add_zero]
    exact hs.untouched id hnone
  · rw [hlocked]
    exact hs.sound
  · intro token
    rw [hlocked, hbalance]
    exact hs.balance token
  · rw [hashed_snoc, hpreimage, Option.toList_none, List.append_nil, hcount, hdeposit]
    exact hs.issued

/-- A new deposit adds what was transferred in for it. -/
theorem Solvent.lock (hs : Solvent crypto s es) {e : Step contract} {patron token : Address}
    {loanId id : Bytes32} {amount : Int} {timestamp : Nat} (hpositive : 0 < amount)
    (hpatron : patron ≠ contract) (hfits : s.depositCount + 1 < 2^64)
    (hpreimage : preimage crypto e =
      some (depositPreimage crypto (s.depositCount + 1) timestamp loanId patron))
    (hid : id = crypto.sha256
      (depositPreimage crypto (s.depositCount + 1) timestamp loanId patron))
    (hfree : CollisionFree crypto.sha256 (hashed crypto (es ++ [e])))
    (hamounts : ∀ id, charged id e = 0 ∧ refunded id e = 0) :
    Solvent crypto { s with
      depositCount := s.depositCount + 1
      deposit := Function.update s.deposit id (some ⟨loanId, patron, token, amount, amount, .locked⟩)
      tokens := s.tokens.move ⟨token, patron, contract, amount⟩ } (es ++ [e]) := by
  have hnone : s.deposit id = none := by
    rw [hid]
    exact hs.fresh hfree hfits hpreimage
  let deposit : Deposit := ⟨loanId, patron, token, amount, amount, .locked⟩
  let next : State := { s with
    depositCount := s.depositCount + 1
    deposit := Function.update s.deposit id (some deposit)
    tokens := s.tokens.move ⟨token, patron, contract, amount⟩ }
  have hlocked : ∀ k, next.lockedAmounts k =
      Function.update (s.lockedAmounts k) id (owed k (some deposit)) :=
    fun k => lockedAmounts_update k id deposit rfl
  have howed : ∀ k, owed k (some deposit) = if token = k then amount else 0 := by
    intro k
    simp [owed, deposit]
  refine ⟨hs.treasury, ?_, ?_, ?_, ?_, ?_⟩
  · intro x row hrow
    rw [sum_snoc, sum_snoc, (hamounts x).1, (hamounts x).2, add_zero, add_zero]
    refine forall_update_row hs.rows rfl ?_ x row hrow
    obtain ⟨hcharges, hrefunds⟩ := hs.untouched id hnone
    refine ⟨hpatron, ⟨hpositive.le, le_rfl⟩, ?_, fun h => absurd rfl h⟩
    rw [hcharges, hrefunds, add_zero, add_zero]
  · intro x hx
    have hne : x ≠ id := by
      intro heq
      simp [heq] at hx
    rw [sum_snoc, sum_snoc, (hamounts x).1, (hamounts x).2, add_zero, add_zero]
    exact hs.untouched x ((Function.update_of_ne hne _ _).symm.trans hx)
  · intro k
    rw [hlocked, howed]
    apply (hs.sound k).update
    split_ifs <;> omega
  · intro k
    have hold : s.lockedAmounts k id = 0 := by
      rw [State.lockedAmounts, hnone, owed]
    have hmoved : next.tokens.balance k contract =
        s.tokens.balance k contract + if token = k then amount else 0 := by
      simp [next, Tokens.move_balance, hpatron.symm, eq_comm]
    rw [hlocked, holdings_update (hs.sound k), hold, howed, ← hs.balance k, hmoved, Int.sub_zero]
  · obtain ⟨rest, hstart⟩ :=
      @depositPreimage_start crypto (s.depositCount + 1) timestamp loanId patron
    rw [hashed_snoc, hpreimage]
    exact hs.issued.insert hstart hfits hid

/-- A payment takes out of its deposit what is transferred away. -/
theorem Solvent.pay (hs : Solvent crypto s es) {e : Step contract} {id : Bytes32}
    {deposit : Deposit} {recipient : Address} {amount : Int} {status : DepositStatus}
    (hfound : s.deposit id = some deposit) (hstatus : deposit.status = .locked)
    (hpayment : Payment s id deposit e.input.call recipient amount status)
    (hmoved : e.post.tokens = e.pre.tokens.move ⟨deposit.token, contract, recipient, amount⟩)
    (hpreimage : preimage crypto e = none) :
    Solvent crypto { s with
      deposit := Function.update s.deposit id (some { deposit with
        remainingAmount := deposit.remainingAmount - amount, status := status })
      tokens := s.tokens.move ⟨deposit.token, contract, recipient, amount⟩ } (es ++ [e]) := by
  have hproper := hs.rows id deposit hfound
  obtain ⟨hnonneg, hcovered, hclosed⟩ := hpayment.bounds hproper.bounds.1
  obtain ⟨htaken, hothers⟩ := hpayment.amounts (transferred_move hmoved)
  have hrecipient := hpayment.recipient_ne hproper.apart hs.treasury
  let paid : Deposit :=
    { deposit with remainingAmount := deposit.remainingAmount - amount, status := status }
  let next : State := { s with
    deposit := Function.update s.deposit id (some paid)
    tokens := s.tokens.move ⟨deposit.token, contract, recipient, amount⟩ }
  have hlocked : ∀ k, next.lockedAmounts k =
      Function.update (s.lockedAmounts k) id (owed k (some paid)) :=
    fun k => lockedAmounts_update k id paid rfl
  have hbefore : ∀ k, s.lockedAmounts k id =
      if deposit.token = k then deposit.remainingAmount else 0 := by
    intro k
    simp [State.lockedAmounts, hfound, owed, hstatus]
  have hafter : ∀ k, owed k (some paid) =
      if deposit.token = k then deposit.remainingAmount - amount else 0 := by
    intro k
    by_cases hopen : status = .locked
    · simp [owed, paid, hopen]
    · have hzero := hclosed hopen
      simp [owed, paid, hopen, hzero]
  refine ⟨hs.treasury, ?_, ?_, ?_, ?_, ?_⟩
  · intro x row hrow
    rw [sum_snoc, sum_snoc]
    by_cases hx : x = id
    · dsimp only at hrow
      rw [hx, Function.update_self, Option.some.injEq] at hrow
      have hbounds := hproper.bounds
      have hsplit := hproper.split
      rw [hx, ← hrow]
      refine ⟨hproper.apart, ?_, ?_, hclosed⟩
      · dsimp only
        omega
      · dsimp only
        omega
    · rw [(hothers x hx).1, (hothers x hx).2, add_zero, add_zero]
      exact hs.rows x row ((Function.update_of_ne hx _ _).symm.trans hrow)
  · intro x hnone
    have hx : x ≠ id := by
      intro hx
      simp [hx] at hnone
    rw [sum_snoc, sum_snoc, (hothers x hx).1, (hothers x hx).2, add_zero, add_zero]
    exact hs.untouched x ((Function.update_of_ne hx _ _).symm.trans hnone)
  · intro k
    rw [hlocked, hafter]
    apply (hs.sound k).update
    split_ifs <;> omega
  · intro k
    have hmoved : next.tokens.balance k contract =
        s.tokens.balance k contract - if deposit.token = k then amount else 0 := by
      simp [next, Tokens.move_balance, hrecipient.symm, eq_comm]
    rw [hlocked, holdings_update (hs.sound k), hbefore, hafter, ← hs.balance k, hmoved]
    split_ifs <;> omega
  · rw [hashed_snoc, hpreimage, Option.toList_none, List.append_nil]
    exact hs.issued.rewrite hfound

/-- Every accepted call keeps the books. -/
theorem Effect.solvent {i : Input contract} {o : Option Bytes32}
    (h : Effect crypto i.env s i.call o s') (hs : Solvent crypto s es)
    (hfree : CollisionFree crypto.sha256 (hashed crypto (es ++ [(⟨s, i, o, s'⟩ : Step contract)])))
    (hapart : TreasuryApart (es ++ [⟨s, i, o, s'⟩])) :
    Solvent crypto s' (es ++ [⟨s, i, o, s'⟩]) := by
  obtain ⟨env, call⟩ := i
  cases h with
  | appoint =>
    have hne := hapart _ List.mem_concat_self
    exact hs.leave hne rfl rfl (fun _ => rfl) (fun _ => ⟨rfl, rfl⟩) rfl
  | lock hpositive hsigned hfits hhashed =>
    exact hs.lock hpositive (Env.signer_ne_contract hsigned) hfits rfl hhashed hfree
      fun _ => ⟨rfl, rfl⟩
  | pay hfound hlocked hpayment =>
    refine hs.pay hfound hlocked hpayment rfl ?_
    cases hpayment <;> rfl
  | elsewhere hsender hrecipient =>
    refine hs.leave hs.treasury rfl rfl ?_ (fun _ => ⟨rfl, rfl⟩) rfl
    intro token
    simp [Tokens.move_balance, hsender.symm, hrecipient.symm]

theorem TreasuryApart.left {fs : List (Step contract)} (h : TreasuryApart (es ++ fs)) :
    TreasuryApart es := fun e he => h e (List.mem_append_left _ he)

/-- A call writes the deposit that it is about, and no other. -/
theorem Effect.frame {i : Input contract} {o : Option Bytes32} {id : Bytes32}
    (h : Effect crypto i.env s i.call o s')
    (hother : subject (⟨s, i, o, s'⟩ : Step contract) ≠ some id) : s'.deposit id = s.deposit id := by
  obtain ⟨env, call⟩ := i
  cases h with
  | appoint => rfl
  | lock => exact Function.update_of_ne (fun heq => hother (congrArg some heq.symm)) _ _
  | @pay _ paid _ _ _ _ _ _ hpayment =>
    have hne : id ≠ paid := by
      intro heq
      apply hother
      rw [heq]
      cases hpayment <;> rfl
    exact Function.update_of_ne hne _ _
  | elsewhere => rfl

/-- The id that a call answers with was not in use. -/
theorem Effect.answers_fresh {i : Input contract} {o : Option Bytes32} {id : Bytes32}
    (h : Effect crypto i.env s i.call o s') (hs : Solvent crypto s es)
    (hfree : CollisionFree crypto.sha256 (hashed crypto (es ++ [(⟨s, i, o, s'⟩ : Step contract)])))
    (hanswer : o = some id) :
    s.deposit id = none := by
  obtain ⟨env, call⟩ := i
  cases h with
  | lock _ _ hfits hhashed =>
    rw [Option.some.injEq] at hanswer
    rw [← hanswer, hhashed]
    exact hs.fresh hfree hfits rfl
  | appoint => cases hanswer
  | pay => cases hanswer
  | elsewhere => cases hanswer

/-- A released or charged deposit stays as it is. -/
theorem Effect.keeps_closed {i : Input contract} {o : Option Bytes32} {id : Bytes32}
    {deposit : Deposit} (h : Effect crypto i.env s i.call o s') (hs : Solvent crypto s es)
    (hfree : CollisionFree crypto.sha256 (hashed crypto (es ++ [(⟨s, i, o, s'⟩ : Step contract)])))
    (hstored : s.deposit id = some deposit)
    (hclosed : deposit.status ≠ .locked) : s'.deposit id = some deposit := by
  obtain ⟨env, call⟩ := i
  cases h with
  | appoint => exact hstored
  | lock _ _ hfits hhashed =>
    have hnone := hs.fresh hfree hfits rfl
    rw [← hhashed] at hnone
    exact update_keeps_row hnone hstored
  | pay hfound hlocked =>
    exact update_keeps_unless (q := fun row => row.status ≠ .locked) hfound (not_not.mpr hlocked)
      hstored hclosed
  | elsewhere => exact hstored

/-- From solvent books on, the books stay solvent, closed deposits stay as they are, and new deposits
take unused ids. -/
theorem run_keeps_books (hs : Solvent crypto s es) (is : List (Input contract))
    (hfree : CollisionFree crypto.sha256
      (hashed crypto (es ++ (machine contract crypto).journal s is)))
    (hapart : TreasuryApart (es ++ (machine contract crypto).journal s is)) :
    Solvent crypto ((machine contract crypto).run s is)
      (es ++ (machine contract crypto).journal s is) ∧
    (∀ id deposit, s.deposit id = some deposit → deposit.status ≠ .locked →
      ((machine contract crypto).run s is).deposit id = some deposit) ∧
    ∀ e ∈ (machine contract crypto).journal s is, ∀ id, e.output = some id →
      e.pre.deposit id = none := by
  let P (t : State) (fs : List (Step contract)) : Prop :=
    CollisionFree crypto.sha256 (hashed crypto (es ++ fs)) → TreasuryApart (es ++ fs) →
      Solvent crypto t (es ++ fs) ∧
      (∀ id deposit, s.deposit id = some deposit → deposit.status ≠ .locked →
        t.deposit id = some deposit) ∧
      ∀ e ∈ fs, ∀ id, e.output = some id → e.pre.deposit id = none
  have hstart : P s [] := by
    intro _ _
    rw [List.append_nil]
    exact ⟨hs, fun _ _ hstored _ => hstored, fun _ he => absurd he List.not_mem_nil⟩
  have hstep : ∀ fs t (i : Input contract) o t', P t fs →
      (machine contract crypto).step t i = .ok (o, t') → P t' (fs ++ [⟨t, i, o, t'⟩]) := by
    intro fs t i o t' ht h hfree hapart
    rw [← List.append_assoc] at hfree hapart ⊢
    obtain ⟨hsolvent, hclosed, hfresh⟩ := ht (hashed_left hfree) hapart.left
    have heffect := step_effect h
    refine ⟨heffect.solvent hsolvent hfree hapart, ?_, ?_⟩
    · intro id deposit hstored hstatus
      exact heffect.keeps_closed hsolvent hfree (hclosed id deposit hstored hstatus) hstatus
    · intro e he id hanswer
      rcases List.mem_append.mp he with hold | hnew
      · exact hfresh e hold id hanswer
      · obtain rfl := List.mem_singleton.mp hnew
        exact heffect.answers_fresh hsolvent hfree hanswer
  exact Machine.run_journal_invariant hstart hstep is hfree hapart

end Books

/-- The contract holds, in every token, exactly what it still owes for locked deposits; every deposit
is split into what remains, what was charged and what was refunded; closed deposits have nothing left
and stay as they are; and a call touches no deposit but its own. -/
theorem run_deposits_solvent {tokens : Tokens} (is : List (Input contract))
    (hempty : ∀ token, tokens.balance token contract = 0)
    (hfree : CollisionFree crypto.sha256
      (hashed crypto ((machine contract crypto).journal (State.empty tokens) is)))
    (hapart : TreasuryApart ((machine contract crypto).journal (State.empty tokens) is)) :
    let m := machine contract crypto
    let s₀ := State.empty tokens
    let s := m.run s₀ is
    (∀ token, {id | s.lockedAmounts token id ≠ 0}.Finite ∧
      s.tokens.balance token contract = ∑ᶠ id, s.lockedAmounts token id) ∧
    (∀ id deposit, s.deposit id = some deposit →
      0 ≤ deposit.remainingAmount ∧ deposit.remainingAmount ≤ deposit.originalAmount ∧
      deposit.originalAmount =
        deposit.remainingAmount + m.tally (charged id) s₀ is + m.tally (refunded id) s₀ is ∧
      (deposit.status ≠ .locked → deposit.remainingAmount = 0)) ∧
    (∀ earlier, earlier <+: is → ∀ id deposit, (m.run s₀ earlier).deposit id = some deposit →
      deposit.status ≠ .locked → s.deposit id = some deposit) ∧
    (∀ e ∈ m.journal s₀ is, ∀ id, subject e ≠ some id → e.post.deposit id = e.pre.deposit id) ∧
    ∀ e ∈ m.journal s₀ is, ∀ id, e.output = some id → e.pre.deposit id = none := by
  intro m s₀ s
  have hstart : Solvent crypto s₀ ([] : List (Step contract)) := solvent_empty hempty
  obtain ⟨hs, _, hfresh⟩ := run_keeps_books hstart is hfree hapart
  refine ⟨?_, ?_, ?_, ?_, hfresh⟩
  · intro token
    exact ⟨(hs.sound token).finite, hs.balance token⟩
  · intro id deposit hstored
    have hproper := hs.rows id deposit hstored
    exact ⟨hproper.bounds.1, hproper.bounds.2, hproper.split, hproper.closed⟩
  · intro earlier hprefix id deposit hstored hclosed
    obtain ⟨later, rfl⟩ := hprefix
    rw [m.journal_append] at hfree hapart
    obtain ⟨hearlier, _⟩ := run_keeps_books hstart earlier (hashed_left hfree) hapart.left
    obtain ⟨_, hkept, _⟩ := run_keeps_books hearlier later hfree hapart
    show (m.run s₀ (earlier ++ later)).deposit id = some deposit
    rw [m.run_append]
    exact hkept id deposit hstored hclosed
  · intro e he id hother
    exact (step_effect (Machine.journal_step he).1).frame hother

section Samples

/-- The XDR of an account address as a host value, and the SHA-256 digests of two preimages. -/
def sampleXdr (account : Address) : List Byte :=
  [0, 0, 0, 18, 0, 0, 0, 0, 0, 0, 0, 0] ++ beBytes 32 account.key

def sampleIds : Bytes32 × Bytes32 :=
  (0x09e60bed7a45509094df281912e43fa89df88cea25a2c26816b9154fed77edcd,
    0x6c0d3f7981608cbae3614cd9452e21a3ee6cf78c6b12bcb2aeaac08a10b36170)

def sampleCrypto : Crypto where
  sha256 p :=
    if p = beBytes 8 1 ++ beBytes 8 10 ++ bytes32 5 ++ sampleXdr ⟨3⟩ then sampleIds.1
    else if p = beBytes 8 2 ++ beBytes 8 20 ++ bytes32 6 ++ sampleXdr ⟨4⟩ then sampleIds.2 else 0
  addressXdr := sampleXdr

/-- Books in which everybody but the contract holds 100. -/
def sampleTokens : Tokens := ⟨fun _ holder => if holder = ⟨0⟩ then 0 else 100, []⟩

def sampleCalls : List (Input ⟨0⟩) :=
  [⟨.sample, .initializeContract ⟨1⟩ ⟨2⟩⟩, ⟨.sample, .lockDeposit ⟨3⟩ 5 ⟨9⟩ 30⟩,
    ⟨.sampleLater, .lockDeposit ⟨4⟩ 6 ⟨9⟩ 20⟩, ⟨.sampleLater, .partialCharge ⟨1⟩ sampleIds.1 12⟩,
    ⟨.sampleLater, .fullCharge ⟨1⟩ sampleIds.2⟩]

theorem run_deposits_solvent_sample :
    let s := (machine ⟨0⟩ sampleCrypto).run (State.empty sampleTokens) sampleCalls
    s.tokens.balance ⟨9⟩ ⟨0⟩ = 18 ∧
      s.tokens.balance ⟨9⟩ ⟨0⟩ = ∑ᶠ id, s.lockedAmounts ⟨9⟩ id := by
  have hsolvent := @run_deposits_solvent ⟨0⟩ sampleCrypto sampleTokens sampleCalls (fun _ => rfl)
    (by decide +kernel) (by decide +kernel)
  exact ⟨by decide +kernel, (hsolvent.1 ⟨9⟩).2⟩

end Samples

end ChainVerse.LibraryDeposits
