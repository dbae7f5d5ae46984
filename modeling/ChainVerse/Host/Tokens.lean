import ChainVerse.Host.Environment
import Mathlib.Algebra.BigOperators.Group.List.Basic
import Mathlib.Algebra.Order.BigOperators.Group.List
import Mathlib.Algebra.Order.Ring.Int
import Mathlib.Tactic.Ring

namespace ChainVerse

/-- The books of all token contracts: who holds how much of which token, and every transfer
made so far. -/
structure Tokens where
  balance : Address → Address → Int
  transfers : List Transfer

/-- One entry of the balances moved by `delta`. -/
def shift (b : Address → Address → Int) (token holder : Address) (delta : Int) :
    Address → Address → Int :=
  fun k h => if k = token ∧ h = holder then b k h + delta else b k h

namespace Tokens

/-- The books after a transfer of exactly the requested amount. -/
def move (l : Tokens) (t : Transfer) : Tokens where
  balance := shift (shift l.balance t.token t.sender (-t.amount)) t.token t.recipient t.amount
  transfers := l.transfers ++ [t]

/-- `token::Client::transfer` on an honest token contract. -/
def transfer {contract : Address} {E : Type} (env : Env contract) (l : Tokens) (t : Transfer) :
    Except (Abort E) Tokens := do
  refuseIf (env.tokenRefuses t = true ∨ t.amount < 0) .refused
  refuseIf (l.balance t.token t.sender < t.amount) .balance
  pure (l.move t)

variable {contract : Address} {E : Type} {env : Env contract} {l l' : Tokens} {t : Transfer}

theorem transfer_eq_ok : (transfer env l t : Except (Abort E) Tokens) = .ok l' ↔
    env.tokenRefuses t = false ∧ 0 ≤ t.amount ∧ t.amount ≤ l.balance t.token t.sender ∧
      l.move t = l' := by
  simp [transfer, and_assoc]

/-- The one way a transfer fails for lack of funds. -/
theorem transfer_eq_balance : (transfer env l t : Except (Abort E) Tokens) = .error .balance ↔
    env.tokenRefuses t = false ∧ 0 ≤ t.amount ∧ l.balance t.token t.sender < t.amount := by
  simp [transfer, and_assoc]

@[simp] theorem move_transfers (l : Tokens) (t : Transfer) :
    (l.move t).transfers = l.transfers ++ [t] := rfl

/-- A transfer moves the sender's balance down and the recipient's up, and no other. -/
theorem move_balance (l : Tokens) (t : Transfer) (k h : Address) :
    (l.move t).balance k h = l.balance k h -
      (if k = t.token ∧ h = t.sender then t.amount else 0) +
      (if k = t.token ∧ h = t.recipient then t.amount else 0) := by
  simp only [move, shift]
  split_ifs <;> omega

/-- The transfers from `holder` that are new in the books `l'`. -/
def newFrom (holder : Address) (l l' : Tokens) : List Transfer :=
  (l'.transfers.drop l.transfers.length).filter fun t => t.sender = holder

@[simp] theorem newFrom_self (holder : Address) (l : Tokens) : newFrom holder l l = [] := by
  simp [newFrom]

theorem newFrom_move (holder : Address) (l : Tokens) (t : Transfer) :
    newFrom holder l (l.move t) = if t.sender = holder then [t] else [] := by
  by_cases hsender : t.sender = holder <;> simp [newFrom, hsender]

/-- What a list of transfers takes from `holder`. -/
def outflow (token holder : Address) (ts : List Transfer) : Int :=
  (ts.map fun t => if token = t.token ∧ holder = t.sender then t.amount else 0).sum

/-- What a list of transfers brings to `holder`. -/
def inflow (token holder : Address) (ts : List Transfer) : Int :=
  (ts.map fun t => if token = t.token ∧ holder = t.recipient then t.amount else 0).sum

/-- What a list of transfers moves from one holder to another. -/
def paid (token sender recipient : Address) (ts : List Transfer) : Int :=
  (ts.map fun t =>
    if token = t.token ∧ sender = t.sender ∧ recipient = t.recipient then t.amount else 0).sum

/-- When a holder pays only two others, these share all that it spends. -/
theorem paid_add_paid {k h a b : Address} {ts : List Transfer} (hab : a ≠ b)
    (hts : ∀ t ∈ ts, t.sender = h → t.recipient = a ∨ t.recipient = b) :
    paid k h a ts + paid k h b ts = outflow k h ts := by
  induction ts with
  | nil => rfl
  | cons t ts ih =>
    have hrest := ih fun u hu => hts u (List.mem_cons_of_mem t hu)
    have hhead := hts t List.mem_cons_self
    simp only [paid, outflow, List.map_cons, List.sum_cons] at hrest ⊢
    have hone : (if k = t.token ∧ h = t.sender ∧ a = t.recipient then t.amount else 0) +
        (if k = t.token ∧ h = t.sender ∧ b = t.recipient then t.amount else 0) =
        if k = t.token ∧ h = t.sender then t.amount else 0 := by
      by_cases hout : k = t.token ∧ h = t.sender
      · rcases hhead hout.2.symm with hr | hr
        · simp [hout.1, hout.2, hr, hab.symm]
        · simp [hout.1, hout.2, hr, hab]
      · rw [if_neg (fun hc => hout ⟨hc.1, hc.2.1⟩), if_neg (fun hc => hout ⟨hc.1, hc.2.1⟩),
          if_neg hout, add_zero]
    omega

theorem outflow_append (k h : Address) (ts us : List Transfer) :
    outflow k h (ts ++ us) = outflow k h ts + outflow k h us := by
  simp [outflow]

theorem inflow_nonneg (k h : Address) {ts : List Transfer} (hts : ∀ t ∈ ts, 0 ≤ t.amount) :
    0 ≤ inflow k h ts := by
  refine List.sum_nonneg fun x hx => ?_
  obtain ⟨t, ht, rfl⟩ := List.mem_map.mp hx
  split_ifs
  · exact hts t ht
  · exact le_rfl

/-- Transfers in one token leave the balances in the others alone. -/
theorem outflow_other (k h : Address) {ts : List Transfer} (hts : ∀ t ∈ ts, t.token ≠ k) :
    outflow k h ts = 0 := by
  refine List.sum_eq_zero fun x hx => ?_
  obtain ⟨t, ht, rfl⟩ := List.mem_map.mp hx
  exact if_neg fun hk => hts t ht hk.1.symm

theorem inflow_other (k h : Address) {ts : List Transfer} (hts : ∀ t ∈ ts, t.token ≠ k) :
    inflow k h ts = 0 := by
  refine List.sum_eq_zero fun x hx => ?_
  obtain ⟨t, ht, rfl⟩ := List.mem_map.mp hx
  exact if_neg fun hk => hts t ht hk.1.symm

theorem foldl_move_balance (ts : List Transfer) (l : Tokens) (k h : Address) :
    (ts.foldl move l).balance k h = l.balance k h - outflow k h ts + inflow k h ts := by
  induction ts generalizing l with
  | nil => simp [outflow, inflow]
  | cons t ts ih =>
    rw [List.foldl_cons, ih, move_balance]
    simp only [outflow, inflow, List.map_cons, List.sum_cons]
    ring

theorem foldl_move_transfers (ts : List Transfer) (l : Tokens) :
    (ts.foldl move l).transfers = l.transfers ++ ts := by
  induction ts generalizing l with
  | nil => simp
  | cons t ts ih => rw [List.foldl_cons, ih, move_transfers, List.append_assoc, List.singleton_append]

end Tokens

end ChainVerse
