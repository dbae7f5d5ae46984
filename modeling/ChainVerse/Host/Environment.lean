import ChainVerse.Framework.Guards
import Mathlib.Algebra.Order.Ring.Int

namespace ChainVerse

/-- An account or a contract of the network. -/
structure Address where
  key : Nat
  deriving DecidableEq, Repr

/-- `BytesN<32>`. -/
abbrev Bytes32 := BitVec 256

/-- A host symbol. -/
abbrev Symbol := String

/-- Why the host rolls a call back. -/
inductive Abort (E : Type) where
  /-- The function returned `Err`. -/
  | err (e : E)
  /-- `require_auth` trapped. -/
  | auth
  /-- An arithmetic check trapped. -/
  | overflow
  /-- A token transfer exceeded the sender's balance. -/
  | balance
  /-- Another contract trapped for a reason of its own. -/
  | refused
  /-- The contract itself panicked. -/
  | panicked
  deriving DecidableEq, Repr

/-- A transfer asked of a token contract. -/
structure Transfer where
  token : Address
  sender : Address
  recipient : Address
  amount : Int
  deriving DecidableEq, Repr

/-- What the host tells the contract deployed at `contract` about one invocation. The contract has no
`__check_auth` and never calls itself, so nobody can sign for its own address. -/
structure Env (contract : Address) where
  timestamp : Nat
  timestamp_lt : timestamp < 2^64
  sequence : Nat
  sequence_lt : sequence < 2^32
  /-- The addresses that authorized the invocation, each in as many of its frames as the call asks. -/
  signers : Address → Bool
  contract_not_signer : signers contract = false
  /-- The addresses that submitted a second authorization entry. An entry serves once in a frame, and
  `mock_all_auths` gives each address one. -/
  secondSigners : Address → Bool
  /-- Transfers a token contract turns down although the balance covers them. -/
  tokenRefuses : Transfer → Bool

section Arithmetic

/-- The value when it fits an unsigned integer of `w` bits. -/
def fitsU (w n : Nat) : Option Nat := if n < 2^w then some n else none

/-- `saturating_add` on `u64`. -/
def saturatingAdd (a b : Nat) : Nat := min (a + b) (2^64 - 1)

/-- The value when it fits an `i64`. -/
def fitsI64 (x : Int) : Option Int := if -2^63 ≤ x ∧ x < 2^63 then some x else none

/-- The value when it fits an `i128`. -/
def fitsI128 (x : Int) : Option Int := if -2^127 ≤ x ∧ x < 2^127 then some x else none

/-- `checked_sub` on an unsigned integer. -/
def checkedSub (a b : Nat) : Option Nat := if b ≤ a then some (a - b) else none

@[simp] theorem fitsU_eq_some {w n m : Nat} : fitsU w n = some m ↔ n < 2^w ∧ n = m := by
  simp [fitsU]

@[simp] theorem fitsI64_eq_some {x y : Int} :
    fitsI64 x = some y ↔ (-2^63 ≤ x ∧ x < 2^63) ∧ x = y := by
  simp [fitsI64]

@[simp] theorem fitsI128_eq_some {x y : Int} :
    fitsI128 x = some y ↔ (-2^127 ≤ x ∧ x < 2^127) ∧ x = y := by
  simp [fitsI128]

@[simp] theorem checkedSub_eq_some {a b c : Nat} : checkedSub a b = some c ↔ b ≤ a ∧ a - b = c := by
  simp [checkedSub]

end Arithmetic

variable {contract : Address} {E : Type}

/-- `address.require_auth()`. -/
def requireAuth (env : Env contract) (a : Address) : Except (Abort E) Unit :=
  refuseIf (env.signers a = false) .auth

@[simp] theorem requireAuth_eq_ok {env : Env contract} {a : Address} {u : Unit} :
    (requireAuth env a : Except (Abort E) Unit) = .ok u ↔ env.signers a = true := by
  simp [requireAuth]

@[simp] theorem requireAuth_eq_error {env : Env contract} {a : Address} {x : Abort E} :
    requireAuth env a = .error x ↔ env.signers a = false ∧ .auth = x := by
  simp [requireAuth]

/-- `address.require_auth()` in a frame that has authenticated the address before. -/
def requireAuthAgain (env : Env contract) (a : Address) : Except (Abort E) Unit :=
  refuseIf (env.secondSigners a = false) .auth

@[simp] theorem requireAuthAgain_eq_ok {env : Env contract} {a : Address} {u : Unit} :
    (requireAuthAgain env a : Except (Abort E) Unit) = .ok u ↔ env.secondSigners a = true := by
  simp [requireAuthAgain]

/-- `address.require_auth()` in a frame that has authenticated `earlier` before, which may be the same
address. -/
def requireAuthAfter (env : Env contract) (earlier a : Address) : Except (Abort E) Unit := do
  requireAuth env a
  if a = earlier then requireAuthAgain env a else pure ()

@[simp] theorem requireAuthAfter_eq_ok {env : Env contract} {earlier a : Address} {u : Unit} :
    (requireAuthAfter env earlier a : Except (Abort E) Unit) = .ok u ↔
      env.signers a = true ∧ (a = earlier → env.secondSigners a = true) := by
  unfold requireAuthAfter
  split_ifs with hsame <;> simp [hsame]

theorem Env.signer_ne_contract {env : Env contract} {a : Address} (h : env.signers a = true) :
    a ≠ contract := by
  rintro rfl
  simp [env.contract_not_signer] at h

/-- An invocation at time `t` that everybody but the contract has signed, twice. -/
def Env.signedByAll (contract : Address) (t : Nat) (h : t < 2^64) : Env contract where
  timestamp := t
  timestamp_lt := h
  sequence := 0
  sequence_lt := by decide
  signers a := a ≠ contract
  contract_not_signer := by simp
  secondSigners a := a ≠ contract
  tokenRefuses _ := false

/-- The same invocation at another ledger. -/
def Env.atLedger (env : Env contract) (n : Nat) (h : n < 2^32) : Env contract :=
  { env with sequence := n, sequence_lt := h }

/-- Two invocations of the contract `⟨0⟩`, one after the other. -/
def Env.sample : Env ⟨0⟩ := .signedByAll ⟨0⟩ 10 (by decide)
def Env.sampleLater : Env ⟨0⟩ := .signedByAll ⟨0⟩ 20 (by decide)

end ChainVerse
