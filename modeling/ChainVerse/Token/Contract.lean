import ChainVerse.Host.Environment
import ChainVerse.Framework.Machine
import Mathlib.Logic.Function.Basic

namespace ChainVerse.TokenContract

section Types

def maxSupply : Int := 1000000000 * 10^7

inductive TokenError where
  | alreadyInitialized
  | notInitialized
  | insufficientBalance
  | insufficientAllowance
  | allowanceNotFound
  | allowanceExpired
  | invalidAmount
  | unauthorized
  | royaltyBpsTooHigh
  | arithmeticOverflow
  | contractPaused
  | noPendingAdmin
  | supplyCapExceeded
  deriving DecidableEq, Repr

abbrev Outcome (α : Type) := Except (Abort TokenError) α

structure Allowance where
  amount : Int
  expiresAt : Option Nat
  deriving DecidableEq, Repr

structure RoyaltyConfig where
  recipient : Address
  bps : Nat
  deriving DecidableEq, Repr

/-- The storage of the contract. Balances are in persistent storage; `instanceBalance` is the place
where `migrateBalances` looks for those of an older version. An allowance is that of an owner to a
spender. -/
structure State where
  admin : Option Address
  totalSupply : Option Int
  initialized : Bool
  pendingAdmin : Option Address
  paused : Bool
  royalty : Option RoyaltyConfig
  balance : Address → Int
  instanceBalance : Address → Option Int
  allowance : Address × Address → Option Allowance

def State.empty : State where
  admin := none
  totalSupply := none
  initialized := false
  pendingAdmin := none
  paused := false
  royalty := none
  balance := fun _ => 0
  instanceBalance := fun _ => none
  allowance := fun _ => none

variable {contract : Address}

def requireAdmin (env : Env contract) (s : State) (admin : Address) : Outcome Unit := do
  let configured ← orRefuse s.admin (.err .notInitialized)
  refuseIf (configured ≠ admin) (.err .unauthorized)
  requireAuth env admin

def setBalance (s : State) (user : Address) (balance : Int) : State :=
  { s with balance := Function.update s.balance user balance }

def getRoyalty (s : State) : Option RoyaltyConfig := s.royalty

/-- An allowance holds through its last second. -/
def Allowance.expired (allowance : Allowance) (now : Nat) : Bool :=
  allowance.expiresAt.any (· < now)

end Types

variable {contract : Address}

section Transfers

/-- The royalty on an amount, and nothing when no royalty is configured. -/
def royaltyOn (s : State) (amount : Int) : Outcome Int :=
  match getRoyalty s with
  | some config => do
    let product ← orRefuse (fitsI128 (amount * config.bps)) (.err .arithmeticOverflow)
    pure (product / 10000)
  | none => pure 0

/-- The credit of the royalty, after the balances of the sender and the receiver are written. A
receiver that is the recipient of the royalty has been credited with all. -/
def payRoyalty (s : State) (receiver : Address) (royaltyAmount : Int) : Outcome State :=
  match getRoyalty s with
  | some config =>
    if 0 < royaltyAmount ∧ config.recipient ≠ receiver then do
      let after ← orRefuse (fitsI128 (s.balance config.recipient + royaltyAmount))
        (.err .arithmeticOverflow)
      pure (setBalance s config.recipient after)
    else pure s
  | none => pure s

def applyTransfer (s : State) (sender receiver : Address) (amount : Int) : Outcome State := do
  refuseIf (amount ≤ 0) (.err .invalidAmount)
  refuseIf (maxSupply < amount) (.err .supplyCapExceeded)
  refuseIf (sender = receiver) (.err .invalidAmount)
  refuseIf (s.balance sender < amount) (.err .insufficientBalance)
  let royaltyAmount ← royaltyOn s amount
  let proceeds ← orRefuse (fitsI128 (amount - royaltyAmount)) (.err .arithmeticOverflow)
  let recipient := (getRoyalty s).map (·.recipient)
  let senderAfter ← orRefuse (fitsI128 (s.balance sender - amount)) (.err .arithmeticOverflow)
  let credit := if recipient = some receiver then amount else proceeds
  let receiverAfter ← orRefuse (fitsI128 (s.balance receiver + credit)) (.err .arithmeticOverflow)
  let s := setBalance s sender senderAfter
  let s := setBalance s receiver receiverAfter
  payRoyalty s receiver royaltyAmount

end Transfers

section EntryPoints

def initializeContract (env : Env contract) (s : State) (admin : Address) (totalSupply : Int) :
    Outcome State := do
  refuseIf (s.initialized = true) (.err .alreadyInitialized)
  refuseIf (totalSupply ≤ 0) (.err .invalidAmount)
  refuseIf (maxSupply < totalSupply) (.err .supplyCapExceeded)
  requireAuth env admin
  let s := setBalance { s with admin := some admin, totalSupply := some totalSupply } admin totalSupply
  pure { s with paused := false, initialized := true }

def transfer (env : Env contract) (s : State) (sender receiver : Address) (amount : Int) :
    Outcome State := do
  refuseIf (s.paused = true) (.err .contractPaused)
  requireAuth env sender
  applyTransfer s sender receiver amount

def pause (env : Env contract) (s : State) (admin : Address) : Outcome State := do
  requireAdmin env s admin
  pure { s with paused := true }

def unpause (env : Env contract) (s : State) (admin : Address) : Outcome State := do
  requireAdmin env s admin
  pure { s with paused := false }

def proposeAdmin (env : Env contract) (s : State) (currentAdmin newAdmin : Address) :
    Outcome State := do
  requireAdmin env s currentAdmin
  pure { s with pendingAdmin := some newAdmin }

def acceptAdmin (env : Env contract) (s : State) (newAdmin : Address) : Outcome State := do
  let pending ← orRefuse s.pendingAdmin (.err .noPendingAdmin)
  refuseIf (pending ≠ newAdmin) (.err .unauthorized)
  requireAuth env newAdmin
  pure { s with admin := some newAdmin, pendingAdmin := none }

/-- Copies the instance balance of a holder that has one. -/
def migrateBalance (s : State) (holder : Address) : State :=
  match s.instanceBalance holder with
  | some balance => setBalance s holder balance
  | none => s

def migrateBalances (env : Env contract) (s : State) (admin : Address) (holders : List Address) :
    Outcome State := do
  requireAdmin env s admin
  pure (holders.foldl migrateBalance s)

def setRoyalty (env : Env contract) (s : State) (admin recipient : Address) (bps : Nat) :
    Outcome State := do
  let configured ← orRefuse s.admin (.err .notInitialized)
  refuseIf (configured ≠ admin) (.err .unauthorized)
  requireAuth env admin
  refuseIf (10000 < bps) (.err .royaltyBpsTooHigh)
  pure { s with royalty := some ⟨recipient, bps⟩ }

def approve (env : Env contract) (s : State) (owner spender : Address) (amount : Int)
    (expiresAt : Option Nat) : Outcome State := do
  refuseIf (amount ≤ 0) (.err .invalidAmount)
  refuseIf (maxSupply < amount) (.err .supplyCapExceeded)
  requireAuth env owner
  pure { s with allowance := Function.update s.allowance (owner, spender) (some ⟨amount, expiresAt⟩) }

def revokeAllowance (env : Env contract) (s : State) (owner spender : Address) : Outcome State := do
  requireAuth env owner
  pure { s with allowance := Function.update s.allowance (owner, spender) none }

/-- An allowance that is used up is removed. -/
def transferFrom (env : Env contract) (s : State) (spender sender receiver : Address)
    (amount : Int) : Outcome State := do
  refuseIf (s.paused = true) (.err .contractPaused)
  requireAuth env spender
  let allow ← orRefuse (s.allowance (sender, spender)) (.err .allowanceNotFound)
  refuseIf (allow.expired env.timestamp = true) (.err .allowanceExpired)
  refuseIf (allow.amount < amount) (.err .insufficientAllowance)
  let s ← applyTransfer s sender receiver amount
  let left ← orRefuse (fitsI128 (allow.amount - amount)) .overflow
  let rest := if left = 0 then none else some { allow with amount := left }
  pure { s with allowance := Function.update s.allowance (sender, spender) rest }

end EntryPoints

/-- The state-changing entry points. -/
inductive Call where
  | initializeContract (admin : Address) (totalSupply : Int)
  | transfer (sender receiver : Address) (amount : Int)
  | pause (admin : Address)
  | unpause (admin : Address)
  | proposeAdmin (currentAdmin newAdmin : Address)
  | acceptAdmin (newAdmin : Address)
  | migrateBalances (admin : Address) (holders : List Address)
  | setRoyalty (admin recipient : Address) (bps : Nat)
  | approve (owner spender : Address) (amount : Int) (expiresAt : Option Nat)
  | revokeAllowance (owner spender : Address)
  | transferFrom (spender sender receiver : Address) (amount : Int)
  deriving DecidableEq, Repr

structure Input (contract : Address) where
  env : Env contract
  call : Call

/-- One entry point applied to the state. -/
def execute (env : Env contract) (s : State) : Call → Outcome State
  | .initializeContract admin totalSupply => initializeContract env s admin totalSupply
  | .transfer sender receiver amount => transfer env s sender receiver amount
  | .pause admin => pause env s admin
  | .unpause admin => unpause env s admin
  | .proposeAdmin currentAdmin newAdmin => proposeAdmin env s currentAdmin newAdmin
  | .acceptAdmin newAdmin => acceptAdmin env s newAdmin
  | .migrateBalances admin holders => migrateBalances env s admin holders
  | .setRoyalty admin recipient bps => setRoyalty env s admin recipient bps
  | .approve owner spender amount expiresAt => approve env s owner spender amount expiresAt
  | .revokeAllowance owner spender => revokeAllowance env s owner spender
  | .transferFrom spender sender receiver amount => transferFrom env s spender sender receiver amount

def machine (contract : Address) : Machine State (Input contract) Unit (Abort TokenError) where
  step s i := ((), ·) <$> execute i.env s i.call

end ChainVerse.TokenContract
