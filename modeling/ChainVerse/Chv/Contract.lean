import ChainVerse.Framework.Machine
import ChainVerse.Host.Environment
import Mathlib.Logic.Function.Basic

namespace ChainVerse.CHVToken

inductive TokenError where
  | alreadyInitialized
  | notInitialized
  | invalidAmount
  | insufficientBalance
  | unauthorized
  | selfTransfer
  | supplyCapExceeded
  | noPendingAdmin
  | accountFrozen
  | insufficientAllowance
  | unsupportedStorageVersion
  | invalidMigration
  | invalidExpiry
  | adminTransferExpired
  deriving DecidableEq, Repr

abbrev Outcome (α : Type) := Except (Abort TokenError) α

def decimals : Nat := 7

def maxSupply : Int := 1000000000 * 10^decimals

def initialSupply : Int := 100000000 * 10^decimals

def currentStorageVersion : Nat := 1

structure Allowance where
  amount : Int
  /-- Zero where the allowance does not expire. -/
  expirationLedger : Nat
  deriving DecidableEq

/-- The contract's storage. An entry `Balance(account)` can lie under either kind of storage. -/
structure State where
  initialized : Bool
  admin : Option Address
  pendingAdmin : Option Address
  pendingAdminExpiry : Option Nat
  totalMinted : Option Int
  circulatingSupply : Option Int
  storageVersion : Option Nat
  instanceBalance : Address → Option Int
  persistentBalance : Address → Option Int
  /-- By owner and spender. -/
  allowance : Address → Address → Option Allowance
  frozen : Address → Option Bool

def State.empty : State where
  initialized := false
  admin := none
  pendingAdmin := none
  pendingAdminExpiry := none
  totalMinted := none
  circulatingSupply := none
  storageVersion := none
  instanceBalance := fun _ => none
  persistentBalance := fun _ => none
  allowance := fun _ _ => none
  frozen := fun _ => none

variable {contract : Address}

section Queries

def balance (s : State) (account : Address) : Int := (s.persistentBalance account).getD 0

def totalMinted (s : State) : Int := s.totalMinted.getD 0

def circulatingSupply (s : State) : Int := s.circulatingSupply.getD (totalMinted s)

def storageVersion (s : State) : Nat := s.storageVersion.getD 0

def isFrozen (s : State) (account : Address) : Bool := (s.frozen account).getD false

end Queries

section Helpers

/-- An `i128` result; overflow checks are on. -/
def trapping (x : Int) : Outcome Int := orRefuse (fitsI128 x) .overflow

def requireAdmin (env : Env contract) (s : State) : Outcome Unit := do
  let admin ← orRefuse s.admin (.err .notInitialized)
  requireAuth env admin

def setBalance (s : State) (account : Address) (amount : Int) : State :=
  { s with persistentBalance := Function.update s.persistentBalance account (some amount) }

def setAllowance (s : State) (owner spender : Address) (entry : Option Allowance) : State :=
  { s with
    allowance := Function.update s.allowance owner
      (Function.update (s.allowance owner) spender entry) }

/-- The last part of both transfers. -/
def moveBalance (s : State) (sender recipient : Address) (amount : Int) : Outcome State := do
  let senderBalance := balance s sender
  refuseIf (senderBalance < amount) (.err .insufficientBalance)
  let recipientBalance := balance s recipient
  let rest ← trapping (senderBalance - amount)
  let s := setBalance s sender rest
  let sum ← trapping (recipientBalance + amount)
  pure (setBalance s recipient sum)

end Helpers

section EntryPoints

/-- The treasury's balance is written to instance storage. -/
def initializeContract (env : Env contract) (s : State) (admin treasury : Address) :
    Outcome State := do
  refuseIf (s.initialized = true) (.err .alreadyInitialized)
  requireAuth env admin
  pure { s with
    admin := some admin
    initialized := true
    instanceBalance := Function.update s.instanceBalance treasury (some initialSupply)
    totalMinted := some initialSupply
    circulatingSupply := some initialSupply
    storageVersion := some currentStorageVersion }

def mint (env : Env contract) (s : State) (recipient : Address) (amount : Int) : Outcome State := do
  refuseIf (amount ≤ 0) (.err .invalidAmount)
  requireAdmin env s
  let minted := totalMinted s
  refuseIf (maxSupply < minted) (.err .supplyCapExceeded)
  let headroom ← trapping (maxSupply - minted)
  refuseIf (headroom < amount) (.err .supplyCapExceeded)
  let sum ← trapping (balance s recipient + amount)
  let newMinted ← trapping (minted + amount)
  let newSupply ← trapping (circulatingSupply s + amount)
  pure { setBalance s recipient sum with
    totalMinted := some newMinted
    circulatingSupply := some newSupply }

def transfer (env : Env contract) (s : State) (sender recipient : Address) (amount : Int) :
    Outcome State := do
  refuseIf (sender = recipient) (.err .selfTransfer)
  refuseIf (amount ≤ 0) (.err .invalidAmount)
  refuseIf (isFrozen s sender = true) (.err .accountFrozen)
  refuseIf (isFrozen s recipient = true) (.err .accountFrozen)
  requireAuth env sender
  moveBalance s sender recipient amount

def approve (env : Env contract) (s : State) (owner spender : Address) (amount : Int)
    (expirationLedger : Nat) : Outcome State := do
  refuseIf (amount < 0) (.err .invalidAmount)
  refuseIf (isFrozen s owner = true ∨ isFrozen s spender = true) (.err .accountFrozen)
  requireAuth env owner
  pure (setAllowance s owner spender (some { amount, expirationLedger }))

def transferFrom (env : Env contract) (s : State) (spender sender recipient : Address)
    (amount : Int) : Outcome State := do
  refuseIf (sender = recipient) (.err .selfTransfer)
  refuseIf (amount ≤ 0) (.err .invalidAmount)
  refuseIf (isFrozen s sender = true) (.err .accountFrozen)
  refuseIf (isFrozen s recipient = true ∨ isFrozen s spender = true) (.err .accountFrozen)
  requireAuth env spender
  let entry ← orRefuse (s.allowance sender spender) (.err .insufficientAllowance)
  refuseIf (entry.expirationLedger ≠ 0 ∧ entry.expirationLedger < env.sequence)
    (.err .insufficientAllowance)
  refuseIf (entry.amount < amount) (.err .insufficientAllowance)
  let left ← trapping (entry.amount - amount)
  let entry := if left = 0 then none else some { entry with amount := left }
  moveBalance (setAllowance s sender spender entry) sender recipient amount

def revokeAllowance (env : Env contract) (s : State) (owner spender : Address) :
    Outcome State := do
  requireAuth env owner
  pure (setAllowance s owner spender none)

def setFrozen (env : Env contract) (s : State) (account : Address) (frozen : Bool) :
    Outcome State := do
  requireAdmin env s
  pure { s with frozen := Function.update s.frozen account (some frozen) }

def freezeAccount (env : Env contract) (s : State) (account : Address) : Outcome State :=
  setFrozen env s account true

def unfreezeAccount (env : Env contract) (s : State) (account : Address) : Outcome State :=
  setFrozen env s account false

def burn (env : Env contract) (s : State) (holder : Address) (amount : Int) : Outcome State := do
  refuseIf (amount ≤ 0) (.err .invalidAmount)
  requireAuth env holder
  let held := balance s holder
  refuseIf (held < amount) (.err .insufficientBalance)
  let rest ← trapping (held - amount)
  let newSupply ← trapping (circulatingSupply s - amount)
  pure { setBalance s holder rest with circulatingSupply := some newSupply }

def migrate (env : Env contract) (s : State) (admin : Address) (sourceVersion : Nat)
    (snapshot : Int) : Outcome State := do
  let storedAdmin ← orRefuse s.admin (.err .notInitialized)
  refuseIf (storedAdmin ≠ admin) (.err .unauthorized)
  requireAuth env admin
  let currentVersion := storageVersion s
  refuseIf (sourceVersion ≠ currentVersion) (.err .unsupportedStorageVersion)
  if currentVersion = currentStorageVersion then do
    refuseIf (snapshot ≠ circulatingSupply s) (.err .invalidMigration)
    pure s
  else do
    refuseIf (snapshot < 0 ∨ totalMinted s < snapshot) (.err .invalidMigration)
    pure { s with
      circulatingSupply := some snapshot
      storageVersion := some currentStorageVersion }

def proposeAdmin (env : Env contract) (s : State) (currentAdmin newAdmin : Address)
    (expiresAt : Nat) : Outcome State := do
  let stored ← orRefuse s.admin (.err .unauthorized)
  refuseIf (stored ≠ currentAdmin) (.err .unauthorized)
  refuseIf (expiresAt ≤ env.timestamp) (.err .invalidExpiry)
  requireAuth env currentAdmin
  pure { s with pendingAdmin := some newAdmin, pendingAdminExpiry := some expiresAt }

def acceptAdmin (env : Env contract) (s : State) (newAdmin : Address) : Outcome State := do
  let pending ← orRefuse s.pendingAdmin (.err .noPendingAdmin)
  refuseIf (pending ≠ newAdmin) (.err .unauthorized)
  let expiresAt ← orRefuse s.pendingAdminExpiry (.err .noPendingAdmin)
  refuseIf (expiresAt ≤ env.timestamp) (.err .adminTransferExpired)
  requireAuth env newAdmin
  pure { s with admin := some newAdmin, pendingAdmin := none, pendingAdminExpiry := none }

def cancelAdmin (env : Env contract) (s : State) (currentAdmin : Address) : Outcome State := do
  let stored ← orRefuse s.admin (.err .unauthorized)
  refuseIf (stored ≠ currentAdmin) (.err .unauthorized)
  requireAuth env currentAdmin
  let _ ← orRefuse s.pendingAdmin (.err .noPendingAdmin)
  pure { s with pendingAdmin := none, pendingAdminExpiry := none }

end EntryPoints

/-- The state-changing entry points. -/
inductive Call where
  | initializeContract (admin treasury : Address)
  | mint (recipient : Address) (amount : Int)
  | transfer (sender recipient : Address) (amount : Int)
  | approve (owner spender : Address) (amount : Int) (expirationLedger : Nat)
  | transferFrom (spender sender recipient : Address) (amount : Int)
  | revokeAllowance (owner spender : Address)
  | freezeAccount (account : Address)
  | unfreezeAccount (account : Address)
  | burn (holder : Address) (amount : Int)
  | migrate (admin : Address) (sourceVersion : Nat) (snapshot : Int)
  | proposeAdmin (currentAdmin newAdmin : Address) (expiresAt : Nat)
  | acceptAdmin (newAdmin : Address)
  | cancelAdmin (currentAdmin : Address)

structure Input (contract : Address) where
  env : Env contract
  call : Call

/-- One entry point applied to the state. -/
def execute (env : Env contract) (s : State) : Call → Outcome State
  | .initializeContract admin treasury => initializeContract env s admin treasury
  | .mint recipient amount => mint env s recipient amount
  | .transfer sender recipient amount => transfer env s sender recipient amount
  | .approve owner spender amount expirationLedger =>
    approve env s owner spender amount expirationLedger
  | .transferFrom spender sender recipient amount =>
    transferFrom env s spender sender recipient amount
  | .revokeAllowance owner spender => revokeAllowance env s owner spender
  | .freezeAccount account => freezeAccount env s account
  | .unfreezeAccount account => unfreezeAccount env s account
  | .burn holder amount => burn env s holder amount
  | .migrate admin sourceVersion snapshot => migrate env s admin sourceVersion snapshot
  | .proposeAdmin currentAdmin newAdmin expiresAt =>
    proposeAdmin env s currentAdmin newAdmin expiresAt
  | .acceptAdmin newAdmin => acceptAdmin env s newAdmin
  | .cancelAdmin currentAdmin => cancelAdmin env s currentAdmin

def machine (contract : Address) : Machine State (Input contract) Unit (Abort TokenError) where
  step s i := ((), ·) <$> execute i.env s i.call

end ChainVerse.CHVToken
