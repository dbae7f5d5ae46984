import ChainVerse.Framework.Machine
import ChainVerse.Host.Issuance
import ChainVerse.Host.Tokens

namespace ChainVerse.EscrowVault

inductive VaultError where
  | notFound
  | notPending
  | unauthorized
  | alreadyVoted
  | emptyApprovers
  | duplicateApprover
  | invalidAmount
  | alreadyInitialized
  | notInitialized
  | conflictOfInterest
  | notVoted
  | invalidThreshold
  | thresholdExceedsApprovers
  deriving DecidableEq, Repr

abbrev Outcome (α : Type) := Except (Abort VaultError) α

inductive VaultStatus where
  | pending
  | released
  | cancelled
  deriving DecidableEq, Repr

structure Vault where
  depositor : Address
  recipient : Address
  token : Address
  amount : Int
  approvers : List Address
  approvals : Nat
  threshold : Nat
  status : VaultStatus
  deriving DecidableEq

/-- The contract's storage, with the token books it moves. -/
structure State where
  admin : Option Address
  /-- Zero where nothing is stored. -/
  vaultCount : Nat
  vault : Bytes32 → Option Vault
  /-- By vault and approver. -/
  voted : Bytes32 × Address → Bool
  tokens : Tokens

/-- A freshly deployed contract next to the given token books. -/
def State.empty (tokens : Tokens) : State where
  admin := none
  vaultCount := 0
  vault := fun _ => none
  voted := fun _ => false
  tokens := tokens

variable {contract : Address}

section Helpers

/-- The two loops over all pairs of approvers. -/
def hasDuplicate : List Address → Bool
  | [] => false
  | addr :: rest => rest.contains addr || hasDuplicate rest

/-- Removes duplicate addresses, preserving first-seen order. -/
def deduplicate (list : List Address) : List Address :=
  list.foldl (fun result addr => if addr ∈ result then result else result ++ [addr]) []

/-- The bytes that a vault's id is the hash of. -/
def idInput (crypto : Crypto) (nonce timestamp : Nat) (depositor : Address) : List Byte :=
  beBytes 8 nonce ++ beBytes 8 timestamp ++ crypto.addressXdr depositor

def saveVault (s : State) (id : Bytes32) (vault : Vault) : State :=
  { s with vault := Function.update s.vault id (some vault) }

/-- The vault, when it is stored and still pending. -/
def pendingVault (s : State) (id : Bytes32) : Outcome Vault := do
  let vault ← orRefuse (s.vault id) (.err .notFound)
  refuseIf (vault.status ≠ .pending) (.err .notPending)
  pure vault

end Helpers

section EntryPoints

def setAdmin (env : Env contract) (s : State) (admin : Address) : Outcome State := do
  refuseIf (s.admin ≠ none) (.err .alreadyInitialized)
  requireAuth env admin
  pure { s with admin := some admin }

def createVault (crypto : Crypto) (env : Env contract) (s : State)
    (depositor recipient token : Address) (amount : Int) (approvers : List Address)
    (threshold : Nat) : Outcome (Bytes32 × State) := do
  refuseIf (approvers = []) (.err .emptyApprovers)
  refuseIf (hasDuplicate approvers = true) (.err .duplicateApprover)
  refuseIf (depositor ∈ approvers ∨ recipient ∈ approvers) (.err .conflictOfInterest)
  let uniqueApprovers := deduplicate approvers
  refuseIf (amount ≤ 0) (.err .invalidAmount)
  refuseIf (threshold = 0) (.err .invalidThreshold)
  refuseIf (uniqueApprovers.length < threshold) (.err .thresholdExceedsApprovers)
  requireAuth env depositor
  let tokens ← Tokens.transfer env s.tokens ⟨token, depositor, contract, amount⟩
  let nonce ← orRefuse (fitsU 64 (s.vaultCount + 1)) .overflow
  let id := crypto.sha256 (idInput crypto nonce env.timestamp depositor)
  let vault : Vault :=
    { depositor, recipient, token, amount, approvers := uniqueApprovers, approvals := 0, threshold,
      status := .pending }
  pure (id, { saveVault s id vault with tokens := tokens, vaultCount := nonce })

def approveVault (env : Env contract) (s : State) (id : Bytes32) (caller : Address) :
    Outcome State := do
  requireAuth env caller
  let vault ← pendingVault s id
  refuseIf (caller = vault.depositor ∨ caller = vault.recipient) (.err .conflictOfInterest)
  refuseIf (caller ∉ vault.approvers) (.err .unauthorized)
  refuseIf (s.voted (id, caller) = true) (.err .alreadyVoted)
  let s := { s with voted := Function.update s.voted (id, caller) true }
  let approvals ← orRefuse (fitsU 32 (vault.approvals + 1)) .overflow
  let vault := { vault with approvals := approvals }
  if vault.threshold ≤ vault.approvals then do
    let vault := { vault with status := .released }
    let tokens ← Tokens.transfer env s.tokens ⟨vault.token, contract, vault.recipient, vault.amount⟩
    pure { saveVault s id vault with tokens := tokens }
  else pure (saveVault s id vault)

def revokeApproval (env : Env contract) (s : State) (id : Bytes32) (caller : Address) :
    Outcome State := do
  requireAuth env caller
  let vault ← pendingVault s id
  refuseIf (s.voted (id, caller) = false) (.err .notVoted)
  let s := { s with voted := Function.update s.voted (id, caller) false }
  pure (saveVault s id { vault with approvals := vault.approvals - 1 })

def emergencyCancel (env : Env contract) (s : State) (id : Bytes32) : Outcome State := do
  let admin ← orRefuse s.admin (.err .notInitialized)
  requireAuth env admin
  let vault ← pendingVault s id
  let s := saveVault s id { vault with status := .cancelled }
  let tokens ← Tokens.transfer env s.tokens ⟨vault.token, contract, vault.depositor, vault.amount⟩
  pure { s with tokens := tokens }

end EntryPoints

/-- The state-changing entry points, and the transfers by others that move the token books without the
contract. -/
inductive Call where
  | setAdmin (admin : Address)
  | createVault (depositor recipient token : Address) (amount : Int) (approvers : List Address)
      (threshold : Nat)
  | approveVault (id : Bytes32) (caller : Address)
  | revokeApproval (id : Bytes32) (caller : Address)
  | emergencyCancel (id : Bytes32)
  | transferElsewhere (transfer : Transfer)
  deriving DecidableEq

structure Input (contract : Address) where
  env : Env contract
  call : Call

/-- What an entry point returns. -/
inductive Answer where
  | done
  | created (id : Bytes32)
  deriving DecidableEq, Repr

/-- One entry point applied to the state. -/
def execute (crypto : Crypto) (env : Env contract) (s : State) : Call → Outcome (Answer × State)
  | .setAdmin admin => (.done, ·) <$> setAdmin env s admin
  | .createVault depositor recipient token amount approvers threshold =>
    Prod.map .created id <$>
      createVault crypto env s depositor recipient token amount approvers threshold
  | .approveVault id caller => (.done, ·) <$> approveVault env s id caller
  | .revokeApproval id caller => (.done, ·) <$> revokeApproval env s id caller
  | .emergencyCancel id => (.done, ·) <$> emergencyCancel env s id
  | .transferElsewhere t => do
    refuseIf (t.sender = contract) .refused
    let tokens ← Tokens.transfer env s.tokens t
    pure (.done, { s with tokens := tokens })

def machine (contract : Address) (crypto : Crypto) :
    Machine State (Input contract) Answer (Abort VaultError) where
  step s i := execute crypto i.env s i.call

end ChainVerse.EscrowVault
