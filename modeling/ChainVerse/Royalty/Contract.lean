import ChainVerse.Framework.Machine
import ChainVerse.Host.Environment
import Mathlib.Logic.Function.Basic

namespace ChainVerse.RoyaltySplits

/-- The basis points of 100%. -/
def totalBps : Nat := 10000
def maxRecipients : Nat := 20

inductive ContractError where
  | notInitialized
  | alreadyInitialized
  | notAdmin
  | manifestAlreadyExists
  | manifestNotFound
  | emptyManifest
  | tooManyRecipients
  | mismatchedLengths
  | invalidBps
  | invalidAmount
  | nothingToWithdraw
  | overflow
  deriving DecidableEq, Repr

abbrev Outcome (α : Type) := Except (Abort ContractError) α

/-- An immutable split: the recipients and, in the same order, their shares in basis points. -/
structure SplitManifest where
  recipients : List Address
  bps : List Nat
  createdAt : Nat
  deriving DecidableEq, Repr

structure AssetLedger where
  totalDistributed : Int
  totalWithdrawn : Int
  deriving DecidableEq, Repr

structure State where
  admin : Option Address
  manifest : Bytes32 → Option SplitManifest
  /-- `Balance(recipient, asset)`, by asset; zero where nothing is stored. -/
  balance : Symbol → Address → Int
  assetLedger : Symbol → Option AssetLedger

def State.empty : State where
  admin := none
  manifest := fun _ => none
  balance := fun _ _ => 0
  assetLedger := fun _ => none

variable {contract : Address}

section EntryPoints

def initializeContract (env : Env contract) (s : State) (admin : Address) : Outcome State := do
  refuseIf (s.admin.isSome = true) (.err .alreadyInitialized)
  requireAuth env admin
  pure { s with admin := some admin }

def requireAdmin (env : Env contract) (s : State) (caller : Address) : Outcome Unit := do
  let admin ← orRefuse s.admin (.err .notInitialized)
  refuseIf (caller ≠ admin) (.err .notAdmin)
  requireAuth env caller

/-- The loop over the shares of a new manifest: none is zero, and their sum fits. -/
def sumBps : Nat → List Nat → Outcome Nat
  | total, [] => pure total
  | total, share :: bps => do
    refuseIf (share = 0) (.err .invalidBps)
    let total ← orRefuse (fitsU 32 (total + share)) (.err .overflow)
    sumBps total bps

def createManifest (env : Env contract) (s : State) (admin : Address) (manifestId : Bytes32)
    (recipients : List Address) (bps : List Nat) : Outcome State := do
  requireAdmin env s admin
  refuseIf ((s.manifest manifestId).isSome = true) (.err .manifestAlreadyExists)
  refuseIf (recipients.length = 0) (.err .emptyManifest)
  refuseIf (maxRecipients < recipients.length) (.err .tooManyRecipients)
  refuseIf (recipients.length ≠ bps.length) (.err .mismatchedLengths)
  let total ← sumBps 0 bps
  refuseIf (total ≠ totalBps) (.err .invalidBps)
  pure { s with
    manifest := Function.update s.manifest manifestId (some ⟨recipients, bps, env.timestamp⟩) }

def getManifest (s : State) (manifestId : Bytes32) : Outcome SplitManifest :=
  orRefuse (s.manifest manifestId) (.err .manifestNotFound)

/-- The share of the next recipient, with `rest` after it; the last one absorbs the rounding
remainder. -/
def shareOf (amount distributedSoFar : Int) (rest : List Address) (bps : List Nat) : Outcome Int :=
  match rest, bps with
  | [], _ => orRefuse (fitsI128 (amount - distributedSoFar)) (.err .overflow)
  | _ :: _, share :: _ => do
    let raw ← orRefuse (fitsI128 (amount * share)) (.err .overflow)
    pure (raw.tdiv totalBps)
  | _ :: _, [] => .error (.err .manifestNotFound)

/-- The loop of `distribute`: the balances with every recipient credited in turn. -/
def creditShares (amount : Int) : Int → List Address → List Nat → (Address → Int) →
    Outcome (Address → Int)
  | _, [], _, balance => pure balance
  | distributedSoFar, recipient :: rest, bps, balance => do
    let share ← shareOf amount distributedSoFar rest bps
    let distributedSoFar ← orRefuse (fitsI128 (distributedSoFar + share)) (.err .overflow)
    let newBalance ← orRefuse (fitsI128 (balance recipient + share)) (.err .overflow)
    creditShares amount distributedSoFar rest bps.tail
      (Function.update balance recipient newBalance)

def getAssetLedger (s : State) (asset : Symbol) : AssetLedger :=
  (s.assetLedger asset).getD ⟨0, 0⟩

def distribute (env : Env contract) (s : State) (admin : Address) (manifestId : Bytes32)
    (asset : Symbol) (amount : Int) : Outcome State := do
  requireAdmin env s admin
  refuseIf (amount ≤ 0) (.err .invalidAmount)
  let manifest ← getManifest s manifestId
  let balance ← creditShares amount 0 manifest.recipients manifest.bps (s.balance asset)
  let ledger := getAssetLedger s asset
  let totalDistributed ← orRefuse (fitsI128 (ledger.totalDistributed + amount)) (.err .overflow)
  pure { s with
    balance := Function.update s.balance asset balance
    assetLedger := Function.update s.assetLedger asset
      (some { ledger with totalDistributed := totalDistributed }) }

/-- Pays the whole balance out and returns it. -/
def withdraw (env : Env contract) (s : State) (recipient : Address) (asset : Symbol) :
    Outcome (Int × State) := do
  requireAuth env recipient
  let balance := s.balance asset recipient
  refuseIf (balance ≤ 0) (.err .nothingToWithdraw)
  let ledger ← orRefuse (s.assetLedger asset) (.err .nothingToWithdraw)
  let totalWithdrawn ← orRefuse (fitsI128 (ledger.totalWithdrawn + balance)) (.err .overflow)
  pure (balance, { s with
    balance := Function.update s.balance asset (Function.update (s.balance asset) recipient 0)
    assetLedger := Function.update s.assetLedger asset
      (some { ledger with totalWithdrawn := totalWithdrawn }) })

/-- The subtraction is unchecked in the source, so it traps where it does not fit. -/
def getOutstandingLiability (s : State) (asset : Symbol) : Outcome Int :=
  let ledger := getAssetLedger s asset
  orRefuse (fitsI128 (ledger.totalDistributed - ledger.totalWithdrawn)) .overflow

end EntryPoints

/-- The state-changing entry points. -/
inductive Call where
  | initializeContract (admin : Address)
  | createManifest (admin : Address) (manifestId : Bytes32) (recipients : List Address)
      (bps : List Nat)
  | distribute (admin : Address) (manifestId : Bytes32) (asset : Symbol) (amount : Int)
  | withdraw (recipient : Address) (asset : Symbol)
  deriving DecidableEq, Repr

structure Input (contract : Address) where
  env : Env contract
  call : Call

/-- One entry point applied to the state; `withdraw` returns the amount. -/
def execute (env : Env contract) (s : State) : Call → Outcome (Option Int × State)
  | .initializeContract admin => (none, ·) <$> initializeContract env s admin
  | .createManifest admin manifestId recipients bps =>
    (none, ·) <$> createManifest env s admin manifestId recipients bps
  | .distribute admin manifestId asset amount =>
    (none, ·) <$> distribute env s admin manifestId asset amount
  | .withdraw recipient asset => do
      let (amount, s) ← withdraw env s recipient asset
      pure (some amount, s)

def machine (contract : Address) : Machine State (Input contract) (Option Int) (Abort ContractError)
    where
  step s i := execute i.env s i.call

end ChainVerse.RoyaltySplits
