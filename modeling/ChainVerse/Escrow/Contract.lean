import ChainVerse.Host.Tokens
import ChainVerse.Framework.Machine
import Mathlib.Logic.Function.Basic

namespace ChainVerse.EscrowContract

section Types

inductive EscrowStatus where
  | created
  | funded
  | completed
  | cancelled
  | disputed
  deriving DecidableEq, Repr

structure Escrow where
  buyer : Address
  seller : Address
  token : Address
  /-- What is still locked; partial releases lower it. -/
  amount : Int
  originalAmount : Int
  status : EscrowStatus
  expiration : Nat
  deriving DecidableEq, Repr

structure FeeRecord where
  escrowId : Nat
  token : Address
  amount : Int
  timestamp : Nat
  deriving DecidableEq, Repr

inductive EscrowError where
  | notFound
  | notPending
  | expired
  | unauthorized
  | tokenNotAllowed
  | notExpired
  | alreadyReleased
  | invalidAmount
  | invalidRecipient
  | invalidExpiration
  | alreadyDisputed
  | disputeResolutionNotImplemented
  | noFeesAvailable
  | contractPaused
  | invalidEscrowState
  | noArbiterConfigured
  | notDisputed
  | invalidAllocation
  deriving DecidableEq, Repr

abbrev Outcome (α : Type) := Except (Abort EscrowError) α

/-- The allowed status transitions, one row for each source status. -/
def assertTransitionAllowed (origin target : EscrowStatus) : Outcome Unit :=
  let allowed : List EscrowStatus := match origin with
    | .created => [.funded, .cancelled]
    | .funded => [.completed, .cancelled, .disputed]
    | .disputed => [.completed, .cancelled]
    | _ => []
  if target ∈ allowed then .ok () else .error (.err .invalidEscrowState)

/-- The contract's storage, with the token books it moves. A default stands where the source
reads with `unwrap_or`. -/
structure State where
  admin : Option Address
  arbiter : Option Address
  escrow : Nat → Option Escrow
  escrowCount : Nat
  totalVolume : Int
  whitelistedToken : Address → Bool
  protocolFees : Address → Int
  tokenIndex : Address → List Nat
  buyerIndex : Address → List Nat
  sellerIndex : Address → List Nat
  feeHistory : List FeeRecord
  protocolFeeBps : Option Nat
  tokens : Tokens

/-- A freshly deployed contract next to the given token books. -/
def State.empty (tokens : Tokens) : State where
  admin := none
  arbiter := none
  escrow := fun _ => none
  escrowCount := 0
  totalVolume := 0
  whitelistedToken := fun _ => false
  protocolFees := fun _ => 0
  tokenIndex := fun _ => []
  buyerIndex := fun _ => []
  sellerIndex := fun _ => []
  feeHistory := []
  protocolFeeBps := none
  tokens := tokens

def defaultProtocolFeeBps : Nat := 100

variable {contract : Address}

/-- Checks that `admin` is the configured admin and authorized the call. -/
def requireAdminAddr (env : Env contract) (s : State) (admin : Address) : Outcome Unit := do
  let current ← orRefuse s.admin (.err .unauthorized)
  refuseIf (current ≠ admin) (.err .unauthorized)
  requireAuth env admin

def saveEscrow (s : State) (id : Nat) (escrow : Escrow) : State :=
  { s with escrow := Function.update s.escrow id (some escrow) }

def loadEscrow (s : State) (id : Nat) : Option Escrow := s.escrow id

def nextEscrowId (s : State) : Outcome (Nat × State) := do
  let next ← orRefuse (fitsU 64 (s.escrowCount + 1)) .overflow
  pure (next, { s with escrowCount := next })

def addToTotalVolume (s : State) (amount : Int) : Outcome State := do
  let volume ← orRefuse (fitsI128 (s.totalVolume + amount)) .overflow
  pure { s with totalVolume := volume }

def accumulateProtocolFee (s : State) (token : Address) (fee : Int) : Outcome State := do
  let total ← orRefuse (fitsI128 (s.protocolFees token + fee)) .overflow
  pure { s with protocolFees := Function.update s.protocolFees token total }

/-- The caller has compared `fee` with the accrued fees; the panic repeats the check. -/
def decrementProtocolFee (s : State) (token : Address) (fee : Int) : Outcome State := do
  refuseIf (s.protocolFees token < fee) .panicked
  pure { s with
    protocolFees := Function.update s.protocolFees token (s.protocolFees token - fee) }

def appendToTokenIndex (s : State) (token : Address) (escrowId : Nat) : State :=
  { s with tokenIndex := Function.update s.tokenIndex token (s.tokenIndex token ++ [escrowId]) }

def appendToBuyerIndex (s : State) (buyer : Address) (escrowId : Nat) : State :=
  { s with buyerIndex := Function.update s.buyerIndex buyer (s.buyerIndex buyer ++ [escrowId]) }

def appendToSellerIndex (s : State) (seller : Address) (escrowId : Nat) : State :=
  { s with
    sellerIndex := Function.update s.sellerIndex seller (s.sellerIndex seller ++ [escrowId]) }

def getProtocolFeeBps (s : State) : Nat := s.protocolFeeBps.getD defaultProtocolFeeBps

def appendFeeRecord (s : State) (record : FeeRecord) : State :=
  { s with feeHistory := s.feeHistory ++ [record] }

end Types

variable {contract : Address}

/-- Creates an unfunded escrow record; tokens are deposited by `fundEscrow`. -/
def createEscrow (env : Env contract) (s : State) (buyer seller token : Address) (amount : Int)
    (expiration : Nat) : Outcome (Nat × State) := do
  refuseIf (amount ≤ 0) (.err .invalidAmount)
  refuseIf (expiration ≤ env.timestamp) (.err .invalidExpiration)
  refuseIf (buyer = seller) (.err .invalidRecipient)
  requireAuth env buyer
  refuseIf (s.whitelistedToken token = false) (.err .tokenNotAllowed)
  let (escrowId, s) ← nextEscrowId s
  let escrow : Escrow :=
    { buyer, seller, token, amount, originalAmount := amount, status := .created, expiration }
  let s := saveEscrow s escrowId escrow
  let s := appendToTokenIndex s token escrowId
  let s := appendToBuyerIndex s buyer escrowId
  let s := appendToSellerIndex s seller escrowId
  pure (escrowId, s)

/-- Funds a created escrow; only its buyer may, before the expiration. -/
def fundEscrow (env : Env contract) (s : State) (caller : Address) (escrowId : Nat) :
    Outcome State := do
  requireAuth env caller
  let escrow ← orRefuse (loadEscrow s escrowId) (.err .notFound)
  refuseIf (caller ≠ escrow.buyer) (.err .unauthorized)
  refuseIf (escrow.status ≠ .created) (.err .invalidEscrowState)
  refuseIf (escrow.expiration ≤ env.timestamp) (.err .expired)
  let tokens ← s.tokens.transfer env ⟨escrow.token, escrow.buyer, contract, escrow.amount⟩
  let s := saveEscrow { s with tokens } escrowId { escrow with status := .funded }
  addToTotalVolume s escrow.amount

/-- The protocol fee `amount * fee_bps / 10_000`, truncated, and what is left for the payee;
the arithmetic is on `u128`. -/
def computeFeeAndPayout (amount : Int) (feeBps : Nat) : Outcome (Int × Int) := do
  refuseIf (amount < 0) (.err .invalidAmount)
  let product ← orRefuse (fitsU 128 (amount.toNat * feeBps)) (.err .invalidAmount)
  let fee := product / 10000
  let payout ← orRefuse (checkedSub amount.toNat fee) (.err .invalidAmount)
  pure (fee, payout)

def authorizeReleaser (env : Env contract) (s : State) (caller buyer : Address) :
    Outcome Unit := do
  requireAuth env caller
  refuseIf (caller ≠ buyer ∧ s.admin ≠ some caller) (.err .unauthorized)

/-- Releases all that is still locked in a funded escrow to the seller, less the fee. -/
def releaseEscrow (env : Env contract) (s : State) (caller : Address) (escrowId : Nat) :
    Outcome State := do
  let escrow ← orRefuse (loadEscrow s escrowId) (.err .notFound)
  authorizeReleaser env s caller escrow.buyer
  refuseIf (escrow.expiration ≤ env.timestamp) (.err .expired)
  refuseIf (escrow.status = .completed) (.err .alreadyReleased)
  refuseIf (escrow.status ≠ .funded) (.err .invalidEscrowState)
  let (feeAmount, sellerAmount) ← computeFeeAndPayout escrow.amount (getProtocolFeeBps s)
  let tokens ← s.tokens.transfer env ⟨escrow.token, contract, escrow.seller, sellerAmount⟩
  let s ← accumulateProtocolFee { s with tokens } escrow.token feeAmount
  let s := appendFeeRecord s ⟨escrowId, escrow.token, feeAmount, env.timestamp⟩
  pure (saveEscrow s escrowId { escrow with status := .completed, amount := 0 })

/-- Releases a part of the locked funds to the seller; the last part completes the escrow. -/
def partialRelease (env : Env contract) (s : State) (caller : Address) (escrowId : Nat)
    (releaseAmount : Int) : Outcome State := do
  refuseIf (releaseAmount ≤ 0) (.err .invalidAmount)
  let escrow ← orRefuse (loadEscrow s escrowId) (.err .notFound)
  refuseIf (escrow.status = .completed) (.err .alreadyReleased)
  refuseIf (escrow.status ≠ .funded) (.err .invalidEscrowState)
  authorizeReleaser env s caller escrow.buyer
  refuseIf (escrow.expiration ≤ env.timestamp) (.err .expired)
  refuseIf (escrow.amount < releaseAmount) (.err .invalidAmount)
  let (feeAmount, sellerAmount) ← computeFeeAndPayout releaseAmount (getProtocolFeeBps s)
  let tokens ← s.tokens.transfer env ⟨escrow.token, contract, escrow.seller, sellerAmount⟩
  let s ← accumulateProtocolFee { s with tokens } escrow.token feeAmount
  let s := appendFeeRecord s ⟨escrowId, escrow.token, feeAmount, env.timestamp⟩
  let left := escrow.amount - releaseAmount
  pure (saveEscrow s escrowId
    { escrow with amount := left, status := if left = 0 then .completed else escrow.status })

/-- Opens a dispute on a funded escrow; only its buyer may. -/
def dispute (env : Env contract) (s : State) (caller : Address) (escrowId : Nat) :
    Outcome State := do
  requireAuth env caller
  let escrow ← orRefuse (loadEscrow s escrowId) (.err .notFound)
  refuseIf (caller ≠ escrow.buyer) (.err .unauthorized)
  refuseIf (escrow.status = .disputed) (.err .alreadyDisputed)
  refuseIf (escrow.status ≠ .funded) (.err .invalidEscrowState)
  assertTransitionAllowed escrow.status .disputed
  pure (saveEscrow s escrowId { escrow with status := .disputed })

/-- The transfer of one side of a resolution; nothing is asked of the token for a zero part. -/
def payAllocation (env : Env contract) (tokens : Tokens) (token recipient : Address)
    (amount : Int) : Outcome Tokens :=
  if 0 < amount then tokens.transfer env ⟨token, contract, recipient, amount⟩ else pure tokens

/-- The fee of a resolution; nothing is written for a zero fee. -/
def accrueAllocation (s : State) (token : Address) (amount : Int) : Outcome State :=
  if 0 < amount then accumulateProtocolFee s token amount else pure s

/-- Allocates a disputed escrow between the buyer, the seller and a resolution fee. -/
def resolveDispute (env : Env contract) (s : State) (arbiter : Address) (escrowId : Nat)
    (buyerAmount sellerAmount feeAmount : Int) : Outcome State := do
  let configured ← orRefuse s.arbiter (.err .noArbiterConfigured)
  refuseIf (configured ≠ arbiter) (.err .unauthorized)
  requireAuth env arbiter
  let escrow ← orRefuse (loadEscrow s escrowId) (.err .notFound)
  refuseIf (escrow.status ≠ .disputed) (.err .notDisputed)
  assertTransitionAllowed escrow.status .completed
  refuseIf (buyerAmount < 0 ∨ sellerAmount < 0 ∨ feeAmount < 0) (.err .invalidAllocation)
  let paid ← orRefuse (fitsI128 (buyerAmount + sellerAmount)) (.err .invalidAllocation)
  let total ← orRefuse (fitsI128 (paid + feeAmount)) (.err .invalidAllocation)
  refuseIf (escrow.amount < total) (.err .invalidAllocation)
  let tokens ← payAllocation env s.tokens escrow.token escrow.buyer buyerAmount
  let tokens ← payAllocation env tokens escrow.token escrow.seller sellerAmount
  let s ← accrueAllocation { s with tokens } escrow.token feeAmount
  pure (saveEscrow s escrowId { escrow with status := .completed, amount := 0 })

/-- Refunds what is locked to the buyer once the expiration has passed. -/
def refundEscrow (env : Env contract) (s : State) (caller : Address) (escrowId : Nat) :
    Outcome State := do
  requireAuth env caller
  let escrow ← orRefuse (loadEscrow s escrowId) (.err .notFound)
  refuseIf (caller ≠ escrow.buyer) (.err .unauthorized)
  refuseIf (escrow.status ≠ .funded) (.err .invalidEscrowState)
  refuseIf (env.timestamp < escrow.expiration) (.err .notExpired)
  let tokens ← s.tokens.transfer env ⟨escrow.token, contract, escrow.buyer, escrow.amount⟩
  assertTransitionAllowed escrow.status .cancelled
  pure (saveEscrow { s with tokens } escrowId { escrow with status := .cancelled, amount := 0 })

/-- The first admin signs for itself; after that the current admin hands over. -/
def setAdmin (env : Env contract) (s : State) (admin : Address) : Outcome State := do
  match s.admin with
  | some currentAdmin => requireAuth env currentAdmin
  | none => requireAuth env admin
  pure { s with admin := some admin }

def whitelistToken (env : Env contract) (s : State) (admin token : Address) : Outcome State := do
  requireAdminAddr env s admin
  pure { s with whitelistedToken := Function.update s.whitelistedToken token true }

def setArbiter (env : Env contract) (s : State) (admin arbiter : Address) : Outcome State := do
  requireAdminAddr env s admin
  pure { s with arbiter := some arbiter }

def maxFeeBps : Nat := 5000

def setProtocolFeeBps (env : Env contract) (s : State) (admin : Address) (bps : Nat) :
    Outcome State := do
  requireAdminAddr env s admin
  refuseIf (maxFeeBps < bps) (.err .unauthorized)
  pure { s with protocolFeeBps := some bps }

/-- Pays accrued fees of `token` out; only the accrued pool is touched. -/
def withdrawFees (env : Env contract) (s : State) (caller token recipient : Address)
    (amount : Int) : Outcome State := do
  requireAdminAddr env s caller
  refuseIf (amount ≤ 0) (.err .invalidAmount)
  refuseIf (s.protocolFees token < amount) (.err .noFeesAvailable)
  let tokens ← s.tokens.transfer env ⟨token, contract, recipient, amount⟩
  decrementProtocolFee { s with tokens } token amount

/-- The state-changing entry points. The reason hash of a resolution is only put in an event. -/
inductive Call where
  | setAdmin (admin : Address)
  | whitelistToken (admin token : Address)
  | createEscrow (buyer seller token : Address) (amount : Int) (expiration : Nat)
  | fundEscrow (caller : Address) (escrowId : Nat)
  | releaseEscrow (caller : Address) (escrowId : Nat)
  | partialRelease (caller : Address) (escrowId : Nat) (amount : Int)
  | disputeEscrow (caller : Address) (escrowId : Nat)
  | setArbiter (admin arbiter : Address)
  | resolveDispute (arbiter : Address) (escrowId : Nat)
      (buyerAmount sellerAmount feeAmount : Int)
  | refundEscrow (caller : Address) (escrowId : Nat)
  | setProtocolFeeBps (admin : Address) (bps : Nat)
  | withdrawFees (caller token recipient : Address) (amount : Int)
  deriving DecidableEq, Repr

/-- A balance moved by somebody else; nobody else takes tokens from the contract. -/
structure Drift (contract : Address) where
  token : Address
  holder : Address
  delta : Int
  contract_keeps : holder = contract → 0 ≤ delta

/-- What can happen next: a call into the contract, or tokens moving around it. -/
inductive Input (contract : Address) where
  | invoke (env : Env contract) (call : Call)
  | drift (move : Drift contract)

/-- One entry point applied to the state; `create_escrow` returns the new id. -/
def execute (env : Env contract) (s : State) : Call → Outcome (Option Nat × State)
  | .setAdmin admin => (none, ·) <$> setAdmin env s admin
  | .whitelistToken admin token => (none, ·) <$> whitelistToken env s admin token
  | .createEscrow buyer seller token amount expiration => do
      let (id, s) ← createEscrow env s buyer seller token amount expiration
      pure (some id, s)
  | .fundEscrow caller escrowId => (none, ·) <$> fundEscrow env s caller escrowId
  | .releaseEscrow caller escrowId => (none, ·) <$> releaseEscrow env s caller escrowId
  | .partialRelease caller escrowId amount =>
      (none, ·) <$> partialRelease env s caller escrowId amount
  | .disputeEscrow caller escrowId => (none, ·) <$> dispute env s caller escrowId
  | .setArbiter admin arbiter => (none, ·) <$> setArbiter env s admin arbiter
  | .resolveDispute arbiter escrowId buyerAmount sellerAmount feeAmount =>
      (none, ·) <$> resolveDispute env s arbiter escrowId buyerAmount sellerAmount feeAmount
  | .refundEscrow caller escrowId => (none, ·) <$> refundEscrow env s caller escrowId
  | .setProtocolFeeBps admin bps => (none, ·) <$> setProtocolFeeBps env s admin bps
  | .withdrawFees caller token recipient amount =>
      (none, ·) <$> withdrawFees env s caller token recipient amount

/-- The contract at `contract` among tokens that others move too. -/
def machine (contract : Address) :
    Machine State (Input contract) (Option Nat) (Abort EscrowError) where
  step s
    | .invoke env call => execute env s call
    | .drift move => .ok (none, { s with tokens := { s.tokens with
        balance := shift s.tokens.balance move.token move.holder move.delta } })

/-- A buyer `⟨1⟩` with 1000 units of the token `⟨3⟩`, next to a contract `⟨0⟩` with none. -/
def sampleTokens : Tokens where
  balance token holder := if token = ⟨3⟩ ∧ holder = ⟨1⟩ then 1000 else 0
  transfers := []

/-- At time 10 the admin `⟨4⟩` and the arbiter `⟨5⟩` are set and the buyer opens and funds an escrow
of 1000 units for the seller `⟨2⟩`, with expiration 20. -/
def sampleFunding : List (Input ⟨0⟩) :=
  [.setAdmin ⟨4⟩, .whitelistToken ⟨4⟩ ⟨3⟩, .setArbiter ⟨4⟩ ⟨5⟩, .createEscrow ⟨1⟩ ⟨2⟩ ⟨3⟩ 1000 20,
    .fundEscrow ⟨1⟩ 1].map (.invoke .sample)

/-- A later invocation, still before the expiration of the sample escrow. -/
def sampleEnv : Env ⟨0⟩ := .signedByAll ⟨0⟩ 15 (by decide)

end ChainVerse.EscrowContract
