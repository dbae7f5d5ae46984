import ChainVerse.Host.Tokens
import ChainVerse.Framework.Machine
import Mathlib.Logic.Function.Basic

namespace ChainVerse.ChainverseCore

section Types

/-- No call of the contract sets `refunded`. -/
inductive EscrowStatus where
  | pending
  | completed
  | refunded
  | cancelled
  | expired
  deriving DecidableEq, Repr

structure EscrowRecord where
  id : Nat
  depositor : Address
  recipient : Address
  token : Address
  amount : Int
  status : EscrowStatus
  createdAt : Nat
  /-- When the escrow can be refunded; 0 means never. -/
  expiresAt : Nat
  deriving DecidableEq, Repr

structure Config where
  admin : Address
  protocolFee : Nat
  supportedTokens : List Address
  deriving DecidableEq, Repr

inductive ContractError where
  | unauthorized
  | alreadyInitialized
  | notInitialized
  | contractPaused
  | invalidAmount
  | unsupportedToken
  | escrowNotFound
  | invalidEscrowState
  | escrowNotExpired
  | invalidFee
  deriving DecidableEq, Repr

abbrev Outcome (α : Type) := Except (Abort ContractError) α

def evtEscrowCreated : Symbol := "ESC_NEW"
def evtEscrowReleased : Symbol := "ESC_REL"
def evtEscrowCancelled : Symbol := "ESC_CAN"
def evtConfigUpdated : Symbol := "CFG_UPD"
def evtAdminChanged : Symbol := "ADM_CHG"

structure Stats where
  total : Nat
  active : Nat
  completed : Nat
  deriving DecidableEq, Repr

/-- The storage of the contract, next to the token books. -/
structure State where
  config : Option Config
  paused : Bool
  nextId : Nat
  record : Nat → Option EscrowRecord
  buyerIndex : Address → List Nat
  sellerIndex : Address → List Nat
  eventCount : Symbol → Nat
  tokens : Tokens

def State.empty (tokens : Tokens) : State where
  config := none
  paused := false
  nextId := 0
  record := fun _ => none
  buyerIndex := fun _ => []
  sellerIndex := fun _ => []
  eventCount := fun _ => 0
  tokens := tokens

/-- A balance that somebody else has moved; nobody else takes tokens from the contract. -/
structure Drift (contract : Address) where
  token : Address
  holder : Address
  delta : Int
  contract_keeps : holder = contract → 0 ≤ delta

variable {contract : Address}

section Guards

def getAdmin (s : State) : Outcome Address := do
  let config ← orRefuse s.config (.err .notInitialized)
  pure config.admin

/-- The guard of every privileged function. -/
def onlyAdmin (env : Env contract) (s : State) (caller : Address) : Outcome Unit := do
  requireAuth env caller
  let admin ← getAdmin s
  refuseIf (caller ≠ admin) (.err .unauthorized)

def assertNotPaused (s : State) : Outcome Unit := refuseIf (s.paused = true) (.err .contractPaused)

def validateAmount (amount : Int) : Outcome Unit := refuseIf (amount ≤ 0) (.err .invalidAmount)

/-- A contract without a configuration supports no token. -/
def isTokenSupported (s : State) (token : Address) : Bool :=
  s.config.elim false fun config => token ∈ config.supportedTokens

def requireSupportedToken (s : State) (token : Address) : Outcome Unit :=
  refuseIf (isTokenSupported s token = false) (.err .unsupportedToken)

end Guards

section Storage

def load (s : State) (id : Nat) : Outcome EscrowRecord :=
  orRefuse (s.record id) (.err .escrowNotFound)

def save (s : State) (record : EscrowRecord) : State :=
  { s with record := Function.update s.record record.id (some record) }

def addToBuyerIndex (s : State) (buyer : Address) (id : Nat) : State :=
  { s with buyerIndex := Function.update s.buyerIndex buyer (s.buyerIndex buyer ++ [id]) }

def addToSellerIndex (s : State) (seller : Address) (id : Nat) : State :=
  { s with sellerIndex := Function.update s.sellerIndex seller (s.sellerIndex seller ++ [id]) }

/-- The number of times that `event` has been recorded. -/
def count (s : State) (event : Symbol) : Nat := s.eventCount event

def recordEvent (s : State) (event : Symbol) : Outcome State := do
  let next ← orRefuse (fitsU 64 (count s event + 1)) .overflow
  pure { s with eventCount := Function.update s.eventCount event next }

end Storage

end Types

variable {contract : Address}

section Escrows

def nextId (s : State) : Outcome (Nat × State) := do
  let next ← orRefuse (fitsU 64 (s.nextId + 1)) .overflow
  pure (s.nextId, { s with nextId := next })

/-- The tokens go to the contract before the record is made. -/
def create (env : Env contract) (s : State) (depositor recipient token : Address) (amount : Int)
    (expiresAt : Nat) : Outcome (Nat × State) := do
  requireAuth env depositor
  validateAmount amount
  requireSupportedToken s token
  let tokens ← s.tokens.transfer env ⟨token, depositor, contract, amount⟩
  let (id, s) ← nextId { s with tokens }
  let s := save s
    ⟨id, depositor, recipient, token, amount, .pending, env.timestamp, expiresAt⟩
  let s := addToBuyerIndex s depositor id
  let s := addToSellerIndex s recipient id
  pure (id, s)

/-- Pays the whole escrow to `payee` and closes it. -/
def payOut (env : Env contract) (s : State) (record : EscrowRecord) (payee : Address)
    (status : EscrowStatus) : Outcome State := do
  let tokens ← s.tokens.transfer env ⟨record.token, contract, payee, record.amount⟩
  pure (save { s with tokens } { record with status })

def release (env : Env contract) (s : State) (caller : Address) (id : Nat) : Outcome State := do
  requireAuth env caller
  let record ← load s id
  refuseIf (record.status ≠ .pending) (.err .invalidEscrowState)
  refuseIf (record.depositor ≠ caller) (.err .unauthorized)
  payOut env s record record.recipient .completed

def cancel (env : Env contract) (s : State) (caller : Address) (id : Nat) : Outcome State := do
  requireAuth env caller
  let record ← load s id
  refuseIf (record.status ≠ .pending) (.err .invalidEscrowState)
  refuseIf (record.depositor ≠ caller) (.err .unauthorized)
  payOut env s record record.depositor .cancelled

/-- As `cancel`, with the caller checked before the status. -/
def buyerCancel (env : Env contract) (s : State) (buyer : Address) (id : Nat) : Outcome State := do
  requireAuth env buyer
  let record ← load s id
  refuseIf (record.depositor ≠ buyer) (.err .unauthorized)
  refuseIf (record.status ≠ .pending) (.err .invalidEscrowState)
  payOut env s record record.depositor .cancelled

/-- Anyone may refund an escrow once it has expired. -/
def refundExpired (env : Env contract) (s : State) (id : Nat) : Outcome State := do
  let record ← load s id
  refuseIf (record.expiresAt = 0) (.err .invalidEscrowState)
  refuseIf (env.timestamp < record.expiresAt) (.err .escrowNotExpired)
  refuseIf (record.status ≠ .pending) (.err .invalidEscrowState)
  payOut env s record record.depositor .expired

end Escrows

section Queries

/-- The records of a slice of a list of ids. -/
def collectByIds (s : State) (ids : List Nat) (start limit : Nat) : List EscrowRecord :=
  let stop := min ids.length (saturatingAdd start limit)
  (List.range' start (stop - start)).filterMap fun i => ids[i]?.bind s.record

def getByBuyer (s : State) (buyer : Address) (start limit : Nat) : List EscrowRecord :=
  collectByIds s (s.buyerIndex buyer) start limit

def getBySeller (s : State) (seller : Address) (start limit : Nat) : List EscrowRecord :=
  collectByIds s (s.sellerIndex seller) start limit

def getActiveEscrows (s : State) : List EscrowRecord :=
  ((List.range s.nextId).filterMap s.record).filter fun record => record.status = .pending

/-- The two subtractions trap below zero. -/
def getStats (s : State) : Outcome Stats := do
  let total := count s evtEscrowCreated
  let released := count s evtEscrowReleased
  let cancelled := count s evtEscrowCancelled
  let unreleased ← orRefuse (checkedSub total released) .overflow
  let active ← orRefuse (checkedSub unreleased cancelled) .overflow
  pure ⟨total, active, released⟩

end Queries

section EntryPoints

def initializeContract (env : Env contract) (s : State) (admin : Address) (protocolFee : Nat)
    (supportedTokens : List Address) : Outcome State := do
  requireAuth env admin
  refuseIf (s.config.isSome = true) (.err .alreadyInitialized)
  pure { s with config := some ⟨admin, protocolFee, supportedTokens⟩ }

def pause (env : Env contract) (s : State) (caller : Address) : Outcome State := do
  onlyAdmin env s caller
  pure { s with paused := true }

def unpause (env : Env contract) (s : State) (caller : Address) : Outcome State := do
  onlyAdmin env s caller
  pure { s with paused := false }

def updateConfig (env : Env contract) (s : State) (caller : Address)
    (newProtocolFee : Option Nat) (newSupportedTokens : Option (List Address)) :
    Outcome State := do
  onlyAdmin env s caller
  let config ← orRefuse s.config (.err .notInitialized)
  refuseIf (newProtocolFee.any (10000 < ·) = true) (.err .invalidFee)
  recordEvent { s with config := some { config with
    protocolFee := newProtocolFee.getD config.protocolFee
    supportedTokens := newSupportedTokens.getD config.supportedTokens } } evtConfigUpdated

def transferAdmin (env : Env contract) (s : State) (caller newAdmin : Address) :
    Outcome State := do
  onlyAdmin env s caller
  let config ← orRefuse s.config (.err .notInitialized)
  recordEvent { s with config := some { config with admin := newAdmin } } evtAdminChanged

def createEscrow (env : Env contract) (s : State) (depositor recipient token : Address)
    (amount : Int) (expiresAt : Nat) : Outcome (Nat × State) := do
  assertNotPaused s
  let (id, s) ← create env s depositor recipient token amount expiresAt
  let s ← recordEvent s evtEscrowCreated
  pure (id, s)

def releaseEscrow (env : Env contract) (s : State) (caller : Address) (id : Nat) :
    Outcome State := do
  assertNotPaused s
  let s ← release env s caller id
  recordEvent s evtEscrowReleased

def cancelEscrow (env : Env contract) (s : State) (caller : Address) (id : Nat) :
    Outcome State := do
  assertNotPaused s
  let s ← cancel env s caller id
  recordEvent s evtEscrowCancelled

def buyerCancelEscrow (env : Env contract) (s : State) (buyer : Address) (id : Nat) :
    Outcome State := do
  assertNotPaused s
  let s ← buyerCancel env s buyer id
  recordEvent s evtEscrowCancelled

def refundExpiredEscrow (env : Env contract) (s : State) (id : Nat) : Outcome State := do
  assertNotPaused s
  let s ← refundExpired env s id
  recordEvent s evtEscrowCancelled

end EntryPoints

/-- The state-changing entry points. -/
inductive Call where
  | initializeContract (admin : Address) (protocolFee : Nat) (supportedTokens : List Address)
  | pause (caller : Address)
  | unpause (caller : Address)
  | updateConfig (caller : Address) (newProtocolFee : Option Nat)
      (newSupportedTokens : Option (List Address))
  | transferAdmin (caller newAdmin : Address)
  | createEscrow (depositor recipient token : Address) (amount : Int) (expiresAt : Nat)
  | releaseEscrow (caller : Address) (id : Nat)
  | cancelEscrow (caller : Address) (id : Nat)
  | buyerCancelEscrow (buyer : Address) (id : Nat)
  | refundExpiredEscrow (id : Nat)
  deriving DecidableEq, Repr

/-- What can happen next: a call into the contract, or tokens moving around it. -/
inductive Input (contract : Address) where
  | invoke (env : Env contract) (call : Call)
  | drift (move : Drift contract)

/-- One entry point applied to the state; `create_escrow` returns the new id. -/
def execute (env : Env contract) (s : State) : Call → Outcome (Option Nat × State)
  | .initializeContract admin protocolFee supportedTokens =>
      (none, ·) <$> initializeContract env s admin protocolFee supportedTokens
  | .pause caller => (none, ·) <$> pause env s caller
  | .unpause caller => (none, ·) <$> unpause env s caller
  | .updateConfig caller newProtocolFee newSupportedTokens =>
      (none, ·) <$> updateConfig env s caller newProtocolFee newSupportedTokens
  | .transferAdmin caller newAdmin => (none, ·) <$> transferAdmin env s caller newAdmin
  | .createEscrow depositor recipient token amount expiresAt => do
      let (id, s) ← createEscrow env s depositor recipient token amount expiresAt
      pure (some id, s)
  | .releaseEscrow caller id => (none, ·) <$> releaseEscrow env s caller id
  | .cancelEscrow caller id => (none, ·) <$> cancelEscrow env s caller id
  | .buyerCancelEscrow buyer id => (none, ·) <$> buyerCancelEscrow env s buyer id
  | .refundExpiredEscrow id => (none, ·) <$> refundExpiredEscrow env s id

/-- The contract at `contract` among tokens that others move too. -/
def machine (contract : Address) :
    Machine State (Input contract) (Option Nat) (Abort ContractError) where
  step s
    | .invoke env call => execute env s call
    | .drift move => .ok (none, { s with tokens := { s.tokens with
        balance := shift s.tokens.balance move.token move.holder move.delta } })

end ChainVerse.ChainverseCore
