import ChainVerse.Framework.Machine
import ChainVerse.Signing.Preimages
import Mathlib.Logic.Function.Basic

namespace ChainVerse.ScholarshipDisbursements

inductive ContractError where
  | notInitialized
  | alreadyInitialized
  | notAdmin
  | notAuthorizedCreator
  | invalidAmount
  | walletNotFound
  | walletKeyNotFound
  | challengeNotFound
  | challengeExpired
  | challengeAlreadyUsed
  | challengeWalletMismatch
  | invalidSignature
  | intentNotFound
  | intentConflict
  | alreadyExecuted
  | intentOnHold
  | walletMismatch
  | walletKeyMismatch
  | invalidChallengeTtl
  | overflow
  | alreadyCancelled
  deriving DecidableEq, Repr

abbrev Outcome (α : Type) := Except (Abort ContractError) α

/-- The host functions and the signature check that the contract calls. -/
structure Crypto extends Signing.Host where
  /-- Whether the key is a valid one and `verify_strict` accepts the signature of the message. -/
  verifyStrict : Bytes32 → List Byte → BitVec 512 → Bool

/-- A recipient's payout wallet; every `set_payout_wallet` starts a new epoch. -/
structure PayoutWallet where
  wallet : Address
  verified : Bool
  epoch : Nat
  updatedAt : Nat
  deriving DecidableEq, Repr

structure WalletChallenge where
  id : Nat
  recipient : Address
  wallet : Address
  expiresAt : Nat
  used : Bool
  createdAt : Nat
  deriving DecidableEq, Repr

inductive IntentStatus where
  | pending
  | executed
  | cancelled
  deriving DecidableEq, Repr

structure DisbursementIntent where
  id : Bytes32
  programId : Bytes32
  recipient : Address
  wallet : Address
  amount : Int
  installment : Nat
  walletEpoch : Nat
  createdAt : Nat
  createdBy : Address
  status : IntentStatus
  executedAt : Nat
  deriving DecidableEq, Repr

/-- Nobody is a creator and the counter is zero where nothing is stored. -/
structure State where
  admin : Option Address
  networkId : Option Bytes32
  creator : Address → Bool
  walletKey : Address → Option Bytes32
  walletBinding : Address → Option PayoutWallet
  challengeCounter : Nat
  challenge : Nat → Option WalletChallenge
  intent : Bytes32 → Option DisbursementIntent

def State.empty : State where
  admin := none
  networkId := none
  creator := fun _ => false
  walletKey := fun _ => none
  walletBinding := fun _ => none
  challengeCounter := 0
  challenge := fun _ => none
  intent := fun _ => none

variable {contract : Address}

def maxChallengeTtlSeconds : Nat := 86400

def intentDomainTag : List Byte := asciiBytes "ChainVerse.Scholarship.DisbursementIntent"

def walletProofDomainTag : List Byte := asciiBytes "ChainVerse.Scholarship.PayoutWallet"

section Helpers

def requireAdmin (env : Env contract) (s : State) (caller : Address) : Outcome Unit := do
  let admin ← orRefuse s.admin (.err .notInitialized)
  refuseIf (caller ≠ admin) (.err .notAdmin)
  requireAuth env caller

def isAuthorizedCreator (s : State) (creator : Address) : Bool := s.creator creator

def requireCreatorOrAdmin (env : Env contract) (s : State) (caller : Address) : Outcome Unit := do
  let admin ← orRefuse s.admin (.err .notInitialized)
  refuseIf (¬(caller = admin ∨ isAuthorizedCreator s caller = true)) (.err .notAuthorizedCreator)
  requireAuth env caller

def loadBinding (s : State) (recipient : Address) : Outcome PayoutWallet :=
  orRefuse (s.walletBinding recipient) (.err .walletNotFound)

def saveBinding (s : State) (recipient : Address) (binding : PayoutWallet) : State :=
  { s with walletBinding := Function.update s.walletBinding recipient (some binding) }

def loadChallenge (s : State) (challengeId : Nat) : Outcome WalletChallenge :=
  orRefuse (s.challenge challengeId) (.err .challengeNotFound)

def saveChallenge (s : State) (challengeId : Nat) (challenge : WalletChallenge) : State :=
  { s with challenge := Function.update s.challenge challengeId (some challenge) }

def saveIntent (s : State) (id : Bytes32) (intent : DisbursementIntent) : State :=
  { s with intent := Function.update s.intent id (some intent) }

@[simp] theorem saveIntent_intent (s : State) (id : Bytes32) (intent : DisbursementIntent) :
    (saveIntent s id intent).intent = Function.update s.intent id (some intent) := rfl

@[simp] theorem saveChallenge_challenge (s : State) (challengeId : Nat) (challenge : WalletChallenge) :
    (saveChallenge s challengeId challenge).challenge =
      Function.update s.challenge challengeId (some challenge) := rfl

@[simp] theorem saveBinding_walletBinding (s : State) (recipient : Address) (binding : PayoutWallet) :
    (saveBinding s recipient binding).walletBinding =
      Function.update s.walletBinding recipient (some binding) := rfl

def walletProofDomain (contract : Address) (s : State) : Outcome Signing.SigningDomain := do
  let networkId ← orRefuse s.networkId (.err .notInitialized)
  pure ⟨Signing.envelopeVersion, networkId, contract, .payoutWalletProof⟩

/-- The bytes that the body of a proof is the hash of. -/
def challengePreimage (crypto : Crypto) (challenge : WalletChallenge) : List Byte :=
  walletProofDomainTag ++ beBytes 8 challenge.id ++ crypto.addressXdr challenge.recipient ++
    crypto.addressXdr challenge.wallet ++ beBytes 8 challenge.expiresAt

def challengeBodyHash (crypto : Crypto) (challenge : WalletChallenge) : Bytes32 :=
  crypto.sha256 (challengePreimage crypto challenge)

/-- The digest that the wallet signs for a challenge. -/
def challengePayload (contract : Address) (crypto : Crypto) (s : State)
    (challenge : WalletChallenge) : Outcome Bytes32 := do
  let domain ← walletProofDomain contract s
  match Signing.signingPayload crypto.toHost domain (challengeBodyHash crypto challenge) with
  | .ok payload => pure payload
  | .error _ => .error (.err .invalidSignature)

def verifyEd25519 (crypto : Crypto) (pubkey payload : Bytes32) (signature : BitVec 512) :
    Outcome Unit :=
  refuseIf (crypto.verifyStrict pubkey (bytes32 payload) signature = false) (.err .invalidSignature)

/-- The bytes that an intent's key is the hash of. -/
def intentPreimage (crypto : Crypto) (programId : Bytes32) (recipient : Address)
    (installment : Nat) : List Byte :=
  intentDomainTag ++ bytes32 programId ++ crypto.addressXdr recipient ++ beBytes 4 installment

def deriveIntentId (crypto : Crypto) (programId : Bytes32) (recipient : Address)
    (installment : Nat) : Bytes32 :=
  crypto.sha256 (intentPreimage crypto programId recipient installment)

/-- Whether the intent waits and its wallet is the recipient's verified one, of the same epoch. -/
def isIntentExecutable (s : State) (intentId : Bytes32) : Bool :=
  match s.intent intentId with
  | some intent =>
    if intent.status = .pending then
      match loadBinding s intent.recipient with
      | .ok binding => binding.verified && decide (binding.epoch = intent.walletEpoch) &&
          decide (binding.wallet = intent.wallet)
      | .error _ => false
    else false
  | none => false

/-- The stored intent, as long as it is neither executed nor cancelled. -/
def loadPending (s : State) (intentId : Bytes32) : Outcome DisbursementIntent := do
  let intent ← orRefuse (s.intent intentId) (.err .intentNotFound)
  match intent.status with
  | .executed => .error (.err .alreadyExecuted)
  | .cancelled => .error (.err .alreadyCancelled)
  | .pending => pure intent

end Helpers

section EntryPoints

def initializeContract (env : Env contract) (s : State) (admin : Address) (networkId : Bytes32) :
    Outcome State := do
  refuseIf (s.admin.isSome = true) (.err .alreadyInitialized)
  requireAuth env admin
  pure { s with admin := some admin, networkId := some networkId }

def addCreator (env : Env contract) (s : State) (admin creator : Address) : Outcome State := do
  requireAdmin env s admin
  pure { s with creator := Function.update s.creator creator true }

def removeCreator (env : Env contract) (s : State) (admin creator : Address) : Outcome State := do
  requireAdmin env s admin
  pure { s with creator := Function.update s.creator creator false }

def registerWalletKey (env : Env contract) (s : State) (wallet : Address) (pubkey : Bytes32) :
    Outcome State := do
  requireAuth env wallet
  pure { s with walletKey := Function.update s.walletKey wallet (some pubkey) }

/-- Setting the same wallet again starts a new epoch too. -/
def setPayoutWallet (env : Env contract) (s : State) (recipient wallet : Address) :
    Outcome State := do
  requireAuth env recipient
  let old := s.walletBinding recipient
  let epoch ← orRefuse (fitsU 32 ((old.map PayoutWallet.epoch).getD 0 + 1)) (.err .overflow)
  pure (saveBinding s recipient
    { wallet := wallet, verified := false, epoch := epoch, updatedAt := env.timestamp })

def openWalletChallenge (env : Env contract) (s : State) (recipient wallet : Address)
    (ttlSeconds : Nat) : Outcome (Nat × State) := do
  requireAuth env recipient
  refuseIf (ttlSeconds = 0 ∨ ttlSeconds > maxChallengeTtlSeconds) (.err .invalidChallengeTtl)
  let binding ← loadBinding s recipient
  refuseIf (binding.wallet ≠ wallet) (.err .walletMismatch)
  let now := env.timestamp
  let expiresAt ← orRefuse (fitsU 64 (now + ttlSeconds)) (.err .overflow)
  let id := s.challengeCounter
  let next ← orRefuse (fitsU 64 (id + 1)) (.err .overflow)
  let s := { s with challengeCounter := next }
  pure (id, saveChallenge s id
    { id := id, recipient := recipient, wallet := wallet, expiresAt := expiresAt, used := false,
      createdAt := now })

/-- Anybody may relay the wallet's signature. Only the wallet's address is compared with the
recipient's current one, not the epoch. -/
def confirmWalletChallenge (env : Env contract) (crypto : Crypto) (s : State) (challengeId : Nat)
    (pubkey : Bytes32) (signature : BitVec 512) : Outcome State := do
  let challenge ← loadChallenge s challengeId
  refuseIf (challenge.used = true) (.err .challengeAlreadyUsed)
  refuseIf (env.timestamp ≥ challenge.expiresAt) (.err .challengeExpired)
  let binding ← loadBinding s challenge.recipient
  refuseIf (binding.wallet ≠ challenge.wallet) (.err .challengeWalletMismatch)
  let registered ← orRefuse (s.walletKey challenge.wallet) (.err .walletKeyNotFound)
  refuseIf (registered ≠ pubkey) (.err .walletKeyMismatch)
  let payload ← challengePayload contract crypto s challenge
  verifyEd25519 crypto pubkey payload signature
  let s := saveChallenge s challengeId { challenge with used := true }
  pure (saveBinding s challenge.recipient
    { binding with verified := true, updatedAt := env.timestamp })

/-- The same request again returns the stored intent's id and changes nothing. -/
def createIntent (env : Env contract) (crypto : Crypto) (s : State) (creator : Address)
    (programId : Bytes32) (recipient : Address) (amount : Int) (installment : Nat) :
    Outcome (Bytes32 × State) := do
  requireCreatorOrAdmin env s creator
  refuseIf (amount ≤ 0) (.err .invalidAmount)
  let binding ← loadBinding s recipient
  let id := deriveIntentId crypto programId recipient installment
  match s.intent id with
  | some existing =>
    refuseIf (¬(existing.programId = programId ∧ existing.recipient = recipient ∧
      existing.wallet = binding.wallet ∧ existing.amount = amount ∧
      existing.installment = installment)) (.err .intentConflict)
    pure (id, s)
  | none =>
    pure (id, saveIntent s id
      { id := id, programId := programId, recipient := recipient, wallet := binding.wallet,
        amount := amount, installment := installment, walletEpoch := binding.epoch,
        createdAt := env.timestamp, createdBy := creator, status := .pending, executedAt := 0 })

def recordExecution (env : Env contract) (s : State) (executor : Address) (intentId : Bytes32) :
    Outcome State := do
  requireCreatorOrAdmin env s executor
  let intent ← loadPending s intentId
  refuseIf (isIntentExecutable s intentId = false) (.err .intentOnHold)
  pure (saveIntent s intentId { intent with status := .executed, executedAt := env.timestamp })

def cancelIntent (env : Env contract) (s : State) (caller : Address) (intentId : Bytes32) :
    Outcome State := do
  requireCreatorOrAdmin env s caller
  let intent ← loadPending s intentId
  pure (saveIntent s intentId { intent with status := .cancelled })

end EntryPoints

/-- The state-changing entry points. -/
inductive Call where
  | initializeContract (admin : Address) (networkId : Bytes32)
  | addCreator (admin creator : Address)
  | removeCreator (admin creator : Address)
  | registerWalletKey (wallet : Address) (pubkey : Bytes32)
  | setPayoutWallet (recipient wallet : Address)
  | openWalletChallenge (recipient wallet : Address) (ttlSeconds : Nat)
  | confirmWalletChallenge (challengeId : Nat) (pubkey : Bytes32) (signature : BitVec 512)
  | createIntent (creator : Address) (programId : Bytes32) (recipient : Address) (amount : Int)
      (installment : Nat)
  | recordExecution (executor : Address) (intentId : Bytes32)
  | cancelIntent (caller : Address) (intentId : Bytes32)
  deriving DecidableEq, Repr

structure Input (contract : Address) where
  env : Env contract
  call : Call

/-- What an entry point returns. -/
inductive Answer where
  | done
  | challengeId (id : Nat)
  | intentId (id : Bytes32)
  deriving DecidableEq, Repr

/-- One entry point applied to the state. -/
def execute (crypto : Crypto) (env : Env contract) (s : State) : Call → Outcome (Answer × State)
  | .initializeContract admin networkId => (.done, ·) <$> initializeContract env s admin networkId
  | .addCreator admin creator => (.done, ·) <$> addCreator env s admin creator
  | .removeCreator admin creator => (.done, ·) <$> removeCreator env s admin creator
  | .registerWalletKey wallet pubkey => (.done, ·) <$> registerWalletKey env s wallet pubkey
  | .setPayoutWallet recipient wallet => (.done, ·) <$> setPayoutWallet env s recipient wallet
  | .openWalletChallenge recipient wallet ttlSeconds =>
    Prod.map .challengeId id <$> openWalletChallenge env s recipient wallet ttlSeconds
  | .confirmWalletChallenge challengeId pubkey signature =>
    (.done, ·) <$> confirmWalletChallenge env crypto s challengeId pubkey signature
  | .createIntent creator programId recipient amount installment =>
    Prod.map .intentId id <$>
      createIntent env crypto s creator programId recipient amount installment
  | .recordExecution executor intentId => (.done, ·) <$> recordExecution env s executor intentId
  | .cancelIntent caller intentId => (.done, ·) <$> cancelIntent env s caller intentId

def machine (contract : Address) (crypto : Crypto) :
    Machine State (Input contract) Answer (Abort ContractError) where
  step s i := execute crypto i.env s i.call

end ChainVerse.ScholarshipDisbursements
