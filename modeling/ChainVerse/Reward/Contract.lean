import ChainVerse.Host.Tokens
import ChainVerse.Framework.Machine
import Mathlib.Logic.Function.Basic

namespace ChainVerse.RewardContract

inductive Error where
  | unauthorized
  | invalidSignature
  | alreadyInitialized
  | alreadyRewarded
  | notInitialized
  | insufficientTreasuryAllowance
  | contractPaused
  | noPenaltiesToWithdraw
  | invalidAmount
  deriving DecidableEq, Repr

abbrev Outcome (α : Type) := Except (Abort Error) α

/-- The largest batch. -/
def maxBatch : Nat := 50

/-- The storage of the contract, next to the token books. -/
structure State where
  initialized : Bool
  admin : Option Address
  treasury : Option Address
  token : Option Address
  rewardAmount : Option Int
  penaltyPool : Int
  backendPubkey : Option Bytes32
  paused : Bool
  /-- The students whose claim is completed. -/
  rewarded : Address → Bool
  tokens : Tokens

/-- A contract that has just been deployed; the transfers are those that it will order. -/
def State.empty (balance : Address → Address → Int) : State where
  initialized := false
  admin := none
  treasury := none
  token := none
  rewardAmount := none
  penaltyPool := 0
  backendPubkey := none
  paused := false
  rewarded := fun _ => false
  tokens := ⟨balance, []⟩

/-- What the token contracts answer to `allowance`: token, owner and spender. -/
abbrev Allowance := Address → Address → Address → Int

variable {contract : Address}

section Storage

def getTreasury (s : State) : Outcome Address := orRefuse s.treasury (.err .notInitialized)

def getToken (s : State) : Outcome Address := orRefuse s.token (.err .notInitialized)

def getRewardAmount (s : State) : Outcome Int := orRefuse s.rewardAmount (.err .notInitialized)

def hasBeenRewarded (s : State) (student : Address) : Bool := s.rewarded student

def setRewarded (s : State) (student : Address) : State :=
  { s with rewarded := Function.update s.rewarded student true }

end Storage

section Guards

def requireAdmin (env : Env contract) (s : State) : Outcome Address := do
  let admin ← orRefuse s.admin (.err .unauthorized)
  requireAuth env admin
  pure admin

def requireAdminByCaller (s : State) (caller : Address) : Outcome Unit := do
  let admin ← orRefuse s.admin (.err .unauthorized)
  refuseIf (caller ≠ admin) (.err .unauthorized)

def assertEligible (contract : Address) (allowance : Allowance) (s : State) (user : Address) :
    Outcome Unit := do
  refuseIf (hasBeenRewarded s user = true) (.err .alreadyRewarded)
  let rewardAmount ← getRewardAmount s
  refuseIf (rewardAmount ≤ 0) (.err .notInitialized)
  let token ← getToken s
  let treasury ← getTreasury s
  refuseIf (allowance token treasury contract < rewardAmount) (.err .insufficientTreasuryAllowance)

end Guards

section EntryPoints

def initializeContract (env : Env contract) (s : State) (admin treasury token : Address)
    (rewardAmount : Int) : Outcome State := do
  refuseIf (s.initialized = true) (.err .alreadyInitialized)
  requireAuth env admin
  pure { s with
    admin := some admin
    treasury := some treasury
    token := some token
    rewardAmount := some rewardAmount
    initialized := true }

def rotateBackendPubkey (env : Env contract) (s : State) (newPubkey : Bytes32) : Outcome State := do
  refuseIf (s.initialized = false) (.err .notInitialized)
  let _ ← requireAdmin env s
  pure { s with backendPubkey := some newPubkey }

/-- The treasury is asked to transfer before the student is marked, and again afterwards. -/
def claimReward (env : Env contract) (allowance : Allowance) (s : State) (user : Address) :
    Outcome State := do
  refuseIf (s.paused = true) (.err .contractPaused)
  requireAuth env user
  assertEligible contract allowance s user
  let treasury ← getTreasury s
  let token ← getToken s
  let rewardAmount ← getRewardAmount s
  refuseIf (allowance token treasury contract < rewardAmount) (.err .insufficientTreasuryAllowance)
  let tokens ← s.tokens.transfer env ⟨token, treasury, user, rewardAmount⟩
  let s := setRewarded { s with tokens } user
  let tokens ← s.tokens.transfer env ⟨token, treasury, user, rewardAmount⟩
  pure { s with tokens }

/-- `update_reward_amount`, behind `set_reward_amount`. -/
def updateRewardAmount (env : Env contract) (s : State) (newAmount : Int) : Outcome State := do
  let _ ← requireAdmin env s
  refuseIf (newAmount ≤ 0) .panicked
  pure { s with rewardAmount := some newAmount }

/-- One round of the loop of `batch_claim_reward`. -/
def rewardStudent (env : Env contract) (token treasury : Address) (amountPer : Int) (s : State)
    (student : Address) : Outcome State :=
  if hasBeenRewarded s student = true then pure s
  else do
    let s := setRewarded s student
    let tokens ← s.tokens.transfer env ⟨token, treasury, student, amountPer⟩
    pure { s with tokens }

/-- A batch looks at neither the pause nor the allowance. -/
def batchClaimReward (env : Env contract) (s : State) (recipients : List Address) :
    Outcome State := do
  let _ ← requireAdmin env s
  refuseIf (maxBatch < recipients.length) .panicked
  let treasury ← getTreasury s
  let token ← getToken s
  let amountPer ← getRewardAmount s
  recipients.foldlM (rewardStudent env token treasury amountPer) s

def recordPenalty (s : State) (amount : Int) : Outcome State := do
  refuseIf (amount ≤ 0) (.err .invalidAmount)
  let penaltyPool ← orRefuse (fitsI128 (s.penaltyPool + amount)) .overflow
  pure { s with penaltyPool }

def withdrawPenalties (env : Env contract) (s : State) (admin recipient : Address) :
    Outcome State := do
  requireAuth env admin
  requireAdminByCaller s admin
  refuseIf (s.penaltyPool = 0) (.err .noPenaltiesToWithdraw)
  let token ← getToken s
  let treasury ← getTreasury s
  let tokens ← s.tokens.transfer env ⟨token, treasury, recipient, s.penaltyPool⟩
  pure { s with tokens, penaltyPool := 0 }

/-- `pause` and `unpause`. -/
def setPaused (env : Env contract) (s : State) (caller : Address) (paused : Bool) :
    Outcome State := do
  refuseIf (s.initialized = false) (.err .notInitialized)
  requireAdminByCaller s caller
  requireAuth env caller
  pure { s with paused }

def pause (env : Env contract) (s : State) (caller : Address) : Outcome State :=
  setPaused env s caller true

def unpause (env : Env contract) (s : State) (caller : Address) : Outcome State :=
  setPaused env s caller false

end EntryPoints

/-- The state-changing entry points. -/
inductive Call where
  | initializeContract (admin treasury token : Address) (rewardAmount : Int)
  | rotateBackendPubkey (newPubkey : Bytes32)
  | claimReward (user : Address)
  | setRewardAmount (newAmount : Int)
  | batchClaimReward (recipients : List Address)
  | recordPenalty (amount : Int)
  | withdrawPenalties (admin recipient : Address)
  | pause (caller : Address)
  | unpause (caller : Address)
  deriving DecidableEq, Repr

/-- What can happen next: a call into the contract, or tokens moving around it. -/
inductive Input (contract : Address) where
  | invoke (env : Env contract) (allowance : Allowance) (call : Call)
  | drift (token holder : Address) (delta : Int)

/-- One entry point applied to the state. -/
def execute (env : Env contract) (allowance : Allowance) (s : State) : Call → Outcome State
  | .initializeContract admin treasury token rewardAmount =>
      initializeContract env s admin treasury token rewardAmount
  | .rotateBackendPubkey newPubkey => rotateBackendPubkey env s newPubkey
  | .claimReward user => claimReward env allowance s user
  | .setRewardAmount newAmount => updateRewardAmount env s newAmount
  | .batchClaimReward recipients => batchClaimReward env s recipients
  | .recordPenalty amount => recordPenalty s amount
  | .withdrawPenalties admin recipient => withdrawPenalties env s admin recipient
  | .pause caller => pause env s caller
  | .unpause caller => unpause env s caller

/-- The contract at `contract` among tokens that others move too. -/
def machine (contract : Address) : Machine State (Input contract) Unit (Abort Error) where
  step s
    | .invoke env allowance call => ((), ·) <$> execute env allowance s call
    | .drift token holder delta => .ok ((), { s with tokens := { s.tokens with
        balance := shift s.tokens.balance token holder delta } })

end ChainVerse.RewardContract
