import ChainVerse.Framework.Machine
import ChainVerse.Host.Bytes
import ChainVerse.Host.Tokens
import Mathlib.Logic.Function.Basic

namespace ChainVerse.AcademyVestingContract

inductive VestingError where
  | unauthorized
  | notVested
  | alreadyClaimed
  | invalidSchedule
  | insufficientBalance
  | grantNotFound
  | revoked
  | invalidTimelock
  | notEnoughTimeForRevoke
  deriving DecidableEq, Repr

abbrev Outcome (α : Type) := Except (Abort VestingError) α

structure VestingSchedule where
  beneficiary : Address
  amount : I128
  startTime : U64
  cliff : U64
  duration : U64
  claimed : Bool
  revoked : Bool
  revokeTime : Nat
  deriving DecidableEq

/-- The contract's storage, with the token books it moves. -/
structure State where
  initialized : Bool
  admin : Option Address
  token : Option Address
  governance : Option Address
  /-- Zero where nothing is stored. -/
  counter : Nat
  schedule : Nat → Option VestingSchedule
  tokens : Tokens

/-- A freshly deployed contract next to the given token books. -/
def State.empty (tokens : Tokens) : State where
  initialized := false
  admin := none
  token := none
  governance := none
  counter := 0
  schedule := fun _ => none
  tokens := tokens

variable {contract : Address}

section Helpers

/-- The caller has signed and is the stored admin. -/
def requireAdmin (env : Env contract) (s : State) (admin : Address) : Outcome Unit := do
  requireAuth env admin
  let storedAdmin ← orRefuse s.admin (.err .unauthorized)
  refuseIf (admin ≠ storedAdmin) (.err .unauthorized)

def saveSchedule (s : State) (grantId : Nat) (schedule : VestingSchedule) : State :=
  { s with schedule := Function.update s.schedule grantId (some schedule) }

/-- Overflow checks are on: `+`, `-` and `*` trap. -/
def calculateVestedAmount (schedule : VestingSchedule) (currentTime : U64) : Outcome Int :=
  if currentTime < schedule.startTime then pure 0
  else do
    let unlockTime ← orRefuse (fitsU 64 (schedule.startTime + schedule.cliff : Nat)) .overflow
    if currentTime < unlockTime then pure 0
    else do
      let endTime ← orRefuse (fitsU 64 (schedule.startTime + schedule.duration : Nat)) .overflow
      if endTime ≤ currentTime then pure schedule.amount.val
      else do
        let vestedDuration ← orRefuse (checkedSub currentTime unlockTime) .overflow
        let remainingDuration ← orRefuse (checkedSub schedule.duration schedule.cliff) .overflow
        if remainingDuration = 0 then pure schedule.amount.val
        else do
          let product ← orRefuse (fitsU 128 (asU128 schedule.amount * vestedDuration)) .overflow
          pure (asI128 (product / remainingDuration))

end Helpers

section EntryPoints

def initializeContract (s : State) (admin rewardToken governance : Address) : Outcome State := do
  refuseIf (s.initialized = true) (.err .unauthorized)
  pure { s with
    initialized := true
    admin := some admin
    token := some rewardToken
    governance := some governance
    counter := 0 }

def grantVesting (env : Env contract) (s : State) (admin beneficiary : Address) (amount : I128)
    (startTime cliff duration : U64) : Outcome (Nat × State) := do
  requireAdmin env s admin
  refuseIf (amount.val ≤ 0) (.err .invalidSchedule)
  refuseIf (duration < cliff) (.err .invalidSchedule)
  let grantId := s.counter
  let nextId ← orRefuse (fitsU 64 (grantId + 1)) .overflow
  let schedule : VestingSchedule :=
    { beneficiary, amount, startTime, cliff, duration, claimed := false, revoked := false,
      revokeTime := 0 }
  pure (nextId, { saveSchedule s nextId schedule with counter := nextId })

def claim (env : Env contract) (s : State) (grantId : Nat) (beneficiary : Address) :
    Outcome (Int × State) := do
  requireAuth env beneficiary
  let schedule ← orRefuse (s.schedule grantId) (.err .grantNotFound)
  refuseIf (schedule.beneficiary ≠ beneficiary) (.err .unauthorized)
  refuseIf (schedule.claimed = true) (.err .alreadyClaimed)
  refuseIf (schedule.revoked = true) (.err .revoked)
  let vestedAmount ← calculateVestedAmount schedule env.now
  refuseIf (vestedAmount = 0) (.err .notVested)
  let token ← orRefuse s.token (.err .unauthorized)
  refuseIf (s.tokens.balance token contract < vestedAmount) (.err .insufficientBalance)
  let s := saveSchedule s grantId { schedule with claimed := true }
  let tokens ← Tokens.transfer env s.tokens ⟨token, contract, beneficiary, vestedAmount⟩
  pure (vestedAmount, { s with tokens := tokens })

def revoke (env : Env contract) (s : State) (grantId : Nat) (admin : Address)
    (revokeDelay : U64) : Outcome State := do
  requireAdmin env s admin
  let schedule ← orRefuse (s.schedule grantId) (.err .grantNotFound)
  refuseIf (schedule.claimed = true) (.err .alreadyClaimed)
  refuseIf (schedule.revoked = true) (.err .revoked)
  refuseIf (revokeDelay < 3600) (.err .invalidTimelock)
  let earliest ← orRefuse (fitsU 64 (schedule.startTime + revokeDelay : Nat)) .overflow
  refuseIf (env.timestamp < earliest) (.err .notEnoughTimeForRevoke)
  pure (saveSchedule s grantId { schedule with revoked := true, revokeTime := env.timestamp })

end EntryPoints

/-- The state-changing entry points, and the transfers between others that move the token books
without the contract. -/
inductive Call where
  | initializeContract (admin rewardToken governance : Address)
  | grantVesting (admin beneficiary : Address) (amount : I128) (startTime cliff duration : U64)
  | claim (grantId : Nat) (beneficiary : Address)
  | revoke (grantId : Nat) (admin : Address) (revokeDelay : U64)
  | transferElsewhere (transfer : Transfer)
  deriving DecidableEq

structure Input (contract : Address) where
  env : Env contract
  call : Call

/-- What an entry point returns. -/
inductive Answer where
  | done
  | granted (grantId : Nat)
  | paid (amount : Int)
  deriving DecidableEq, Repr

/-- One entry point applied to the state. -/
def execute (env : Env contract) (s : State) : Call → Outcome (Answer × State)
  | .initializeContract admin rewardToken governance =>
    (.done, ·) <$> initializeContract s admin rewardToken governance
  | .grantVesting admin beneficiary amount startTime cliff duration =>
    Prod.map .granted id <$> grantVesting env s admin beneficiary amount startTime cliff duration
  | .claim grantId beneficiary => Prod.map .paid id <$> claim env s grantId beneficiary
  | .revoke grantId admin revokeDelay => (.done, ·) <$> revoke env s grantId admin revokeDelay
  | .transferElsewhere t => do
    refuseIf (t.sender = contract) .refused
    let tokens ← Tokens.transfer env s.tokens t
    pure (.done, { s with tokens := tokens })

def machine (contract : Address) :
    Machine State (Input contract) Answer (Abort VestingError) where
  step s i := execute i.env s i.call

end ChainVerse.AcademyVestingContract
