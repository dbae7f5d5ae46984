import ChainVerse.Framework.Machine
import ChainVerse.Host.Bytes
import Mathlib.Logic.Function.Basic

namespace ChainVerse.ScholarshipPrograms

inductive ContractError where
  | notInitialized
  | alreadyInitialized
  | notAdmin
  | invalidWindow
  | windowNotFound
  | windowOverflow
  | budgetNotFound
  | invalidBudgetConfig
  | capacityExceeded
  | budgetExceeded
  | noAwardsReserved
  | budgetAlreadyCommitted
  | versionConflict
  | versionOverflow
  deriving DecidableEq, Repr

abbrev Outcome (α : Type) := Except (Abort ContractError) α

structure ProgramWindow where
  version : Nat
  opensAt : Nat
  closesAt : Nat
  timezoneOffsetMinutes : Int
  gracePeriodSeconds : Nat
  deriving DecidableEq

structure AwardBudget where
  version : Nat
  maxRecipients : Nat
  perAwardAmount : Int
  totalBudget : Int
  awardedCount : Nat
  committedAmount : Int
  deriving DecidableEq

/-- The contract's storage. -/
structure State where
  admin : Option Address
  window : Bytes32 → Option ProgramWindow
  budget : Bytes32 → Option AwardBudget

def State.empty : State where
  admin := none
  window := fun _ => none
  budget := fun _ => none

variable {contract : Address}

section Helpers

def requireAdmin (env : Env contract) (s : State) (caller : Address) : Outcome Unit := do
  let admin ← orRefuse s.admin (.err .notInitialized)
  refuseIf (caller ≠ admin) (.err .notAdmin)
  requireAuth env caller

def saveWindow (s : State) (programId : Bytes32) (window : ProgramWindow) : State :=
  { s with window := Function.update s.window programId (some window) }

def saveBudget (s : State) (programId : Bytes32) (budget : AwardBudget) : State :=
  { s with budget := Function.update s.budget programId (some budget) }

def getProgramWindow (s : State) (programId : Bytes32) : Outcome ProgramWindow :=
  orRefuse (s.window programId) (.err .windowNotFound)

def getAwardBudget (s : State) (programId : Bytes32) : Outcome AwardBudget :=
  orRefuse (s.budget programId) (.err .budgetNotFound)

end Helpers

section Windows

def initializeContract (env : Env contract) (s : State) (admin : Address) : Outcome State := do
  refuseIf (s.admin ≠ none) (.err .alreadyInitialized)
  requireAuth env admin
  pure { s with admin := some admin }

def setProgramWindow (env : Env contract) (s : State) (admin : Address) (programId : Bytes32)
    (expectedVersion opensAt closesAt : Nat) (timezoneOffsetMinutes : Int)
    (gracePeriodSeconds : Nat) : Outcome (Nat × State) := do
  requireAdmin env s admin
  let currentVersion := ((s.window programId).map ProgramWindow.version).getD 0
  refuseIf (expectedVersion ≠ currentVersion) (.err .versionConflict)
  let nextVersion ← orRefuse (fitsU 32 (currentVersion + 1)) (.err .versionOverflow)
  refuseIf (closesAt ≤ opensAt) (.err .invalidWindow)
  let _ ← orRefuse (fitsU 64 (closesAt + gracePeriodSeconds)) (.err .windowOverflow)
  pure (nextVersion, saveWindow s programId
    { version := nextVersion, opensAt, closesAt, timezoneOffsetMinutes, gracePeriodSeconds })

def isOpen (env : Env contract) (s : State) (programId : Bytes32) : Outcome Bool := do
  let window ← getProgramWindow s programId
  pure (window.opensAt ≤ env.timestamp ∧ env.timestamp ≤ window.closesAt)

def isWithinGrace (env : Env contract) (s : State) (programId : Bytes32) : Outcome Bool := do
  let window ← getProgramWindow s programId
  if env.timestamp ≤ window.closesAt then pure false
  else do
    let graceEnd ← orRefuse (fitsU 64 (window.closesAt + window.gracePeriodSeconds))
      (.err .windowOverflow)
    pure (env.timestamp ≤ graceEnd)

end Windows

section Awards

/-- A budget is replaced only as long as no award is reserved from it. -/
def configureAwardBudget (env : Env contract) (s : State) (admin : Address) (programId : Bytes32)
    (expectedVersion : Nat) (maxRecipients : U32) (perAwardAmount totalBudget : I128) :
    Outcome State := do
  requireAdmin env s admin
  let existing := s.budget programId
  let currentVersion := (existing.map AwardBudget.version).getD 0
  refuseIf (expectedVersion ≠ currentVersion) (.err .versionConflict)
  let nextVersion ← orRefuse (fitsU 32 (currentVersion + 1)) (.err .versionOverflow)
  refuseIf (maxRecipients.val = 0 ∨ perAwardAmount.val ≤ 0 ∨ totalBudget.val ≤ 0)
    (.err .invalidBudgetConfig)
  let required ← orRefuse (fitsI128 (maxRecipients.val * perAwardAmount.val))
    (.err .invalidBudgetConfig)
  refuseIf (totalBudget.val < required) (.err .invalidBudgetConfig)
  refuseIf (∃ budget ∈ existing, 0 < budget.awardedCount ∨ 0 < budget.committedAmount)
    (.err .budgetAlreadyCommitted)
  pure (saveBudget s programId
    { version := nextVersion, maxRecipients := maxRecipients.val,
      perAwardAmount := perAwardAmount.val, totalBudget := totalBudget.val,
      awardedCount := 0, committedAmount := 0 })

def reserveAward (env : Env contract) (s : State) (admin : Address) (programId : Bytes32) :
    Outcome (Nat × State) := do
  requireAdmin env s admin
  let budget ← getAwardBudget s programId
  refuseIf (budget.maxRecipients ≤ budget.awardedCount) (.err .capacityExceeded)
  let newCommitted ← orRefuse (fitsI128 (budget.committedAmount + budget.perAwardAmount))
    (.err .budgetExceeded)
  refuseIf (budget.totalBudget < newCommitted) (.err .budgetExceeded)
  let awardedCount ← orRefuse (fitsU 32 (budget.awardedCount + 1)) (.err .capacityExceeded)
  let version ← orRefuse (fitsU 32 (budget.version + 1)) (.err .versionOverflow)
  pure (awardedCount, saveBudget s programId { budget with
    awardedCount := awardedCount
    committedAmount := newCommitted
    version := version })

def releaseAward (env : Env contract) (s : State) (admin : Address) (programId : Bytes32) :
    Outcome State := do
  requireAdmin env s admin
  let budget ← getAwardBudget s programId
  refuseIf (budget.awardedCount = 0) (.err .noAwardsReserved)
  let awardedCount ← orRefuse (checkedSub budget.awardedCount 1) (.err .noAwardsReserved)
  let committedAmount ← orRefuse (fitsI128 (budget.committedAmount - budget.perAwardAmount))
    (.err .noAwardsReserved)
  let version ← orRefuse (fitsU 32 (budget.version + 1)) (.err .versionOverflow)
  pure (saveBudget s programId { budget with
    awardedCount := awardedCount
    committedAmount := committedAmount
    version := version })

/-- `saturating_sub`. -/
def remainingCapacity (s : State) (programId : Bytes32) : Outcome Nat := do
  let budget ← getAwardBudget s programId
  pure (budget.maxRecipients - budget.awardedCount)

end Awards

/-- The state-changing entry points. -/
inductive Call where
  | initializeContract (admin : Address)
  | setProgramWindow (admin : Address) (programId : Bytes32)
      (expectedVersion opensAt closesAt : Nat) (timezoneOffsetMinutes : Int)
      (gracePeriodSeconds : Nat)
  | configureAwardBudget (admin : Address) (programId : Bytes32) (expectedVersion : Nat)
      (maxRecipients : U32) (perAwardAmount totalBudget : I128)
  | reserveAward (admin : Address) (programId : Bytes32)
  | releaseAward (admin : Address) (programId : Bytes32)
  deriving DecidableEq

structure Input (contract : Address) where
  env : Env contract
  call : Call

/-- What an entry point returns. -/
inductive Answer where
  | done
  | version (version : Nat)
  | awarded (count : Nat)
  deriving DecidableEq, Repr

/-- One entry point applied to the state. -/
def execute (env : Env contract) (s : State) : Call → Outcome (Answer × State)
  | .initializeContract admin => (.done, ·) <$> initializeContract env s admin
  | .setProgramWindow admin programId expectedVersion opensAt closesAt timezoneOffsetMinutes
      gracePeriodSeconds =>
    Prod.map .version id <$> setProgramWindow env s admin programId expectedVersion opensAt closesAt
      timezoneOffsetMinutes gracePeriodSeconds
  | .configureAwardBudget admin programId expectedVersion maxRecipients perAwardAmount totalBudget =>
    (.done, ·) <$> configureAwardBudget env s admin programId expectedVersion maxRecipients
      perAwardAmount totalBudget
  | .reserveAward admin programId => Prod.map .awarded id <$> reserveAward env s admin programId
  | .releaseAward admin programId => (.done, ·) <$> releaseAward env s admin programId

def machine (contract : Address) : Machine State (Input contract) Answer (Abort ContractError) where
  step s i := execute i.env s i.call

end ChainVerse.ScholarshipPrograms
