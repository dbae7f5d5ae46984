import ChainVerse.Framework.Machine
import ChainVerse.Host.Environment
import Mathlib.Logic.Function.Basic

namespace ChainVerse.ScholarshipMilestones

def maxMilestones : Nat := 16
def bpsDenom : Nat := 10000

inductive ContractError where
  | notInitialized
  | alreadyInitialized
  | notAdmin
  | scheduleNotFound
  | scheduleAlreadyExists
  | invalidMilestoneCount
  | percentagesDoNotSumTo100
  | datesNotOrdered
  | invalidAmount
  | scheduleInactive
  | scheduleAlreadyActive
  | milestoneIndexOutOfRange
  | milestoneNotVerified
  | milestoneAlreadyVerified
  | milestoneAlreadyReleased
  | outOfOrderRelease
  | scheduleLockedAfterDisbursement
  | versionOverflow
  deriving DecidableEq, Repr

abbrev Outcome (α : Type) := Except (Abort ContractError) α

inductive MilestoneKind where
  | enrollment
  | attendance
  | coursework
  | completion
  | custom
  deriving DecidableEq, Repr

structure MilestoneInput where
  kind : MilestoneKind
  labelHash : Bytes32
  percentageBps : Nat
  dueAt : Nat
  deriving DecidableEq

structure Milestone where
  index : Nat
  kind : MilestoneKind
  labelHash : Bytes32
  percentageBps : Nat
  amount : Int
  dueAt : Nat
  verified : Bool
  released : Bool
  deriving DecidableEq

structure MilestoneSchedule where
  awardId : Bytes32
  totalAmount : Int
  currency : Symbol
  version : Nat
  active : Bool
  createdAt : Nat
  activatedAt : Nat
  amendedAt : Nat
  milestones : List Milestone
  deriving DecidableEq

/-- The contract's storage. -/
structure State where
  admin : Option Address
  schedule : Bytes32 → Option MilestoneSchedule

def State.empty : State where
  admin := none
  schedule := fun _ => none

variable {contract : Address}

section Helpers

def requireAdmin (env : Env contract) (s : State) (caller : Address) : Outcome Unit := do
  let admin ← orRefuse s.admin (.err .notInitialized)
  refuseIf (caller ≠ admin) (.err .notAdmin)
  requireAuth env caller

def loadSchedule (s : State) (awardId : Bytes32) : Outcome MilestoneSchedule :=
  orRefuse (s.schedule awardId) (.err .scheduleNotFound)

def putSchedule (s : State) (schedule : MilestoneSchedule) : State :=
  { s with schedule := Function.update s.schedule schedule.awardId (some schedule) }

/-- The first pass, from the milestone at `i` on: it adds the shares up and compares each date with the
one before. -/
def sumShares (i bpsSum prevDue : Nat) : List MilestoneInput → Outcome Nat
  | [] => pure bpsSum
  | input :: rest => do
    let bpsSum ← orRefuse (fitsU 32 (bpsSum + input.percentageBps)) (.err .percentagesDoNotSumTo100)
    refuseIf (0 < i ∧ input.dueAt ≤ prevDue) (.err .datesNotOrdered)
    sumShares (i + 1) bpsSum input.dueAt rest

/-- What the milestone at `i` gets: the last one gets all that is left. -/
def amountOf (count : Nat) (totalAmount : Int) (i : Nat) (allocated : Int) (percentageBps : Nat) :
    Outcome Int :=
  if i = count - 1 then orRefuse (fitsI128 (totalAmount - allocated)) (.err .invalidAmount)
  else do
    let product ← orRefuse (fitsI128 (totalAmount * percentageBps)) (.err .invalidAmount)
    pure (product.tdiv bpsDenom)

/-- The second pass, from the milestone at `i` on. -/
def deriveAmounts (count : Nat) (totalAmount : Int) (i : Nat) (allocated : Int) :
    List MilestoneInput → Outcome (List Milestone)
  | [] => pure []
  | input :: rest => do
    let amount ← amountOf count totalAmount i allocated input.percentageBps
    let allocated ← orRefuse (fitsI128 (allocated + amount)) (.err .invalidAmount)
    let milestone : Milestone :=
      { index := i, kind := input.kind, labelHash := input.labelHash,
        percentageBps := input.percentageBps, amount, dueAt := input.dueAt, verified := false,
        released := false }
    let milestones ← deriveAmounts count totalAmount (i + 1) allocated rest
    pure (milestone :: milestones)

def buildMilestones (totalAmount : Int) (inputs : List MilestoneInput) : Outcome (List Milestone) := do
  refuseIf (inputs.length = 0 ∨ maxMilestones < inputs.length) (.err .invalidMilestoneCount)
  refuseIf (totalAmount ≤ 0) (.err .invalidAmount)
  let bpsSum ← sumShares 0 0 0 inputs
  refuseIf (bpsSum ≠ bpsDenom) (.err .percentagesDoNotSumTo100)
  deriveAmounts inputs.length totalAmount 0 0 inputs

end Helpers

section EntryPoints

def initializeContract (env : Env contract) (s : State) (admin : Address) : Outcome State := do
  refuseIf (s.admin ≠ none) (.err .alreadyInitialized)
  requireAuth env admin
  pure { s with admin := some admin }

def defineSchedule (env : Env contract) (s : State) (admin : Address) (awardId : Bytes32)
    (totalAmount : Int) (currency : Symbol) (inputs : List MilestoneInput) : Outcome State := do
  requireAdmin env s admin
  refuseIf (s.schedule awardId ≠ none) (.err .scheduleAlreadyExists)
  let milestones ← buildMilestones totalAmount inputs
  pure (putSchedule s
    { awardId, totalAmount, currency, version := 1, active := false, createdAt := env.timestamp,
      activatedAt := 0, amendedAt := 0, milestones })

def activateSchedule (env : Env contract) (s : State) (admin : Address) (awardId : Bytes32) :
    Outcome State := do
  requireAdmin env s admin
  let schedule ← loadSchedule s awardId
  refuseIf (schedule.active = true) (.err .scheduleAlreadyActive)
  pure (putSchedule s { schedule with
    active := true
    activatedAt := env.timestamp })

def amendSchedule (env : Env contract) (s : State) (admin : Address) (awardId : Bytes32)
    (totalAmount : Int) (currency : Symbol) (inputs : List MilestoneInput) : Outcome State := do
  requireAdmin env s admin
  let schedule ← loadSchedule s awardId
  refuseIf (schedule.active = false) (.err .scheduleInactive)
  refuseIf (schedule.milestones.any (·.released) = true) (.err .scheduleLockedAfterDisbursement)
  let milestones ← buildMilestones totalAmount inputs
  let version ← orRefuse (fitsU 32 (schedule.version + 1)) (.err .versionOverflow)
  pure (putSchedule s { schedule with
    totalAmount := totalAmount
    currency := currency
    milestones := milestones
    version := version
    amendedAt := env.timestamp })

def verifyMilestone (env : Env contract) (s : State) (admin : Address) (awardId : Bytes32)
    (index : Nat) : Outcome State := do
  requireAdmin env s admin
  let schedule ← loadSchedule s awardId
  refuseIf (schedule.active = false) (.err .scheduleInactive)
  let milestone ← orRefuse schedule.milestones[index]? (.err .milestoneIndexOutOfRange)
  refuseIf (milestone.verified = true) (.err .milestoneAlreadyVerified)
  pure (putSchedule s { schedule with
    milestones := schedule.milestones.set index { milestone with verified := true } })

def releaseMilestone (env : Env contract) (s : State) (admin : Address) (awardId : Bytes32)
    (index : Nat) : Outcome State := do
  requireAdmin env s admin
  let schedule ← loadSchedule s awardId
  refuseIf (schedule.active = false) (.err .scheduleInactive)
  let milestone ← orRefuse schedule.milestones[index]? (.err .milestoneIndexOutOfRange)
  refuseIf (milestone.released = true) (.err .milestoneAlreadyReleased)
  refuseIf (milestone.verified = false) (.err .milestoneNotVerified)
  refuseIf (¬ ∀ earlier ∈ schedule.milestones.take index, earlier.released = true)
    (.err .outOfOrderRelease)
  pure (putSchedule s { schedule with
    milestones := schedule.milestones.set index { milestone with released := true } })

end EntryPoints

section Views

/-- The loop of `released_total`. -/
def sumReleased (total : Int) (m : Milestone) : Outcome Int :=
  if m.released then orRefuse (fitsI128 (total + m.amount)) (.err .invalidAmount) else pure total

def releasedTotal (s : State) (awardId : Bytes32) : Outcome Int := do
  let schedule ← loadSchedule s awardId
  schedule.milestones.foldlM sumReleased 0

def remainingAmount (s : State) (awardId : Bytes32) : Outcome Int := do
  let schedule ← loadSchedule s awardId
  let released ← releasedTotal s schedule.awardId
  orRefuse (fitsI128 (schedule.totalAmount - released)) (.err .invalidAmount)

end Views

/-- The state-changing entry points. -/
inductive Call where
  | initializeContract (admin : Address)
  | defineSchedule (admin : Address) (awardId : Bytes32) (totalAmount : Int) (currency : Symbol)
      (inputs : List MilestoneInput)
  | activateSchedule (admin : Address) (awardId : Bytes32)
  | amendSchedule (admin : Address) (awardId : Bytes32) (totalAmount : Int) (currency : Symbol)
      (inputs : List MilestoneInput)
  | verifyMilestone (admin : Address) (awardId : Bytes32) (index : Nat)
  | releaseMilestone (admin : Address) (awardId : Bytes32) (index : Nat)
  deriving DecidableEq

structure Input (contract : Address) where
  env : Env contract
  call : Call

/-- One entry point applied to the state. -/
def execute (env : Env contract) (s : State) : Call → Outcome State
  | .initializeContract admin => initializeContract env s admin
  | .defineSchedule admin awardId totalAmount currency inputs =>
    defineSchedule env s admin awardId totalAmount currency inputs
  | .activateSchedule admin awardId => activateSchedule env s admin awardId
  | .amendSchedule admin awardId totalAmount currency inputs =>
    amendSchedule env s admin awardId totalAmount currency inputs
  | .verifyMilestone admin awardId index => verifyMilestone env s admin awardId index
  | .releaseMilestone admin awardId index => releaseMilestone env s admin awardId index

def machine (contract : Address) : Machine State (Input contract) Unit (Abort ContractError) where
  step s i := ((), ·) <$> execute i.env s i.call

end ChainVerse.ScholarshipMilestones
