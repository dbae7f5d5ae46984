import ChainVerse.Framework.Machine
import ChainVerse.Host.Environment
import Mathlib.Logic.Function.Basic

namespace ChainVerse.MentorshipCapacity

def secondsPerWeek : Nat := 604800

inductive ContractError where
  | notInitialized
  | alreadyInitialized
  | notAdmin
  | maxConcurrentExceeded
  | maxWeeklyHoursExceeded
  | programCapacityExceeded
  | notFound
  | unauthorized
  | invalidConfig
  deriving DecidableEq, Repr

abbrev Outcome (α : Type) := Except (Abort ContractError) α

structure MentorCapacityConfig where
  maxConcurrent : Nat
  maxWeeklyHours : Nat
  maxPerProgram : Nat
  maxPerCohort : Nat
  proposalBuffer : Nat
  deriving DecidableEq

structure MentorCapacityUtilization where
  mentor : Address
  currentConcurrent : Nat
  currentWeek : Nat
  hoursThisWeek : Nat
  updatedAt : Nat
  deriving DecidableEq

structure ProgramCapacityConfig where
  programId : Bytes32
  maxMentorships : Nat
  maxMentors : Nat
  activeCount : Nat
  deriving DecidableEq

/-- The contract's storage. -/
structure State where
  admin : Option Address
  mentorConfig : Address → Option MentorCapacityConfig
  utilization : Address → Option MentorCapacityUtilization
  /-- By mentor and program. -/
  mentorProgramCount : Address × Bytes32 → Option Nat
  programConfig : Bytes32 → Option ProgramCapacityConfig

def State.empty : State where
  admin := none
  mentorConfig := fun _ => none
  utilization := fun _ => none
  mentorProgramCount := fun _ => none
  programConfig := fun _ => none

variable {contract : Address}

section Helpers

def requireAdmin (env : Env contract) (s : State) (admin : Address) : Outcome Unit := do
  let current ← orRefuse s.admin (.err .notInitialized)
  refuseIf (current ≠ admin) (.err .notAdmin)
  requireAuth env admin

def putMentorCapacityConfig (s : State) (mentor : Address) (config : MentorCapacityConfig) : State :=
  { s with mentorConfig := Function.update s.mentorConfig mentor (some config) }

def putMentorCapacityUtilization (s : State) (utilization : MentorCapacityUtilization) : State :=
  { s with utilization := Function.update s.utilization utilization.mentor (some utilization) }

def setMentorProgramCount (s : State) (mentor : Address) (programId : Bytes32) (count : Nat) : State :=
  { s with
    mentorProgramCount := Function.update s.mentorProgramCount (mentor, programId) (some count) }

def putProgramCapacityConfig (s : State) (config : ProgramCapacityConfig) : State :=
  { s with programConfig := Function.update s.programConfig config.programId (some config) }

/-- `as u32` on the number of the week. -/
def currentWeek (env : Env contract) : Nat := env.timestamp / secondsPerWeek % 2^32

/-- The stored utilization of a mentor, or an unused one. -/
def utilizationOf (env : Env contract) (s : State) (mentor : Address) : MentorCapacityUtilization :=
  match s.utilization mentor with
  | some utilization => utilization
  | none =>
    { mentor, currentConcurrent := 0, currentWeek := currentWeek env, hoursThisWeek := 0,
      updatedAt := env.timestamp }

/-- The hours start anew in a new week. -/
def MentorCapacityUtilization.resetWeek (utilization : MentorCapacityUtilization) (nowWeek : Nat) :
    MentorCapacityUtilization :=
  if utilization.currentWeek ≠ nowWeek then
    { utilization with
      currentWeek := nowWeek
      hoursThisWeek := 0 }
  else utilization

/-- Moves the active count of a program, where one is configured. -/
def adjustActiveCount (s : State) (programId : Bytes32) (adjust : Nat → Option Nat) : Outcome State :=
  match s.programConfig programId with
  | none => pure s
  | some config => do
    let activeCount ← orRefuse (adjust config.activeCount) (.err .invalidConfig)
    pure (putProgramCapacityConfig s { config with activeCount := activeCount })

end Helpers

section EntryPoints

def initializeContract (env : Env contract) (s : State) (admin : Address) : Outcome State := do
  refuseIf (s.admin ≠ none) (.err .alreadyInitialized)
  requireAuth env admin
  pure { s with admin := some admin }

def setMentorCapacity (env : Env contract) (s : State) (admin mentor : Address)
    (maxConcurrent maxWeeklyHours maxPerProgram maxPerCohort proposalBuffer : Nat) :
    Outcome State := do
  requireAdmin env s admin
  refuseIf (maxConcurrent = 0 ∨ maxWeeklyHours = 0) (.err .invalidConfig)
  pure (putMentorCapacityConfig s mentor
    { maxConcurrent, maxWeeklyHours, maxPerProgram, maxPerCohort, proposalBuffer })

def setProgramCapacity (env : Env contract) (s : State) (admin : Address) (programId : Bytes32)
    (maxMentorships maxMentors : Nat) : Outcome State := do
  requireAdmin env s admin
  refuseIf (maxMentorships = 0 ∨ maxMentors = 0) (.err .invalidConfig)
  pure (putProgramCapacityConfig s { programId, maxMentorships, maxMentors, activeCount := 0 })

/-- The contract that is named as the caller is not asked to sign. -/
def reserveMentorCapacity (env : Env contract) (s : State) (_coreContract mentor : Address)
    (programId : Bytes32) (weeklyHours : Nat) : Outcome State := do
  let utilization := (utilizationOf env s mentor).resetWeek (currentWeek env)
  let currentConcurrent ← orRefuse (fitsU 32 (utilization.currentConcurrent + 1)) (.err .invalidConfig)
  let hoursThisWeek ← orRefuse (fitsU 32 (utilization.hoursThisWeek + weeklyHours))
    (.err .invalidConfig)
  let s := putMentorCapacityUtilization s { utilization with
    currentConcurrent := currentConcurrent
    hoursThisWeek := hoursThisWeek
    updatedAt := env.timestamp }
  let count ← orRefuse (fitsU 32 ((s.mentorProgramCount (mentor, programId)).getD 0 + 1)) .overflow
  let s := setMentorProgramCount s mentor programId count
  adjustActiveCount s programId fun active => fitsU 32 (active + 1)

def releaseMentorCapacity (env : Env contract) (s : State) (_coreContract mentor : Address)
    (programId : Bytes32) : Outcome State := do
  let utilization ← orRefuse (s.utilization mentor) (.err .notFound)
  let currentConcurrent ← orRefuse (checkedSub utilization.currentConcurrent 1) (.err .invalidConfig)
  let s := putMentorCapacityUtilization s { utilization with
    currentConcurrent := currentConcurrent
    updatedAt := env.timestamp }
  let count ← orRefuse (s.mentorProgramCount (mentor, programId)) (.err .notFound)
  let count ← orRefuse (checkedSub count 1) (.err .invalidConfig)
  let s := setMentorProgramCount s mentor programId count
  adjustActiveCount s programId fun active => checkedSub active 1

end EntryPoints

/-- The state-changing entry points. -/
inductive Call where
  | initializeContract (admin : Address)
  | setMentorCapacity (admin mentor : Address)
      (maxConcurrent maxWeeklyHours maxPerProgram maxPerCohort proposalBuffer : Nat)
  | setProgramCapacity (admin : Address) (programId : Bytes32) (maxMentorships maxMentors : Nat)
  | reserveMentorCapacity (coreContract mentor : Address) (programId : Bytes32) (weeklyHours : Nat)
  | releaseMentorCapacity (coreContract mentor : Address) (programId : Bytes32)
  deriving DecidableEq

structure Input (contract : Address) where
  env : Env contract
  call : Call

/-- One entry point applied to the state. -/
def execute (env : Env contract) (s : State) : Call → Outcome State
  | .initializeContract admin => initializeContract env s admin
  | .setMentorCapacity admin mentor maxConcurrent maxWeeklyHours maxPerProgram maxPerCohort
      proposalBuffer =>
    setMentorCapacity env s admin mentor maxConcurrent maxWeeklyHours maxPerProgram maxPerCohort
      proposalBuffer
  | .setProgramCapacity admin programId maxMentorships maxMentors =>
    setProgramCapacity env s admin programId maxMentorships maxMentors
  | .reserveMentorCapacity coreContract mentor programId weeklyHours =>
    reserveMentorCapacity env s coreContract mentor programId weeklyHours
  | .releaseMentorCapacity coreContract mentor programId =>
    releaseMentorCapacity env s coreContract mentor programId

def machine (contract : Address) : Machine State (Input contract) Unit (Abort ContractError) where
  step s i := ((), ·) <$> execute i.env s i.call

end ChainVerse.MentorshipCapacity
