import ChainVerse.Framework.Coalescing
import ChainVerse.Framework.Machine
import ChainVerse.Framework.Selection
import ChainVerse.Host.Environment
import Mathlib.Logic.Function.Basic

namespace ChainVerse.MentorshipCalendar

def secondsPerDay : Nat := 86400
def scopeFreeBusy : BitVec 32 := 1
def scopeTimezone : BitVec 32 := 2
def allowedScopes : BitVec 32 := scopeFreeBusy ||| scopeTimezone
def forbiddenContentScope : BitVec 32 := 8
def maxConnectionsPerOwner : Nat := 8
def maxBusyWindows : Nat := 128
def maxWindowSpanSeconds : Nat := 7 * secondsPerDay
def maxSyncHorizonDays : Nat := 60
def maxQuerySpanSeconds : Nat := 90 * secondsPerDay
def maxPageSize : Nat := 64
def maxPage : Nat := 4096

inductive ContractError where
  | connectionNotFound
  | connectionAlreadyExists
  | tooManyConnections
  | invalidScope
  | scopeNotAllowed
  | invalidTokenCommitment
  | invalidExpiry
  | connectionNotActive
  | connectionExpired
  | staleSyncEpoch
  | tooManyBusyWindows
  | invalidBusyWindow
  | busyWindowSpanTooLarge
  | invalidSyncRange
  | invalidPage
  | invalidQueryRange
  | querySpanTooLarge
  | connectionNotExpired
  deriving DecidableEq, Repr

abbrev Outcome (α : Type) := Except (Abort ContractError) α

inductive Provider where
  | google
  | outlook
  | calendly
  | apple
  deriving DecidableEq, Repr

inductive ConnectionStatus where
  | active
  | revoked
  | expired
  deriving DecidableEq, Repr

structure ConnectionInput where
  id : Bytes32
  provider : Provider
  scopes : BitVec 32
  tokenCommitment : Bytes32
  tokenRef : Bytes32
  expiresAt : Nat
  deriving DecidableEq

structure CalendarConnection where
  id : Bytes32
  owner : Address
  provider : Provider
  scopes : BitVec 32
  tokenCommitment : Bytes32
  tokenRef : Bytes32
  status : ConnectionStatus
  connectedAt : Nat
  lastSyncedAt : Nat
  syncEpoch : Nat
  payloadHash : Bytes32
  expiresAt : Nat
  degraded : Bool
  lastErrorCode : Option Symbol
  revokedAt : Nat
  deriving DecidableEq

structure BusyWindow where
  startTs : Nat
  endTs : Nat
  deriving DecidableEq, Repr

/-- The contract's storage. -/
structure State where
  /-- Empty where nothing is stored. -/
  connections : Address → List Bytes32
  connection : Address × Bytes32 → Option CalendarConnection
  /-- Empty where nothing is stored: an empty list is removed. -/
  busy : Address × Bytes32 → List BusyWindow

def State.empty : State where
  connections := fun _ => []
  connection := fun _ => none
  busy := fun _ => []

variable {contract : Address}

section Helpers

def loadConnection (s : State) (owner : Address) (id : Bytes32) : Outcome CalendarConnection :=
  orRefuse (s.connection (owner, id)) (.err .connectionNotFound)

def putConnection (s : State) (connection : CalendarConnection) : State :=
  { s with
    connection := Function.update s.connection (connection.owner, connection.id) (some connection) }

def putBusy (s : State) (owner : Address) (id : Bytes32) (windows : List BusyWindow) : State :=
  { s with busy := Function.update s.busy (owner, id) windows }

def requireScope (scopes : BitVec 32) : Outcome Unit := do
  refuseIf (scopes &&& forbiddenContentScope ≠ 0 ∨ scopes &&& ~~~allowedScopes ≠ 0)
    (.err .scopeNotAllowed)
  refuseIf (scopes &&& scopeFreeBusy = 0) (.err .invalidScope)

/-- The last merged window with a later end. -/
def BusyWindow.extend (last window : BusyWindow) : BusyWindow := ⟨last.startTs, window.endTs⟩

def normalize (windows : List BusyWindow) : List BusyWindow :=
  (selectionSort BusyWindow.startTs windows).foldl
    (pushSpan BusyWindow.startTs BusyWindow.endTs BusyWindow.extend) []

/-- One window of `clip_windows`. -/
def clipWindow (fromTs untilTs : Nat) (window : BusyWindow) : Option BusyWindow :=
  let start := if fromTs < window.startTs then window.startTs else fromTs
  let finish := if window.endTs < untilTs then window.endTs else untilTs
  if start < finish then some ⟨start, finish⟩ else none

def clipWindows (windows : List BusyWindow) (fromTs untilTs : Nat) : List BusyWindow :=
  windows.filterMap (clipWindow fromTs untilTs)

/-- The checks on one window of a sync. -/
def checkWindow (horizonEnd : Nat) (window : BusyWindow) : Outcome Unit := do
  refuseIf (window.startTs = 0 ∨ window.endTs ≤ window.startTs) (.err .invalidBusyWindow)
  refuseIf (maxWindowSpanSeconds < window.endTs - window.startTs) (.err .busyWindowSpanTooLarge)
  refuseIf (horizonEnd < window.endTs) (.err .invalidSyncRange)

end Helpers

section Connections

def connect (env : Env contract) (s : State) (owner : Address) (input : ConnectionInput) :
    Outcome State := do
  requireAuth env owner
  refuseIf (input.tokenCommitment = 0) (.err .invalidTokenCommitment)
  requireScope input.scopes
  refuseIf (input.expiresAt ≤ env.timestamp) (.err .invalidExpiry)
  refuseIf (s.connection (owner, input.id) ≠ none) (.err .connectionAlreadyExists)
  refuseIf (maxConnectionsPerOwner ≤ (s.connections owner).length) (.err .tooManyConnections)
  let s := putConnection s
    { id := input.id, owner, provider := input.provider, scopes := input.scopes,
      tokenCommitment := input.tokenCommitment, tokenRef := input.tokenRef, status := .active,
      connectedAt := env.timestamp, lastSyncedAt := 0, syncEpoch := 0, payloadHash := 0,
      expiresAt := input.expiresAt, degraded := false, lastErrorCode := none, revokedAt := 0 }
  pure { s with
    connections := Function.update s.connections owner (s.connections owner ++ [input.id]) }

/-- A snapshot with a newer epoch replaces the windows; the last one may be sent again. -/
def recordBusy (env : Env contract) (s : State) (owner : Address) (connectionId : Bytes32)
    (epoch : Nat) (payloadHash : Bytes32) (windows : List BusyWindow) : Outcome State := do
  requireAuth env owner
  let connection ← loadConnection s owner connectionId
  refuseIf (connection.status ≠ .active) (.err .connectionNotActive)
  let now := env.timestamp
  refuseIf (connection.expiresAt ≤ now) (.err .connectionExpired)
  if epoch = connection.syncEpoch ∧ payloadHash = connection.payloadHash then pure s
  else do
    refuseIf (epoch ≤ connection.syncEpoch) (.err .staleSyncEpoch)
    refuseIf (maxBusyWindows < windows.length) (.err .tooManyBusyWindows)
    let horizonEnd := saturatingAdd now (maxSyncHorizonDays * secondsPerDay)
    let _ ← windows.mapM (checkWindow horizonEnd)
    let normalized := normalize windows
    refuseIf (maxBusyWindows < normalized.length) (.err .tooManyBusyWindows)
    let s := putBusy s owner connectionId normalized
    pure (putConnection s { connection with
      syncEpoch := epoch
      payloadHash := payloadHash
      lastSyncedAt := now
      degraded := false
      lastErrorCode := none })

def markSyncFailed (env : Env contract) (s : State) (owner : Address) (connectionId : Bytes32)
    (errorCode : Symbol) : Outcome State := do
  requireAuth env owner
  let connection ← loadConnection s owner connectionId
  refuseIf (connection.status ≠ .active) (.err .connectionNotActive)
  pure (putConnection s { connection with degraded := true, lastErrorCode := some errorCode })

def expireConnection (env : Env contract) (s : State) (owner : Address) (connectionId : Bytes32) :
    Outcome State := do
  requireAuth env owner
  let connection ← loadConnection s owner connectionId
  refuseIf (connection.status ≠ .active) (.err .connectionNotActive)
  refuseIf (env.timestamp < connection.expiresAt) (.err .connectionNotExpired)
  let s := putConnection s { connection with
    status := .expired
    degraded := false
    lastErrorCode := none }
  pure (putBusy s owner connectionId [])

def disconnect (env : Env contract) (s : State) (owner : Address) (connectionId : Bytes32) :
    Outcome State := do
  requireAuth env owner
  let connection ← loadConnection s owner connectionId
  refuseIf (connection.status = .revoked) (.err .connectionNotActive)
  let s := putConnection s { connection with
    status := .revoked
    revokedAt := env.timestamp
    degraded := false
    lastErrorCode := none }
  pure (putBusy s owner connectionId [])

def busyWindows (s : State) (owner : Address) (connectionId : Bytes32)
    (fromTs untilTs page limit : Nat) : Outcome (List BusyWindow) := do
  refuseIf (untilTs ≤ fromTs) (.err .invalidQueryRange)
  refuseIf (maxQuerySpanSeconds < untilTs - fromTs) (.err .querySpanTooLarge)
  refuseIf (limit = 0 ∨ maxPageSize < limit ∨ maxPage < page) (.err .invalidPage)
  let connection ← loadConnection s owner connectionId
  if connection.status ≠ .active then pure []
  else
    let clipped := clipWindows (s.busy (owner, connectionId)) fromTs untilTs
    pure ((clipped.drop (page * limit)).take limit)

end Connections

/-- The state-changing entry points. -/
inductive Call where
  | connect (owner : Address) (input : ConnectionInput)
  | recordBusy (owner : Address) (connectionId : Bytes32) (epoch : Nat) (payloadHash : Bytes32)
      (windows : List BusyWindow)
  | markSyncFailed (owner : Address) (connectionId : Bytes32) (errorCode : Symbol)
  | expireConnection (owner : Address) (connectionId : Bytes32)
  | disconnect (owner : Address) (connectionId : Bytes32)
  deriving DecidableEq

structure Input (contract : Address) where
  env : Env contract
  call : Call

/-- One entry point applied to the state. -/
def execute (env : Env contract) (s : State) : Call → Outcome State
  | .connect owner input => connect env s owner input
  | .recordBusy owner connectionId epoch payloadHash windows =>
    recordBusy env s owner connectionId epoch payloadHash windows
  | .markSyncFailed owner connectionId errorCode => markSyncFailed env s owner connectionId errorCode
  | .expireConnection owner connectionId => expireConnection env s owner connectionId
  | .disconnect owner connectionId => disconnect env s owner connectionId

/-- The contract, whose failed calls the host rolls back. -/
def machine (contract : Address) : Machine State (Input contract) Unit (Abort ContractError) where
  step s i := ((), ·) <$> execute i.env s i.call

end ChainVerse.MentorshipCalendar
