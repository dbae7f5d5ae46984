import ChainVerse.Calendar.Contract
import ChainVerse.Framework.Tables

namespace ChainVerse.MentorshipCalendar

variable {contract : Address} {env : Env contract} {s s' : State} {call : Call}
  {key : Address × Bytes32}

/-- An accepted call of a run, with the stores around it. -/
abbrev Step (contract : Address) := Entry State (Input contract) Unit

/-- A snapshot that is sent for a connection. -/
structure Sync where
  epoch : Nat
  payloadHash : Bytes32
  windows : List BusyWindow
  deriving DecidableEq

/-- The snapshot that a call sends for the connection of the key. -/
def Call.sync (key : Address × Bytes32) : Call → Option Sync
  | .recordBusy owner connectionId epoch payloadHash windows =>
    if (owner, connectionId) = key then some ⟨epoch, payloadHash, windows⟩ else none
  | _ => none

/-- What is checked of the windows of a snapshot. -/
structure Importable (windows : List BusyWindow) : Prop where
  bounded : windows.length ≤ maxBusyWindows
  nonempty : ∀ window ∈ windows, window.startTs < window.endTs

/-- A snapshot repeats what the connection was synced with last. -/
def Sync.Repeats (sync : Sync) (connection : CalendarConnection) : Prop :=
  sync.epoch = connection.syncEpoch ∧ sync.payloadHash = connection.payloadHash

/-- The connection under the same owner and id. -/
def SameName (connection next : CalendarConnection) : Prop :=
  next.owner = connection.owner ∧ next.id = connection.id

/-- The connection goes on from the same sync. -/
structure SameSync (connection next : CalendarConnection) : Prop where
  name : SameName connection next
  epoch : next.syncEpoch = connection.syncEpoch
  payloadHash : next.payloadHash = connection.payloadHash

/-- A connection and its busy windows. -/
abbrev Line := Option CalendarConnection × List BusyWindow

def State.line (s : State) (key : Address × Bytes32) : Line := (s.connection key, s.busy key)

/-- What an accepted call can do to one connection. -/
inductive Move (call : Call) (key : Address × Bytes32) : Line → Line → Prop where
  | kept (line : Line) (silent : call.sync key = none) : Move call key line line
  | connected (connection : CalendarConnection) (windows : List BusyWindow)
      (silent : call.sync key = none) (name : (connection.owner, connection.id) = key)
      (active : connection.status = .active) (epoch : connection.syncEpoch = 0)
      (payloadHash : connection.payloadHash = 0) :
      Move call key (none, windows) (some connection, windows)
  | repeated (connection : CalendarConnection) (windows : List BusyWindow) (sync : Sync)
      (sent : call.sync key = some sync) (repeats : sync.Repeats connection) :
      Move call key (some connection, windows) (some connection, windows)
  | synced (connection next : CalendarConnection) (windows : List BusyWindow) (sync : Sync)
      (sent : call.sync key = some sync) (newer : connection.syncEpoch < sync.epoch)
      (importable : Importable sync.windows) (status : connection.status = .active)
      (active : next.status = .active) (name : SameName connection next)
      (repeats : sync.Repeats next) :
      Move call key (some connection, windows) (some next, normalize sync.windows)
  | failed (connection next : CalendarConnection) (windows : List BusyWindow)
      (silent : call.sync key = none) (status : next.status = connection.status)
      (same : SameSync connection next) : Move call key (some connection, windows) (some next, windows)
  | closed (connection next : CalendarConnection) (windows : List BusyWindow)
      (silent : call.sync key = none) (inactive : next.status ≠ .active)
      (same : SameSync connection next) : Move call key (some connection, windows) (some next, [])

/-- Connections are stored under their owners and ids. -/
def Books (s : State) : Prop :=
  ∀ key connection, s.connection key = some connection → (connection.owner, connection.id) = key

section Inversion

theorem Call.sync_recordBusy (owner : Address) (connectionId : Bytes32) (epoch : Nat)
    (payloadHash : Bytes32) (windows : List BusyWindow) :
    (Call.recordBusy owner connectionId epoch payloadHash windows).sync (owner, connectionId) =
      some ⟨epoch, payloadHash, windows⟩ := if_pos rfl

theorem Call.sync_other {owner : Address} {connectionId : Bytes32} (h : key ≠ (owner, connectionId))
    (epoch : Nat) (payloadHash : Bytes32) (windows : List BusyWindow) :
    (Call.recordBusy owner connectionId epoch payloadHash windows).sync key = none :=
  if_neg h.symm

/-- A write to one line moves that one and keeps the others. -/
theorem Move.write {written : Address × Bytes32} {next : Line}
    (hconnection : s'.connection = Function.update s.connection written next.1)
    (hbusy : s'.busy = Function.update s.busy written next.2)
    (hothers : ∀ key, key ≠ written → call.sync key = none)
    (hmove : Move call written (s.line written) next) (key : Address × Bytes32) :
    Move call key (s.line key) (s'.line key) := by
  by_cases hsame : key = written
  · subst hsame
    have hnext : s'.line key = next := by
      unfold State.line
      rw [hconnection, hbusy, Function.update_self, Function.update_self]
    rwa [hnext]
  · have hline : s'.line key = s.line key := by
      unfold State.line
      rw [hconnection, hbusy, Function.update_of_ne hsame, Function.update_of_ne hsame]
    rw [hline]
    exact .kept _ (hothers key hsame)

theorem recordBusy_move {owner : Address} {connectionId : Bytes32} {epoch : Nat}
    {payloadHash : Bytes32} {windows : List BusyWindow} (hs : Books s)
    (h : recordBusy env s owner connectionId epoch payloadHash windows = .ok s')
    (key : Address × Bytes32) :
    Move (.recordBusy owner connectionId epoch payloadHash windows) key (s.line key) (s'.line key) := by
  simp only [recordBusy, loadConnection, bind_eq_ok, exists_unit, orRefuse_eq_ok, refuseIf_eq_ok,
    not_not] at h
  obtain ⟨_, connection, hfound, hactive, _, h⟩ := h
  have hline : s.line (owner, connectionId) = (some connection, s.busy (owner, connectionId)) := by
    unfold State.line
    rw [hfound]
  split_ifs at h with hrepeats
  · obtain rfl := pure_eq_ok.mp h
    by_cases hkey : key = (owner, connectionId)
    · subst hkey
      rw [hline]
      exact .repeated connection _ ⟨epoch, payloadHash, windows⟩ (Call.sync_recordBusy ..) hrepeats
    · exact .kept _ (Call.sync_other hkey ..)
  · simp only [bind_eq_ok, exists_unit, refuseIf_eq_ok, pure_eq_ok, not_le, not_lt] at h
    obtain ⟨hnewer, hbounded, _, hchecked, _, rfl⟩ := h
    have himportable : Importable windows := by
      refine ⟨hbounded, fun window hwindow => ?_⟩
      obtain ⟨u, hcheck⟩ := exists_mapM_eq_ok.mp ⟨_, hchecked⟩ window hwindow
      simp only [checkWindow, bind_eq_ok, exists_unit, refuseIf_eq_ok, not_or, not_le] at hcheck
      exact hcheck.1.2
    have hid := hs _ connection hfound
    let next : CalendarConnection := { connection with
      syncEpoch := epoch
      payloadHash := payloadHash
      lastSyncedAt := env.timestamp
      degraded := false
      lastErrorCode := none }
    apply @Move.write s _ _ (owner, connectionId) (some next, normalize windows)
    · rw [← hid]
      rfl
    · rfl
    · exact fun other hother => Call.sync_other hother ..
    · rw [hline]
      exact .synced connection next _ ⟨epoch, payloadHash, windows⟩ (Call.sync_recordBusy ..) hnewer
        himportable hactive hactive ⟨rfl, rfl⟩ ⟨rfl, rfl⟩

theorem step_move {i : Input contract} (hs : Books s) (h : (machine contract).step s i = .ok ((), s'))
    (key : Address × Bytes32) : Move i.call key (s.line key) (s'.line key) := by
  obtain ⟨env, call⟩ := i
  simp only [machine, map_eq_ok, Prod.mk.injEq, true_and] at h
  obtain ⟨_, h, rfl⟩ := h
  cases call with
  | recordBusy => exact recordBusy_move hs h key
  | connect owner input =>
    simp only [execute, connect, bind_eq_ok, exists_unit, refuseIf_eq_ok, pure_eq_ok, not_not] at h
    obtain ⟨_, _, _, _, hnone, _, rfl⟩ := h
    let connection : CalendarConnection := ⟨input.id, owner, input.provider, input.scopes,
      input.tokenCommitment, input.tokenRef, .active, env.timestamp, 0, 0, 0, input.expiresAt, false,
      none, 0⟩
    refine @Move.write s _ (.connect owner input) (owner, input.id)
      (some connection, s.busy (owner, input.id)) ?_ ?_ (fun _ _ => rfl) ?_ key
    · rfl
    · exact (Function.update_eq_self _ _).symm
    · unfold State.line
      rw [hnone]
      exact .connected connection _ rfl rfl rfl rfl rfl
  | markSyncFailed owner connectionId errorCode =>
    simp only [execute, markSyncFailed, loadConnection, bind_eq_ok, exists_unit, orRefuse_eq_ok,
      pure_eq_ok] at h
    obtain ⟨_, connection, hfound, _, rfl⟩ := h
    have hid := hs _ connection hfound
    let next : CalendarConnection := { connection with
      degraded := true
      lastErrorCode := some errorCode }
    refine @Move.write s _ (.markSyncFailed owner connectionId errorCode) (owner, connectionId)
      (some next, s.busy (owner, connectionId)) ?_ ?_ (fun _ _ => rfl) ?_ key
    · rw [← hid]
      rfl
    · exact (Function.update_eq_self _ _).symm
    · unfold State.line
      rw [hfound]
      exact .failed connection next _ rfl rfl ⟨⟨rfl, rfl⟩, rfl, rfl⟩
  | expireConnection owner connectionId =>
    simp only [execute, expireConnection, loadConnection, bind_eq_ok, exists_unit, orRefuse_eq_ok,
      pure_eq_ok] at h
    obtain ⟨_, connection, hfound, _, _, rfl⟩ := h
    have hid := hs _ connection hfound
    let next : CalendarConnection := { connection with
      status := .expired
      degraded := false
      lastErrorCode := none }
    have hinactive : next.status ≠ .active := by
      show ConnectionStatus.expired ≠ .active
      decide
    refine @Move.write s _ (.expireConnection owner connectionId) (owner, connectionId) (some next, [])
      ?_ rfl (fun _ _ => rfl) ?_ key
    · rw [← hid]
      rfl
    · unfold State.line
      rw [hfound]
      exact .closed connection next _ rfl hinactive ⟨⟨rfl, rfl⟩, rfl, rfl⟩
  | disconnect owner connectionId =>
    simp only [execute, disconnect, loadConnection, bind_eq_ok, exists_unit, orRefuse_eq_ok,
      pure_eq_ok] at h
    obtain ⟨_, connection, hfound, _, rfl⟩ := h
    have hid := hs _ connection hfound
    let next : CalendarConnection := { connection with
      status := .revoked
      revokedAt := env.timestamp
      degraded := false
      lastErrorCode := none }
    have hinactive : next.status ≠ .active := by
      show ConnectionStatus.revoked ≠ .active
      decide
    refine @Move.write s _ (.disconnect owner connectionId) (owner, connectionId) (some next, []) ?_ rfl
      (fun _ _ => rfl) ?_ key
    · rw [← hid]
      rfl
    · unfold State.line
      rw [hfound]
      exact .closed connection next _ rfl hinactive ⟨⟨rfl, rfl⟩, rfl, rfl⟩

theorem books_empty : Books State.empty := fun _ _ h => absurd h (Option.some_ne_none _).symm

/-- Connections stay under their owners and ids. -/
theorem step_books {i : Input contract} (hs : Books s)
    (h : (machine contract).step s i = .ok ((), s')) : Books s' := by
  intro key connection hrow
  have hrenamed : ∀ {stored : CalendarConnection}, s.connection key = some stored →
      SameName stored connection → (connection.owner, connection.id) = key := by
    intro stored hstored hname
    rw [hname.1, hname.2]
    exact hs key stored hstored
  have hmove := step_move hs h key
  generalize hold : s.line key = line at hmove
  generalize hnew : s'.line key = line' at hmove
  have hafter : line'.1 = some connection := by rw [← hnew]; exact hrow
  have hbefore : s.connection key = line.1 := by rw [← hold]; rfl
  cases hmove with
  | kept => exact hs key connection (hbefore.trans hafter)
  | connected _ _ _ hname =>
    cases hafter
    exact hname
  | repeated => exact hs key connection (hbefore.trans hafter)
  | synced stored _ _ _ _ _ _ _ _ hname =>
    cases hafter
    exact hrenamed hbefore hname
  | failed stored _ _ _ _ hsame =>
    cases hafter
    exact hrenamed hbefore hsame.name
  | closed stored _ _ _ _ hsame =>
    cases hafter
    exact hrenamed hbefore hsame.name

theorem run_books (is : List (Input contract)) : Books ((machine contract).run State.empty is) :=
  Machine.run_invariant books_empty (fun _ _ _ _ hs h => step_books hs h) is

end Inversion

end ChainVerse.MentorshipCalendar
