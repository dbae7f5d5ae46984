import ChainVerse.Calendar.Steps
import ChainVerse.Framework.Listings

namespace ChainVerse.MentorshipCalendar

variable {contract : Address} {s s' : State} {key : Address × Bytes32} {windows : List BusyWindow}
  {es : List (Step contract)}

/-- The instants that some window of the list contains. -/
abbrev instants (windows : List BusyWindow) : Set Nat :=
  covered BusyWindow.startTs BusyWindow.endTs windows

/-- Windows in order, none of them empty, with a gap between any two. -/
abbrev Gapped (windows : List BusyWindow) : Prop :=
  Separated BusyWindow.startTs BusyWindow.endTs windows

section Normalization

theorem extend_joins : Joins BusyWindow.startTs BusyWindow.endTs BusyWindow.extend :=
  ⟨fun _ _ => rfl, fun _ _ => rfl⟩

theorem normalize_spec (h : ∀ window ∈ windows, window.startTs < window.endTs) :
    Gapped (normalize windows) ∧ instants (normalize windows) = instants windows := by
  have hperm := selectionSort_perm BusyWindow.startTs windows
  have hsorted : ∀ window ∈ selectionSort BusyWindow.startTs windows,
      window.startTs < window.endTs :=
    fun window hwindow => h window (hperm.mem_iff.mp hwindow)
  obtain ⟨hgapped, hinstants⟩ := coalesce_spec extend_joins hsorted (selectionSort_sorted windows)
  exact ⟨hgapped, hinstants.trans (covered_perm hperm)⟩

/-- Whatever the windows are, normalizing them once more changes nothing. -/
theorem normalize_normalize (windows : List BusyWindow) :
    normalize (normalize windows) = normalize windows := by
  have hmerged : Merged BusyWindow.startTs BusyWindow.endTs (normalize windows) :=
    merged_foldl extend_joins merged_nil (selectionSort_sorted windows)
      fun _ hnil => absurd hnil List.not_mem_nil
  calc
    normalize (normalize windows) = (normalize windows).foldl
        (pushSpan BusyWindow.startTs BusyWindow.endTs BusyWindow.extend) [] :=
      congrArg (List.foldl _ []) (selectionSort_of_sorted hmerged.sorted)
    _ = normalize windows := hmerged.foldl_eq

theorem normalize_length (windows : List BusyWindow) :
    (normalize windows).length ≤ windows.length := by
  have hlength := foldl_pushSpan_length BusyWindow.startTs BusyWindow.endTs BusyWindow.extend []
    (selectionSort BusyWindow.startTs windows)
  rw [(selectionSort_perm _ windows).length_eq, List.length_nil, Nat.zero_add] at hlength
  exact hlength

end Normalization

section Queries

variable {fromTs untilTs page limit : Nat} {part : List BusyWindow}

theorem clipWindow_eq (window : BusyWindow) : clipWindow fromTs untilTs window =
    if max window.startTs fromTs < min window.endTs untilTs then
      some ⟨max window.startTs fromTs, min window.endTs untilTs⟩ else none := by
  have hstart : (if fromTs < window.startTs then window.startTs else fromTs) =
      max window.startTs fromTs := by
    split_ifs <;> omega
  have hfinish : (if window.endTs < untilTs then window.endTs else untilTs) =
      min window.endTs untilTs := by
    split_ifs <;> omega
  unfold clipWindow
  rw [hstart, hfinish]

theorem clipWindow_spec (window : BusyWindow) :
    Gapped (clipWindow fromTs untilTs window).toList ∧
      instants (clipWindow fromTs untilTs window).toList =
        instants [window] ∩ Set.Ico fromTs untilTs := by
  rw [clipWindow_eq]
  split_ifs with hnonempty
  · refine ⟨separated_singleton hnonempty, ?_⟩
    ext t
    simp only [Option.toList_some, instants, mem_covered_singleton, Set.mem_inter_iff, Set.mem_Ico]
    omega
  · refine ⟨separated_nil, ?_⟩
    ext t
    rw [Option.toList_none, instants, covered_nil]
    simp only [mem_covered_singleton, Set.mem_inter_iff, Set.mem_Ico, Set.mem_empty_iff_false,
      false_iff]
    omega

theorem clipWindows_spec (h : Gapped windows) : Gapped (clipWindows windows fromTs untilTs) ∧
    instants (clipWindows windows fromTs untilTs) = instants windows ∩ Set.Ico fromTs untilTs := by
  unfold clipWindows
  rw [List.filterMap_eq_flatMap_toList]
  exact h.restrict fun window _ => clipWindow_spec window

theorem clipWindows_length : (clipWindows windows fromTs untilTs).length ≤ windows.length :=
  List.length_filterMap_le _ _

/-- The pages of a query, put together, contain the instants of the query at which there is some
window of the list, and nothing else. -/
def Exact (s : State) (key : Address × Bytes32) (windows : List BusyWindow) : Prop :=
  ∀ fromTs untilTs page limit part,
    busyWindows s key.1 key.2 fromTs untilTs page limit = .ok part →
      ∃ pages : Nat → List BusyWindow,
        (∀ page ≤ maxPage,
          busyWindows s key.1 key.2 fromTs untilTs page limit = .ok (pages page)) ∧
        Gapped ((List.range (maxPage + 1)).flatMap pages) ∧
        instants ((List.range (maxPage + 1)).flatMap pages) =
          Set.Ico fromTs untilTs ∩ instants windows

theorem busyWindows_eq_ok {connection : CalendarConnection}
    (hfound : s.connection key = some connection) (hactive : connection.status = .active) :
    busyWindows s key.1 key.2 fromTs untilTs page limit = .ok part ↔
      (fromTs < untilTs ∧ untilTs - fromTs ≤ maxQuerySpanSeconds ∧ limit ≠ 0 ∧
        limit ≤ maxPageSize) ∧ page ≤ maxPage ∧
        ((clipWindows (s.busy key) fromTs untilTs).drop (page * limit)).take limit = part := by
  have hfound' : s.connection (key.1, key.2) = some connection := hfound
  simp only [busyWindows, loadConnection, hfound', bind_eq_ok, exists_unit, refuseIf_eq_ok,
    orRefuse_eq_ok, Option.some.injEq, exists_eq_left', hactive, ne_eq, not_true_eq_false, if_false,
    pure_eq_ok, not_le, not_lt, not_or, and_assoc]

/-- The pages of an active connection whose windows are those of a snapshot, normalized. -/
theorem exact_of_normalize {connection : CalendarConnection}
    (hfound : s.connection key = some connection) (hactive : connection.status = .active)
    (hbusy : s.busy key = normalize windows) (himportable : Importable windows) :
    Exact s key windows := by
  intro fromTs untilTs page limit part haccepted
  obtain ⟨hgapped, hinstants⟩ := normalize_spec himportable.nonempty
  obtain ⟨hclipped, hcut⟩ := @clipWindows_spec _ fromTs untilTs hgapped
  obtain ⟨hquery, _⟩ := (busyWindows_eq_ok hfound hactive).mp haccepted
  rw [← hbusy] at hclipped hcut
  have hlength : (clipWindows (s.busy key) fromTs untilTs).length ≤ (maxPage + 1) * limit := by
    calc
      (clipWindows (s.busy key) fromTs untilTs).length ≤ (s.busy key).length := clipWindows_length
      _ ≤ windows.length := by
        rw [hbusy]
        exact normalize_length windows
      _ ≤ maxBusyWindows := himportable.bounded
      _ ≤ (maxPage + 1) * 1 := by decide
      _ ≤ (maxPage + 1) * limit := Nat.mul_le_mul_left _ (Nat.pos_of_ne_zero hquery.2.2.1)
  refine ⟨fun n => ((clipWindows (s.busy key) fromTs untilTs).drop (n * limit)).take limit, ?_, ?_⟩
  · exact fun n hn => (busyWindows_eq_ok hfound hactive).mpr ⟨hquery, hn, rfl⟩
  · rw [flatMap_pages, List.take_of_length_le hlength]
    refine ⟨hclipped, ?_⟩
    rw [hcut, hbusy, hinstants, Set.inter_comm]

end Queries

section Runs

/-- The windows that a call imports as a new snapshot of the connection. -/
def importedBy (key : Address × Bytes32) (e : Step contract) : Option (List BusyWindow) :=
  match e.input.call.sync key, e.pre.connection key with
  | some sync, some connection =>
    if connection.syncEpoch < sync.epoch then some sync.windows else none
  | _, _ => none

/-- The windows that were imported last; none before the first import. -/
def imported (key : Address × Bytes32) (es : List (Step contract)) : List BusyWindow :=
  ((es.filterMap (importedBy key)).getLast?).getD []

theorem imported_snoc (key : Address × Bytes32) (es : List (Step contract)) (e : Step contract) :
    imported key (es ++ [e]) = (importedBy key e).getD (imported key es) := by
  unfold imported
  rw [List.filterMap_append]
  rcases hlast : importedBy key e with _ | windows
  · simp [hlast]
  · simp [hlast]

/-- The windows of a connection, as long as it is active, are those of the last import, normalized. -/
structure Current (es : List (Step contract)) (s : State) (key : Address × Bytes32) : Prop where
  unconnected : s.connection key = none → s.busy key = [] ∧ imported key es = []
  active : ∀ connection, s.connection key = some connection → connection.status = .active →
    s.busy key = normalize (imported key es) ∧ Importable (imported key es)

theorem importable_nil : Importable [] :=
  ⟨Nat.zero_le _, fun _ hnil => absurd hnil List.not_mem_nil⟩

theorem importedBy_silent {e : Step contract} (h : e.input.call.sync key = none) :
    importedBy key e = none := by
  unfold importedBy
  rw [h]

/-- A connection that is stored has only its windows to account for, and only while it is active. -/
theorem current_of_stored {connection : CalendarConnection} (hfound : s.connection key = some connection)
    (hactive : connection.status = .active →
      s.busy key = normalize (imported key es) ∧ Importable (imported key es)) :
    Current es s key := by
  constructor
  · intro hnone
    rw [hfound] at hnone
    cases hnone
  · intro stored hstored hrunning
    rw [hfound, Option.some.injEq] at hstored
    exact hactive (hstored ▸ hrunning)

theorem Current.carry {es' : List (Step contract)} (hs : Current es s key)
    (hline : s'.line key = s.line key) (himported : imported key es' = imported key es) :
    Current es' s' key := by
  obtain ⟨hconnection, hbusy⟩ := Prod.mk.inj hline
  constructor
  · rw [hconnection, hbusy, himported]
    exact hs.unconnected
  · rw [hconnection, hbusy, himported]
    exact hs.active

theorem Current.step {i : Input contract} (hbooks : Books s) (hs : Current es s key)
    (h : (machine contract).step s i = .ok ((), s')) : Current (es ++ [⟨s, i, (), s'⟩]) s' key := by
  have hmove := step_move hbooks h key
  have hsnoc := imported_snoc key es ⟨s, i, (), s'⟩
  have hsilent : i.call.sync key = none → imported key (es ++ [⟨s, i, (), s'⟩]) = imported key es := by
    intro hnone
    rw [hsnoc, importedBy_silent hnone]
    rfl
  generalize hold : s.line key = line at hmove
  generalize hnew : s'.line key = line' at hmove
  cases hmove with
  | kept _ hnone => exact hs.carry (hnew.trans hold.symm) (hsilent hnone)
  | connected connection windows hnone =>
    obtain ⟨hconnection, hbusy⟩ := Prod.mk.inj hold
    obtain ⟨hconnection', hbusy'⟩ := Prod.mk.inj hnew
    obtain ⟨hempty, himported⟩ := hs.unconnected hconnection
    apply current_of_stored hconnection'
    intro _
    rw [hbusy', ← hbusy, hempty, hsilent hnone, himported]
    exact ⟨rfl, importable_nil⟩
  | repeated connection windows sync hsent hrepeats =>
    apply hs.carry (hnew.trans hold.symm)
    have hfound : s.connection key = some connection := congrArg Prod.fst hold
    rw [hsnoc]
    unfold importedBy
    simp only [hsent, hfound]
    rw [if_neg (by rw [hrepeats.1]; exact Nat.lt_irrefl _)]
    rfl
  | synced connection next windows sync hsent hnewer himportable =>
    obtain ⟨hconnection, _⟩ := Prod.mk.inj hold
    obtain ⟨hconnection', hbusy'⟩ := Prod.mk.inj hnew
    have himports : imported key (es ++ [⟨s, i, (), s'⟩]) = sync.windows := by
      rw [hsnoc]
      unfold importedBy
      simp only [hsent, hconnection]
      rw [if_pos hnewer]
      rfl
    apply current_of_stored hconnection'
    intro _
    rw [hbusy', himports]
    exact ⟨rfl, himportable⟩
  | failed connection next windows hnone hstatus =>
    obtain ⟨hconnection, hbusy⟩ := Prod.mk.inj hold
    obtain ⟨hconnection', hbusy'⟩ := Prod.mk.inj hnew
    apply current_of_stored hconnection'
    intro hrunning
    rw [hstatus] at hrunning
    rw [hbusy', ← hbusy, hsilent hnone]
    exact hs.active connection hconnection hrunning
  | closed connection next windows _ hinactive =>
    obtain ⟨hconnection', _⟩ := Prod.mk.inj hnew
    apply current_of_stored hconnection'
    intro hrunning
    exact absurd hrunning hinactive

theorem run_current (is : List (Input contract)) (key : Address × Bytes32) :
    Current ((machine contract).journal State.empty is) ((machine contract).run State.empty is) key := by
  refine (@Machine.run_journal_invariant _ _ _ _ (machine contract)
    (fun t es => Books t ∧ Current es t key) State.empty ⟨books_empty, ?_⟩ ?_ is).2
  · refine ⟨fun _ => ⟨rfl, rfl⟩, ?_⟩
    intro connection hnone
    cases hnone
  · exact fun es s i o s' hs h => ⟨step_books hs.1 h, hs.2.step hs.1 h⟩

theorem run_exact (is : List (Input contract)) {connection : CalendarConnection}
    (hfound : ((machine contract).run State.empty is).connection key = some connection)
    (hactive : connection.status = .active) :
    Exact ((machine contract).run State.empty is) key
      (imported key ((machine contract).journal State.empty is)) := by
  obtain ⟨hbusy, himportable⟩ := (run_current is key).active connection hfound hactive
  exact exact_of_normalize hfound hactive hbusy himportable

/-- A connection is active after an import. -/
theorem active_of_import {e : Step contract} (hbooks : Books e.pre)
    (hstep : (machine contract).step e.pre e.input = .ok ((), e.post))
    (himports : importedBy key e = some windows) :
    ∃ connection, e.post.connection key = some connection ∧ connection.status = .active := by
  have hmove := step_move hbooks hstep key
  unfold importedBy at himports
  split at himports
  · next sync connection hsync hconnection =>
    split_ifs at himports with hnewer
    generalize hold : e.pre.line key = line at hmove
    generalize hnew : e.post.line key = line' at hmove
    cases hmove with
    | kept _ hnone => exact absurd (hsync.symm.trans hnone) (Option.some_ne_none sync)
    | connected _ _ hnone => exact absurd (hsync.symm.trans hnone) (Option.some_ne_none sync)
    | failed _ _ _ hnone => exact absurd (hsync.symm.trans hnone) (Option.some_ne_none sync)
    | closed _ _ _ hnone => exact absurd (hsync.symm.trans hnone) (Option.some_ne_none sync)
    | repeated stored _ sent hsent hrepeats =>
      obtain rfl : sent = sync := Option.some.inj (hsent.symm.trans hsync)
      have hstored : e.pre.connection key = some stored := congrArg Prod.fst hold
      obtain rfl : stored = connection := Option.some.inj (hstored.symm.trans hconnection)
      rw [hrepeats.1] at hnewer
      exact absurd hnewer (Nat.lt_irrefl _)
    | synced _ next _ _ _ _ _ _ hrunning => exact ⟨next, congrArg Prod.fst hnew, hrunning⟩
  · cases himports

/-- A sync that repeats the last one is accepted and changes nothing. -/
theorem recordBusy_repeated {env : Env contract} {connection : CalendarConnection}
    {windows : List BusyWindow}
    (hfound : s.connection key = some connection) (hactive : connection.status = .active)
    (hsigned : env.signers key.1 = true) (hlive : env.timestamp < connection.expiresAt) :
    recordBusy env s key.1 key.2 connection.syncEpoch connection.payloadHash windows = .ok s := by
  have hfound' : s.connection (key.1, key.2) = some connection := hfound
  simp only [recordBusy, loadConnection, hfound', bind_eq_ok, exists_unit, requireAuth_eq_ok, hsigned,
    orRefuse_eq_ok, Option.some.injEq, exists_eq_left', refuseIf_eq_ok, hactive, ne_eq,
    not_true_eq_false, not_false_eq_true, not_le, hlive, and_self, if_true, pure_eq_ok]

/-- The pages of an active connection are exact for the windows imported last, and so, right after any
of the imports, for the windows that are imported. What is normalized stays as it is, and a sync that
repeats the stored epoch and hash is accepted without effect, whatever its windows. -/
theorem run_imports (is : List (Input contract)) :
    let s := (machine contract).run State.empty is
    let es := (machine contract).journal State.empty is
    (∀ e ∈ es, ∀ key windows, importedBy key e = some windows → Exact e.post key windows) ∧
      (∀ key connection, s.connection key = some connection → connection.status = .active →
        Exact s key (imported key es)) ∧
      (∀ windows, normalize (normalize windows) = normalize windows) ∧
      ∀ (env : Env contract) key connection windows, s.connection key = some connection →
        connection.status = .active → env.signers key.1 = true → env.timestamp < connection.expiresAt →
          recordBusy env s key.1 key.2 connection.syncEpoch connection.payloadHash windows = .ok s := by
  intro s es
  refine ⟨?_, fun key connection hfound hactive => run_exact is hfound hactive, normalize_normalize, ?_⟩
  · intro e he key windows himports
    obtain ⟨earlier, later, hsplit⟩ := List.append_of_mem he
    obtain ⟨js, _, hrun, hjournal⟩ := Machine.journal_upto hsplit
    have hstep := (Machine.journal_step he).1
    have hbooks := Machine.journal_found run_books he
    obtain ⟨connection, hfound, hactive⟩ := active_of_import hbooks hstep himports
    rw [← hrun] at hfound ⊢
    have hexact := run_exact js hfound hactive
    rwa [hjournal, imported_snoc, himports] at hexact
  · intro env key connection windows hfound hactive hsigned hlive
    exact recordBusy_repeated hfound hactive hsigned hlive

/-- A connection is made. -/
def sampleConnected : List (Input ⟨0⟩) :=
  [⟨.sample, .connect ⟨1⟩ ⟨7, .google, 1, 5, 6, 1000⟩⟩]

/-- A snapshot with one window is imported. -/
def sampleSynced : List (Input ⟨0⟩) :=
  sampleConnected ++ [⟨.sample, .recordBusy ⟨1⟩ 7 1 11 [⟨20, 30⟩]⟩]

/-- The same epoch and hash with another window are accepted as a repetition, and the window that was
imported before is still shown. -/
theorem sampleSynced_unimported : ¬∀ (is : List (Input ⟨0⟩)) (env : Env ⟨0⟩) (owner : Address)
    (connectionId : Bytes32) (epoch : Nat) (payloadHash : Bytes32) (windows : List BusyWindow)
    (s' : State), recordBusy env ((machine ⟨0⟩).run State.empty is) owner connectionId epoch payloadHash
      windows = .ok s' → Exact s' (owner, connectionId) windows := by
  intro hall
  let s := (machine ⟨0⟩).run State.empty sampleSynced
  have hrepeated : recordBusy Env.sample s ⟨1⟩ 7 1 11 [⟨40, 50⟩] = .ok s := by rfl
  have hshown : busyWindows s ⟨1⟩ 7 10 60 0 1 = .ok [⟨20, 30⟩] := by rfl
  obtain ⟨pages, hpages, _, hinstants⟩ := hall sampleSynced .sample ⟨1⟩ 7 1 11 [⟨40, 50⟩] s hrepeated
    10 60 0 1 _ hshown
  have hfirst : pages 0 = [⟨20, 30⟩] := by
    have hanswer := hpages 0 (Nat.zero_le _)
    rw [hshown, Except.ok.injEq] at hanswer
    exact hanswer.symm
  have hin : (20 : Nat) ∈ instants ((List.range (maxPage + 1)).flatMap pages) := by
    refine ⟨⟨20, 30⟩, List.mem_flatMap.mpr ⟨0, List.mem_range.mpr (Nat.succ_pos _), ?_⟩, ?_, ?_⟩
    · rw [hfirst]
      exact List.mem_singleton_self _
    · exact Nat.le_refl 20
    · exact (by decide : 20 < 30)
  rw [hinstants] at hin
  obtain ⟨_, window, hwindow, hstart, _⟩ := hin
  obtain rfl := List.mem_singleton.mp hwindow
  exact absurd hstart (by decide)

end Runs

section Exposure

variable {contract : Address} {s s' : State} {key : Address × Bytes32} {es : List (Step contract)}
  {connection : CalendarConnection}

section Queries

/-- Some query of a connection returns a window. -/
def Exposes (s : State) (key : Address × Bytes32) : Prop :=
  ∃ fromTs untilTs page limit part,
    busyWindows s key.1 key.2 fromTs untilTs page limit = .ok part ∧ part ≠ []

/-- A connection that is not stored as active exposes nothing. -/
theorem not_exposes_of_inactive (hfound : s.connection key = some connection)
    (hinactive : connection.status ≠ .active) : ¬ Exposes s key := by
  rintro ⟨fromTs, untilTs, page, limit, part, haccepted, hsome⟩
  have hfound' : s.connection (key.1, key.2) = some connection := hfound
  simp only [busyWindows, loadConnection, hfound', bind_eq_ok, exists_unit, refuseIf_eq_ok,
    orRefuse_eq_ok, Option.some.injEq, exists_eq_left', if_pos hinactive, pure_eq_ok] at haccepted
  exact hsome haccepted.2.2.2.symm

theorem not_exposes_of_empty (hempty : s.busy key = []) : ¬ Exposes s key := by
  rintro ⟨fromTs, untilTs, page, limit, part, haccepted, hsome⟩
  have hempty' : s.busy (key.1, key.2) = [] := hempty
  simp only [busyWindows, hempty', clipWindows, List.filterMap_nil, List.drop_nil, List.take_nil,
    ite_self, bind_eq_ok, exists_unit, refuseIf_eq_ok, pure_eq_ok] at haccepted
  obtain ⟨_, _, _, _, _, hpart⟩ := haccepted
  exact hsome hpart.symm

/-- An active connection exposes the first of its windows to a query of the instant at which it
starts. -/
theorem exposes_of_window {window : BusyWindow} {windows : List BusyWindow}
    (hfound : s.connection key = some connection) (hactive : connection.status = .active)
    (hbusy : s.busy key = window :: windows) (hnonempty : window.startTs < window.endTs) :
    Exposes s key := by
  have hclipped : clipWindow window.startTs (window.startTs + 1) window =
      some ⟨window.startTs, window.startTs + 1⟩ := by
    rw [clipWindow_eq, max_self, min_eq_right (by omega), if_pos (by omega)]
  refine ⟨window.startTs, window.startTs + 1, 0, 1, [⟨window.startTs, window.startTs + 1⟩],
    (busyWindows_eq_ok hfound hactive).mpr ⟨⟨by omega, ?_, by decide, by decide⟩, by decide, ?_⟩,
    List.cons_ne_nil _ _⟩
  · rw [Nat.add_sub_cancel_left]
    decide
  · rw [hbusy, clipWindows, List.filterMap_cons_some hclipped, Nat.zero_mul, List.drop_zero,
      List.take_succ_cons, List.take_zero]

end Queries

section Runs

/-- The owner has disconnected the connection. -/
def Disconnected (es : List (Step contract)) (key : Address × Bytes32) : Prop :=
  ∃ e ∈ es, e.input.call = .disconnect key.1 key.2

/-- A connection that is stored and no longer active. -/
def Closed (s : State) (key : Address × Bytes32) : Prop :=
  ∃ connection, s.connection key = some connection ∧ connection.status ≠ .active

theorem disconnect_closes {env : Env contract} {owner : Address} {connectionId : Bytes32}
    (hs : Books s) (h : disconnect env s owner connectionId = .ok s') :
    Closed s' (owner, connectionId) := by
  simp only [disconnect, loadConnection, bind_eq_ok, exists_unit, orRefuse_eq_ok, pure_eq_ok] at h
  obtain ⟨_, connection, hfound, _, rfl⟩ := h
  let next : CalendarConnection := { connection with
    status := .revoked
    revokedAt := env.timestamp
    degraded := false
    lastErrorCode := none }
  have hrevoked : next.status ≠ .active := by
    show ConnectionStatus.revoked ≠ .active
    decide
  refine ⟨next, ?_, hrevoked⟩
  rw [← hs _ connection hfound]
  exact Function.update_self _ _ _

/-- What is closed stays closed. -/
theorem Closed.step {i : Input contract} (hbooks : Books s) (hs : Closed s key)
    (h : (machine contract).step s i = .ok ((), s')) : Closed s' key := by
  obtain ⟨stored, hstored, hinactive⟩ := hs
  have hmove := step_move hbooks h key
  generalize hold : s.line key = line at hmove
  generalize hnew : s'.line key = line' at hmove
  have hbefore : line.1 = some stored := by rw [← hold]; exact hstored
  have hafter : s'.connection key = line'.1 := by rw [← hnew]; rfl
  unfold Closed
  rw [hafter]
  cases hmove with
  | kept => exact ⟨stored, hbefore, hinactive⟩
  | connected => cases hbefore
  | repeated => exact ⟨stored, hbefore, hinactive⟩
  | synced _ _ _ _ _ _ _ hactive =>
    cases hbefore
    exact absurd hactive hinactive
  | failed _ next _ _ hstatus =>
    cases hbefore
    exact ⟨next, rfl, hstatus ▸ hinactive⟩
  | closed _ next _ _ hclosed => exact ⟨next, rfl, hclosed⟩

theorem run_closed (is : List (Input contract)) (key : Address × Bytes32)
    (h : Disconnected ((machine contract).journal State.empty is) key) :
    Closed ((machine contract).run State.empty is) key := by
  refine (@Machine.run_journal_invariant _ _ _ _ (machine contract)
    (fun t es => Books t ∧ (Disconnected es key → Closed t key)) State.empty
    ⟨books_empty, ?_⟩ ?_ is).2 h
  · rintro ⟨e, hnone, _⟩
    cases hnone
  · intro es s i o s' hs hstep
    refine ⟨step_books hs.1 hstep, ?_⟩
    rintro ⟨e, he, hcall⟩
    rcases List.mem_append.mp he with hold | hlast
    · exact (hs.2 ⟨e, hold, hcall⟩).step hs.1 hstep
    · rw [List.mem_singleton.mp hlast] at hcall
      obtain ⟨env, call⟩ := i
      dsimp only at hcall
      subst hcall
      obtain ⟨t, hdisconnect, heq⟩ := map_eq_ok.mp hstep
      obtain rfl : t = s' := congrArg Prod.snd heq
      exact disconnect_closes hs.1 hdisconnect

/-- In every reachable state and at every time, connections that have been disconnected or whose token
has expired expose nothing exactly when those that have expired are no longer stored as active or have
no windows. -/
theorem run_exposure (is : List (Input contract)) (now : Nat) :
    let s := (machine contract).run State.empty is
    let es := (machine contract).journal State.empty is
    (∀ key connection, s.connection key = some connection →
      Disconnected es key ∨ connection.expiresAt ≤ now → ¬ Exposes s key) ↔
      ∀ key connection, s.connection key = some connection → connection.expiresAt ≤ now →
        connection.status ≠ .active ∨ s.busy key = [] := by
  intro s es
  constructor
  · intro hhidden key connection hfound hexpired
    by_contra hopen
    rw [not_or, not_not] at hopen
    obtain ⟨hactive, hwindows⟩ := hopen
    obtain ⟨hbusy, himportable⟩ := (run_current is key).active connection hfound hactive
    obtain ⟨hgapped, _⟩ := normalize_spec himportable.nonempty
    rcases hlist : s.busy key with _ | ⟨window, windows⟩
    · exact hwindows hlist
    · have hmem : window ∈ normalize (imported key es) := by
        rw [← hbusy, hlist]
        exact List.mem_cons_self
      exact hhidden key connection hfound (.inr hexpired)
        (exposes_of_window hfound hactive hlist (hgapped.nonempty window hmem))
  · intro hclosed key connection hfound hgone
    rcases hgone with hdisconnected | hexpired
    · obtain ⟨stored, hstored, hinactive⟩ := run_closed is key hdisconnected
      exact not_exposes_of_inactive hstored hinactive
    · rcases hclosed key connection hfound hexpired with hinactive | hempty
      · exact not_exposes_of_inactive hfound hinactive
      · exact not_exposes_of_empty hempty

/-- A connection with a token until 15, synced at 10. -/
def sampleExpiring : List (Input ⟨0⟩) :=
  [⟨.sample, .connect ⟨1⟩ ⟨3, .google, 1, 5, 6, 15⟩⟩,
    ⟨.sample, .recordBusy ⟨1⟩ 3 1 7 [⟨100, 200⟩]⟩]

/-- Its window is still returned at 20, as at any later time. -/
theorem sampleExpiring_exposes :
    ¬ ∀ key connection,
      ((machine ⟨0⟩).run State.empty sampleExpiring).connection key = some connection →
        Disconnected ((machine ⟨0⟩).journal State.empty sampleExpiring) key ∨
          connection.expiresAt ≤ 20 →
        ¬ Exposes ((machine ⟨0⟩).run State.empty sampleExpiring) key := by
  intro hhidden
  have hfound : ((machine ⟨0⟩).run State.empty sampleExpiring).connection (⟨1⟩, 3) =
      some ⟨3, ⟨1⟩, .google, 1, 5, 6, .active, 10, 10, 1, 7, 15, false, none, 0⟩ := by
    decide +kernel
  refine hhidden (⟨1⟩, 3) _ hfound (.inr (by decide)) ?_
  exact ⟨0, 1000, 0, 10, [⟨100, 200⟩], by decide +kernel, List.cons_ne_nil _ _⟩

end Runs

end Exposure

end ChainVerse.MentorshipCalendar
