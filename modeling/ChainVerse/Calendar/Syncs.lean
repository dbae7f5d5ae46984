import ChainVerse.Calendar.Imports

namespace ChainVerse.MentorshipCalendar

variable {contract : Address} {s s' : State} {key : Address × Bytes32} {es : List (Step contract)}
  {is js : List (Input contract)} {connection : CalendarConnection}

/-- What a provider reports at one epoch. -/
structure Payload where
  hash : Bytes32
  windows : List BusyWindow
  hash_ne_zero : hash ≠ 0

instance decidableEqPayload : DecidableEq Payload := fun p q =>
  decidable_of_iff (p.hash = q.hash ∧ p.windows = q.windows) (by cases p; cases q; simp)

variable {payloads : Nat → Option Payload}

/-- A call sends nothing for the connection but one of the payloads. -/
def Delivers (payloads : Nat → Option Payload) (key : Address × Bytes32) (call : Call) : Prop :=
  ∀ sync ∈ call.sync key, ∃ payload ∈ payloads sync.epoch,
    sync.payloadHash = payload.hash ∧ sync.windows = payload.windows

/-- The payloads are delivered in any order and number, between any other calls. -/
def Delivered (payloads : Nat → Option Payload) (key : Address × Bytes32)
    (is : List (Input contract)) : Prop :=
  ∀ i ∈ is, Delivers payloads key i.call

/-- A sync at the epoch has been accepted. -/
def Accepted (es : List (Step contract)) (key : Address × Bytes32) (epoch : Nat) : Prop :=
  ∃ e ∈ es, ∃ sync ∈ e.input.call.sync key, sync.epoch = epoch

/-- The epoch is the highest at which a sync has been accepted. -/
structure Latest (es : List (Step contract)) (key : Address × Bytes32) (epoch : Nat) : Prop where
  accepted : Accepted es key epoch
  highest : ∀ earlier, Accepted es key earlier → earlier ≤ epoch

/-- What the syncs accepted so far have left of a connection. -/
inductive Tracked (payloads : Nat → Option Payload) (es : List (Step contract))
    (key : Address × Bytes32) : Line → Prop where
  | unconnected (unaccepted : ∀ epoch, ¬Accepted es key epoch) : Tracked payloads es key (none, [])
  | unsynced (connection : CalendarConnection) (windows : List BusyWindow)
      (hash : connection.payloadHash = 0) (unaccepted : ∀ epoch, ¬Accepted es key epoch)
      (current : connection.status = .active → windows = []) :
      Tracked payloads es key (some connection, windows)
  | synced (connection : CalendarConnection) (windows : List BusyWindow) (payload : Payload)
      (found : payloads connection.syncEpoch = some payload)
      (hash : connection.payloadHash = payload.hash) (latest : Latest es key connection.syncEpoch)
      (current : connection.status = .active → windows = normalize payload.windows) :
      Tracked payloads es key (some connection, windows)

section Tracking

theorem accepted_snoc {e : Step contract} {epoch : Nat} : Accepted (es ++ [e]) key epoch ↔
    Accepted es key epoch ∨ ∃ sync ∈ e.input.call.sync key, sync.epoch = epoch := by
  unfold Accepted
  constructor
  · intro ⟨e', he', hsync⟩
    rcases List.mem_append.mp he' with hold | hlast
    · exact .inl ⟨e', hold, hsync⟩
    · rw [List.mem_singleton.mp hlast] at hsync
      exact .inr hsync
  · intro h
    rcases h with ⟨e', he', hsync⟩ | hsync
    · exact ⟨e', List.mem_append_left _ he', hsync⟩
    · exact ⟨e, List.mem_concat_self, hsync⟩

/-- A call that sends nothing for the connection is no sync of it. -/
theorem accepted_silent {e : Step contract} (h : e.input.call.sync key = none) (epoch : Nat) :
    Accepted (es ++ [e]) key epoch ↔ Accepted es key epoch := by
  rw [accepted_snoc, h]
  simp

theorem accepted_sent {e : Step contract} {sync : Sync} (h : e.input.call.sync key = some sync)
    (epoch : Nat) : Accepted (es ++ [e]) key epoch ↔ Accepted es key epoch ∨ sync.epoch = epoch := by
  rw [accepted_snoc, h]
  simp

/-- What is tracked stays so as long as the same syncs have been accepted. -/
theorem Tracked.congr {es' : List (Step contract)} {line : Line} (h : Tracked payloads es key line)
    (hsame : ∀ epoch, Accepted es' key epoch ↔ Accepted es key epoch) :
    Tracked payloads es' key line := by
  have hnone : (∀ epoch, ¬Accepted es key epoch) → ∀ epoch, ¬Accepted es' key epoch :=
    fun hnone epoch haccepted => hnone epoch ((hsame epoch).mp haccepted)
  cases h with
  | unconnected hall => exact .unconnected (hnone hall)
  | unsynced connection windows hhash hall hcurrent =>
    exact .unsynced connection windows hhash (hnone hall) hcurrent
  | synced connection windows payload hfound hhash hlatest hcurrent =>
    refine .synced connection windows payload hfound hhash ?_ hcurrent
    exact ⟨(hsame _).mpr hlatest.accepted,
      fun earlier haccepted => hlatest.highest earlier ((hsame earlier).mp haccepted)⟩

/-- The line goes on from the same sync. -/
theorem Tracked.next {next : CalendarConnection} {windows windows' : List BusyWindow}
    (h : Tracked payloads es key (some connection, windows)) (hsame : SameSync connection next)
    (hactive : next.status = .active → connection.status = .active ∧ windows' = windows) :
    Tracked payloads es key (some next, windows') := by
  cases h with
  | unsynced _ _ hhash hnone hcurrent =>
    refine .unsynced next windows' (hsame.payloadHash.trans hhash) hnone fun hrunning => ?_
    obtain ⟨hbefore, rfl⟩ := hactive hrunning
    exact hcurrent hbefore
  | synced _ _ payload hfound hhash hlatest hcurrent =>
    refine .synced next windows' payload ?_ (hsame.payloadHash.trans hhash) ?_ fun hrunning => ?_
    · rw [hsame.epoch]
      exact hfound
    · rw [hsame.epoch]
      exact hlatest
    · obtain ⟨hbefore, rfl⟩ := hactive hrunning
      exact hcurrent hbefore

theorem Tracked.step {i : Input contract} (hbooks : Books s) (hdelivers : Delivers payloads key i.call)
    (hs : Tracked payloads es key (s.line key)) (h : (machine contract).step s i = .ok ((), s')) :
    Tracked payloads (es ++ [⟨s, i, (), s'⟩]) key (s'.line key) := by
  have hmove := step_move hbooks h key
  generalize s.line key = line at hmove hs
  generalize s'.line key = line' at hmove
  cases hmove with
  | kept _ hsilent => exact hs.congr (accepted_silent hsilent)
  | connected connection windows hsilent _ _ _ hhash =>
    cases hs with
    | unconnected hnone =>
      refine .unsynced connection [] hhash (fun epoch haccepted => ?_) (fun _ => rfl)
      exact hnone epoch ((accepted_silent hsilent epoch).mp haccepted)
  | repeated connection windows sync hsent hrepeats =>
    obtain ⟨payload, hpayload, hhash, _⟩ := hdelivers sync hsent
    cases hs with
    | unsynced _ _ hzero =>
      rw [hrepeats.2, hzero] at hhash
      exact absurd hhash.symm payload.hash_ne_zero
    | synced _ _ stored hfound hstored hlatest hcurrent =>
      have hagain : Accepted es key sync.epoch := by
        rw [hrepeats.1]
        exact hlatest.accepted
      refine (Tracked.synced connection windows stored hfound hstored hlatest hcurrent).congr ?_
      intro epoch
      rw [accepted_sent hsent]
      exact ⟨fun h => h.elim id fun heq => heq ▸ hagain, .inl⟩
  | synced connection next windows sync hsent hnewer _ _ _ _ hrepeats =>
    obtain ⟨payload, hpayload, hhash, hwindows⟩ := hdelivers sync hsent
    rw [hwindows]
    refine .synced next _ payload ?_ (hrepeats.2.symm.trans hhash) ?_ fun _ => rfl
    · rw [← hrepeats.1]
      exact hpayload
    · rw [← hrepeats.1]
      refine ⟨(accepted_sent hsent _).mpr (.inr rfl), fun earlier haccepted => ?_⟩
      rcases (accepted_sent hsent earlier).mp haccepted with hbefore | rfl
      · cases hs with
        | unsynced _ _ _ hnone => exact absurd hbefore (hnone earlier)
        | synced _ _ _ _ _ hlatest =>
          have hle := hlatest.highest earlier hbefore
          omega
      · exact Nat.le_refl _
  | failed connection next windows hsilent hstatus hsame =>
    refine (hs.congr (accepted_silent hsilent)).next hsame fun hrunning => ?_
    exact ⟨hstatus ▸ hrunning, rfl⟩
  | closed connection next windows hsilent hinactive hsame =>
    exact (hs.congr (accepted_silent hsilent)).next hsame fun hrunning => absurd hrunning hinactive

end Tracking

section Runs

theorem run_tracked (h : Delivered payloads key is) :
    Tracked payloads ((machine contract).journal State.empty is) key
      (((machine contract).run State.empty is).line key) := by
  have hlines : ∀ e ∈ (machine contract).journal State.empty is,
      Delivers payloads key e.input.call := by
    intro e he
    obtain ⟨_, js, hearlier, _⟩ := Machine.journal_prefix he
    exact h e.input (hearlier.subset (List.mem_append_right js (List.mem_singleton_self _)))
  refine (@Machine.run_journal_invariant _ _ _ _ (machine contract)
    (fun t es => Books t ∧ ((∀ e ∈ es, Delivers payloads key e.input.call) →
      Tracked payloads es key (t.line key))) State.empty ⟨books_empty, ?_⟩ ?_ is).2 hlines
  · refine fun _ => .unconnected ?_
    rintro epoch ⟨e, hnone, _⟩
    cases hnone
  · intro es s i o s' hs hstep
    refine ⟨step_books hs.1 hstep, fun hall => ?_⟩
    rw [List.forall_mem_append, List.forall_mem_singleton] at hall
    exact (hs.2 hall.1).step hs.1 hall.2 hstep

/-- The epoch of a connection never decreases. -/
theorem run_epoch (hbooks : Books s) (hfound : s.connection key = some connection)
    (is : List (Input contract)) : ∃ later, ((machine contract).run s is).connection key = some later ∧
      connection.syncEpoch ≤ later.syncEpoch := by
  refine (@Machine.run_invariant _ _ _ _ (machine contract) (fun t => Books t ∧ ∃ later,
    t.connection key = some later ∧ connection.syncEpoch ≤ later.syncEpoch) s
    ⟨hbooks, connection, hfound, Nat.le_refl _⟩ ?_ is).2
  intro t i o t' ht hstep
  obtain ⟨hbooks, known, hknown, hle⟩ := ht
  refine ⟨step_books hbooks hstep, ?_⟩
  have hmove := step_move hbooks hstep key
  generalize hold : t.line key = line at hmove
  generalize hnew : t'.line key = line' at hmove
  have hbefore : line.1 = some known := by rw [← hold]; exact hknown
  have hafter : t'.connection key = line'.1 := by rw [← hnew]; rfl
  rw [hafter]
  cases hmove with
  | kept => exact ⟨known, hbefore, hle⟩
  | connected => cases hbefore
  | repeated => exact ⟨known, hbefore, hle⟩
  | synced stored next _ sync _ hnewer _ _ _ _ hrepeats =>
    cases hbefore
    refine ⟨next, rfl, ?_⟩
    rw [← hrepeats.1]
    omega
  | failed stored next _ _ _ hsame =>
    cases hbefore
    exact ⟨next, rfl, hsame.epoch ▸ hle⟩
  | closed stored next _ _ _ hsame =>
    cases hbefore
    exact ⟨next, rfl, hsame.epoch ▸ hle⟩

/-- An active connection has the windows of the highest epoch accepted, normalized. -/
theorem run_latest (h : Delivered payloads key is)
    (hfound : ((machine contract).run State.empty is).connection key = some connection)
    (hactive : connection.status = .active) :
    let s := (machine contract).run State.empty is
    let es := (machine contract).journal State.empty is
    (∀ epoch, ¬Accepted es key epoch) ∧ s.busy key = [] ∨
      ∃ payload, Latest es key connection.syncEpoch ∧
        payloads connection.syncEpoch = some payload ∧ connection.payloadHash = payload.hash ∧
        s.busy key = normalize payload.windows := by
  intro s es
  have htracked := run_tracked h
  generalize hline : ((machine contract).run State.empty is).line key = line at htracked
  obtain ⟨hconnection, hbusy⟩ := Prod.mk.inj hline
  cases htracked with
  | unconnected =>
    rw [hfound] at hconnection
    cases hconnection
  | unsynced stored windows _ hnone hcurrent =>
    obtain rfl : connection = stored := Option.some.inj (hfound.symm.trans hconnection)
    exact .inl ⟨hnone, hbusy.trans (hcurrent hactive)⟩
  | synced stored windows payload hpayload hhash hlatest hcurrent =>
    obtain rfl : connection = stored := Option.some.inj (hfound.symm.trans hconnection)
    exact .inr ⟨payload, hlatest, hpayload, hhash, hbusy.trans (hcurrent hactive)⟩

theorem Latest.unique {epoch epoch' : Nat} (h : Latest es key epoch) (h' : Latest es key epoch') :
    epoch = epoch' :=
  Nat.le_antisymm (h'.highest epoch h.accepted) (h.highest epoch' h'.accepted)

/-- Payloads of distinct epochs are delivered to an active connection in any order, any number of times
and between any other calls. Its windows are always those of the highest epoch accepted so far,
normalized, its epoch has never decreased, and the sync accepted last may be repeated without effect.
Wherever else the payloads are delivered and the same epoch is the highest accepted, the windows are the
same. -/
theorem run_converges (hdelivered : Delivered payloads key is)
    (hfound : ((machine contract).run State.empty is).connection key = some connection)
    (hactive : connection.status = .active) :
    let s := (machine contract).run State.empty is
    let es := (machine contract).journal State.empty is
    ((∀ epoch, ¬Accepted es key epoch) ∧ s.busy key = [] ∨
      ∃ payload, Latest es key connection.syncEpoch ∧
        payloads connection.syncEpoch = some payload ∧ s.busy key = normalize payload.windows) ∧
      (∀ earlier, earlier <+: is → ∀ before,
        ((machine contract).run State.empty earlier).connection key = some before →
          before.syncEpoch ≤ connection.syncEpoch) ∧
      (∀ (env : Env contract) epoch payload, Latest es key epoch → payloads epoch = some payload →
        env.signers key.1 = true → env.timestamp < connection.expiresAt →
          recordBusy env s key.1 key.2 epoch payload.hash payload.windows = .ok s) ∧
      ∀ (js : List (Input contract)) other, Delivered payloads key js →
        ((machine contract).run State.empty js).connection key = some other →
          other.status = .active → ∀ epoch, Latest es key epoch →
            Latest ((machine contract).journal State.empty js) key epoch →
              ((machine contract).run State.empty js).busy key = s.busy key := by
  intro s es
  have hstored := run_latest hdelivered hfound hactive
  refine ⟨?_, ?_, ?_, ?_⟩
  · rcases hstored with hnone | ⟨payload, hlatest, hpayload, _, hbusy⟩
    · exact .inl hnone
    · exact .inr ⟨payload, hlatest, hpayload, hbusy⟩
  · rintro earlier ⟨later, rfl⟩ before hbefore
    obtain ⟨known, hknown, hle⟩ := run_epoch (run_books earlier) hbefore later
    rw [← Machine.run_append] at hknown
    obtain rfl : known = connection := Option.some.inj (hknown.symm.trans hfound)
    exact hle
  · intro env epoch payload hlatest hpayload hsigned hlive
    rcases hstored with ⟨hnone, _⟩ | ⟨stored, hhighest, hfoundPayload, hhash, _⟩
    · exact absurd hlatest.accepted (hnone epoch)
    · obtain rfl := hlatest.unique hhighest
      obtain rfl : stored = payload := Option.some.inj (hfoundPayload.symm.trans hpayload)
      rw [← hhash]
      exact recordBusy_repeated hfound hactive hsigned hlive
  · intro js other hdelivered' hfound' hactive' epoch hlatest hlatest'
    rcases hstored with ⟨hnone, _⟩ | ⟨payload, hhighest, hpayload, _, hbusy⟩
    · exact absurd hlatest.accepted (hnone epoch)
    rcases run_latest hdelivered' hfound' hactive' with
      ⟨hnone, _⟩ | ⟨payload', hhighest', hpayload', _, hbusy'⟩
    · exact absurd hlatest'.accepted (hnone epoch)
    obtain rfl := hlatest.unique hhighest
    have hsame := hlatest'.unique hhighest'
    rw [← hsame] at hpayload'
    obtain rfl : payload = payload' := Option.some.inj (hpayload.symm.trans hpayload')
    exact hbusy'.trans hbusy.symm

/-- Two epochs of a calendar; the windows of the second one are out of order and touch. -/
def samplePayloads : Nat → Option Payload
  | 1 => some ⟨11, [⟨20, 30⟩], by decide⟩
  | 2 => some ⟨12, [⟨25, 40⟩, ⟨20, 25⟩], by decide⟩
  | _ => none

/-- The second epoch arrives before the first one, and once more after a failure. -/
def sampleSyncs : List (Input ⟨0⟩) :=
  sampleConnected ++
    [⟨.sample, .recordBusy ⟨1⟩ 7 2 12 [⟨25, 40⟩, ⟨20, 25⟩]⟩,
      ⟨.sample, .recordBusy ⟨1⟩ 7 1 11 [⟨20, 30⟩]⟩,
      ⟨.sample, .markSyncFailed ⟨1⟩ 7 "timeout"⟩,
      ⟨.sample, .recordBusy ⟨1⟩ 7 2 12 [⟨25, 40⟩, ⟨20, 25⟩]⟩]

/-- The windows are those of the second epoch, merged into one. -/
theorem sampleSyncs_converges : ∃ payload, samplePayloads 2 = some payload ∧
    ((machine ⟨0⟩).run State.empty sampleSyncs).busy (⟨1⟩, 7) = normalize payload.windows ∧
    normalize payload.windows = [⟨20, 40⟩] := by
  have hdelivered : Delivered samplePayloads (⟨1⟩, 7) sampleSyncs := by
    unfold Delivered Delivers
    decide
  obtain ⟨connection, hfound⟩ : ∃ connection,
      ((machine ⟨0⟩).run State.empty sampleSyncs).connection (⟨1⟩, 7) = some connection := ⟨_, rfl⟩
  have hfields : (((machine ⟨0⟩).run State.empty sampleSyncs).connection (⟨1⟩, 7)).map
      (fun connection => (connection.status, connection.syncEpoch)) = some (.active, 2) := by
    decide +kernel
  have hwindows : ((machine ⟨0⟩).run State.empty sampleSyncs).busy (⟨1⟩, 7) = [⟨20, 40⟩] := by
    decide +kernel
  rw [hfound, Option.map_some, Option.some.injEq, Prod.mk.injEq] at hfields
  obtain ⟨hactive, hepoch⟩ := hfields
  rcases (run_converges hdelivered hfound hactive).1 with ⟨_, hnone⟩ | ⟨payload, _, hpayload, hbusy⟩
  · rw [hwindows] at hnone
    cases hnone
  · rw [hepoch] at hpayload
    exact ⟨payload, hpayload, hbusy, hbusy.symm.trans hwindows⟩

end Runs

end ChainVerse.MentorshipCalendar
