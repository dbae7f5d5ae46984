import ChainVerse.Host.Bytes
import ChainVerse.Rematch.Records

namespace ChainVerse.MentorshipRematch

variable {contract : Address} {env : Env contract} {s s' : State} {id : Bytes32}
  {es : List (Step contract)}

/-- The matches and their requests; before there is an admin there are none. -/
structure Book (s : State) : Prop where
  idle : s.admin = none → s.registrar = none ∧ (∀ id, s.matchRecord id = none) ∧
    ∀ id, s.request id = none
  matches_ : Matches s
  requests : Requests s

section Books

theorem book_empty : Book State.empty where
  idle _ := ⟨rfl, fun _ => rfl, fun _ => rfl⟩
  matches_ := matches_empty
  requests := requests_empty

variable {record : MatchRecord} {request : RematchRequest}

theorem Book.started_of_registrar (hs : Book s) (h : s.registrar ≠ none) : s.admin ≠ none :=
  fun hidle => h (hs.idle hidle).1

theorem Book.started_of_match (hs : Book s) (h : s.matchRecord id = some record) : s.admin ≠ none := by
  intro hidle
  rw [(hs.idle hidle).2.1 id] at h
  cases h

theorem Book.started_of_request (hs : Book s) (h : s.request id = some request) : s.admin ≠ none := by
  intro hidle
  rw [(hs.idle hidle).2.2 id] at h
  cases h

/-- A pending request's match is active. -/
theorem Book.found_active (hs : Book s) (h : Found s id request record)
    (hpending : request.status.isPending = true) : record.status = .active := by
  obtain ⟨record', hfound, hactive⟩ := hs.requests.active id request h.requestFound hpending
  rw [h.recordFound, Option.some.injEq] at hfound
  rw [hfound]
  exact hactive

/-- The match of a request is stored under its id. -/
theorem Book.found_row (hs : Book s) (h : Found s id request record) :
    record.matchId = request.matchId ∧ s.matchRecord record.matchId = some record := by
  have hkey := hs.matches_.keyed _ record h.recordFound
  refine ⟨hkey, ?_⟩
  rw [hkey]
  exact h.recordFound

theorem activeMatch_putMatch (record : MatchRecord) {m : Bytes32} (hm : m ≠ record.matchId) (h : s.ActiveMatch m) :
    (putMatch s record).ActiveMatch m := by
  obtain ⟨row, hfound, hactive⟩ := h
  exact ⟨row, (Function.update_of_ne hm _ _).trans hfound, hactive⟩

theorem State.ActiveMatch.ne_of_fresh {m : Bytes32} (h : s.ActiveMatch m)
    (hfresh : s.matchRecord id = none) : m ≠ id := by
  rintro rfl
  obtain ⟨row, hfound, _⟩ := h
  rw [hfresh] at hfound
  cases hfound

/-- A pending request that stays pending. -/
theorem Book.progress (hs : Book s) {written : RematchRequest} (hfound : s.request id = some request)
    (hpending : request.status.isPending = true) (hid : written.requestId = request.requestId)
    (hmatch : written.matchId = request.matchId) : Book (putRequest s written) := by
  refine ⟨fun hidle => absurd hidle (hs.started_of_request hfound), hs.matches_.same rfl, ?_⟩
  exact hs.requests.rewrite written hfound hpending hid hmatch rfl rfl
    fun m _ hm => hm

/-- A pending request that is finished with its match; the other active matches stay active. -/
theorem Book.finish (hs : Book s) (status : RequestStatus) (now : Nat)
    (hstatus : status.isPending = false) (hfound : Found s id request record)
    (hpending : request.status.isPending = true) (hadmin : s'.admin = s.admin)
    (hrequest : s'.request = Function.update s.request request.requestId
      (some (request.finished status now)))
    (hlists : s'.matchRequests = s.matchRequests) (hmatches : Matches s')
    (hkept : ∀ m, m ≠ record.matchId → s.ActiveMatch m → s'.ActiveMatch m) : Book s' := by
  refine ⟨?_, hmatches, ?_⟩
  · rw [hadmin]
    exact fun hidle => absurd hidle (hs.started_of_request hfound.requestFound)
  · apply hs.requests.rewrite (request.finished status now) hfound.requestFound hpending rfl rfl
      hrequest hlists
    intro m hm hactive
    apply hkept m _ hactive
    rw [(hs.found_row hfound).1]
    apply hm.resolve_right
    rw [show (request.finished status now).status = status from rfl, hstatus]
    exact Bool.false_ne_true

theorem pending_approved (h : request.status = .approvedForClosure) :
    request.status.isPending = true := by
  rw [h]
  rfl

/-- Every accepted call keeps the book. -/
theorem Effect.book {call : Call} (h : Effect env s call s') (hs : Book s) : Book s' := by
  cases h with
  | start admin window _ hmatch hrequest hlists _ hstarted =>
    refine ⟨fun hidle => absurd hidle hstarted, hs.matches_.same hmatch, ?_⟩
    refine hs.requests.same hrequest hlists ?_
    intro m hm
    unfold State.ActiveMatch at hm ⊢
    rwa [hmatch]
  | quiet _ hsame =>
    refine ⟨?_, hs.matches_.same hsame.matchRecord, ?_⟩
    · rw [hsame.admin]
      intro hidle
      rw [hsame.registrar hidle, hsame.matchRecord, hsame.request]
      exact hs.idle hidle
    · refine hs.requests.same hsame.request hsame.matchRequests ?_
      intro m hm
      unfold State.ActiveMatch at hm ⊢
      rwa [hsame.matchRecord]
  | register record _ hregistrar hfresh hactive hunlinked =>
    refine ⟨fun hidle => absurd hidle (hs.started_of_registrar hregistrar), ?_, ?_⟩
    · exact hs.matches_.register hfresh rfl hactive hunlinked rfl
    · refine hs.requests.same rfl rfl ?_
      intro m hm
      exact activeMatch_putMatch record (hm.ne_of_fresh hfresh) hm
  | request request record _ hfresh hfound hactive hroom hclear =>
    refine ⟨fun hidle => absurd hidle (hs.started_of_match hfound), hs.matches_.same rfl, ?_⟩
    exact hs.requests.open hfresh ⟨record, hfound, hactive⟩ hroom hclear
  | review id request _ hfound hopened =>
    exact hs.progress hfound (by rw [hopened]; rfl) rfl rfl
  | reject id request _ hfound hpending =>
    refine ⟨fun hidle => absurd hidle (hs.started_of_request hfound), hs.matches_.same rfl, ?_⟩
    exact hs.requests.rewrite { request with status := .rejected } hfound hpending rfl rfl
      rfl rfl fun m _ hm => hm
  | propose caller id successor proposalHash request expiresAt hfound hstatus =>
    refine hs.progress hfound ?_ rfl rfl
    rcases hstatus with hstatus | hstatus <;> rw [hstatus] <;> rfl
  | approve id request record hfound _ hproposed =>
    exact hs.progress hfound.requestFound (by rw [hproposed]; rfl) rfl rfl
  | close id request record _ hfound hpending =>
    refine hs.finish .closed env.timestamp rfl hfound hpending rfl rfl rfl ?_ ?_
    · apply hs.matches_.close hfound.recordFound (hs.found_active hfound hpending) env.timestamp
      rw [← (hs.found_row hfound).1]
      rfl
    · intro m hne hactive
      exact activeMatch_putMatch (record.closed env.timestamp) hne hactive
  | apply caller id successorId request record mentor hfound happroved _ _ hfresh =>
    have hpending := pending_approved happroved
    refine hs.finish .superseded env.timestamp rfl hfound hpending rfl rfl rfl ?_ ?_
    · apply hs.matches_.supersede hfound.recordFound (hs.found_active hfound hpending) mentor
        env.timestamp hfresh
      rw [← (hs.found_row hfound).1]
      rfl
    · intro m hne hactive
      have hnew := hactive.ne_of_fresh hfresh
      apply activeMatch_putMatch (record.superseded successorId env.timestamp) hne
      exact activeMatch_putMatch (record.successor successorId mentor env.timestamp) hnew hactive

end Books

section Counts

def isSuperseded : Option MatchRecord → Bool
  | some record => decide (record.status = .superseded)
  | none => false

def isPending : Option RematchRequest → Bool
  | some request => request.status.isPending
  | none => false

/-- Whether a row is a request in a terminal status. -/
def isFinished : Option RematchRequest → Bool
  | some request => !request.status.isPending
  | none => false

def State.matchIds (s : State) : Set Bytes32 := {id | (s.matchRecord id).isSome = true}

def State.supersededIds (s : State) : Set Bytes32 := {id | isSuperseded (s.matchRecord id) = true}

def State.pendingIds (s : State) : Set Bytes32 := {id | isPending (s.request id) = true}

def State.finishedIds (s : State) : Set Bytes32 := {id | isFinished (s.request id) = true}

/-- The numbers that the statistics name. -/
structure Counts where
  total : Nat
  pending : Nat
  finished : Nat
  superseded : Nat

noncomputable def State.counts (s : State) : Counts :=
  ⟨s.matchIds.ncard, s.pendingIds.ncard, s.finishedIds.ncard, s.supersededIds.ncard⟩

def Counts.finish (c : Counts) : Counts :=
  { c with
    pending := c.pending - 1
    finished := c.finished + 1 }

/-- How a call moves the numbers and the statistics. -/
inductive CountMove : Counts → RematchStats → Counts → RematchStats → Prop where
  | same (c : Counts) (stats : RematchStats) : CountMove c stats c stats
  | start (stats : RematchStats) : CountMove ⟨0, 0, 0, 0⟩ stats ⟨0, 0, 0, 0⟩ .zero
  | register (c : Counts) (stats : RematchStats) :
      CountMove c stats { c with total := c.total + 1 }
        { stats with totalMatches := saturatingSucc stats.totalMatches }
  | request (c : Counts) (stats : RematchStats) :
      CountMove c stats { c with pending := c.pending + 1 }
        { stats with openRequests := saturatingSucc stats.openRequests }
  | finish (c : Counts) (stats : RematchStats) (pending : 0 < c.pending) :
      CountMove c stats c.finish stats.finish
  | apply (c : Counts) (stats : RematchStats) (pending : 0 < c.pending) :
      CountMove c stats { c.finish with
        total := c.total + 1
        superseded := c.superseded + 1 } { stats.finish with
        totalMatches := saturatingSucc stats.totalMatches
        supersededMatches := saturatingSucc stats.supersededMatches }

variable {record : MatchRecord} {request written : RematchRequest}

/-- What a written match does to the two numbers of matches. -/
theorem counts_putMatch (s : State) (written : MatchRecord) :
    (putMatch s written).matchIds.ncard +
        (if (s.matchRecord written.matchId).isSome = true then 1 else 0) = s.matchIds.ncard + 1 ∧
    (putMatch s written).supersededIds.ncard +
        (if isSuperseded (s.matchRecord written.matchId) = true then 1 else 0) =
      s.supersededIds.ncard + if written.status = .superseded then 1 else 0 := by
  have hsuperseded := @ncard_update_id _ isSuperseded s.matchRecord (putMatch s written).matchRecord
    written.matchId (some written) rfl
  simp only [isSuperseded, decide_eq_true_eq] at hsuperseded
  exact ⟨ncard_update_id Option.isSome rfl, hsuperseded⟩

theorem counts_store (record : MatchRecord) (hfresh : s.matchRecord record.matchId = none) (hactive : record.status = .active) :
    (putMatch s record).counts = { s.counts with total := s.counts.total + 1 } := by
  obtain ⟨htotal, hsuperseded⟩ := counts_putMatch s record
  simp only [hfresh, isSuperseded, hactive, reduceCtorEq, Bool.false_eq_true, if_false, Nat.add_zero,
    Option.isSome_none] at htotal hsuperseded
  simp only [State.counts, htotal, hsuperseded]
  rfl

theorem counts_close (hfound : s.matchRecord record.matchId = some record)
    (hactive : record.status = .active) {now : Nat} :
    (putMatch s (record.closed now)).counts = s.counts := by
  obtain ⟨htotal, hsuperseded⟩ := counts_putMatch s (record.closed now)
  have hrow : s.matchRecord (record.closed now).matchId = some record := hfound
  have hstatus : (record.closed now).status = .closed := rfl
  simp only [hrow, hstatus, isSuperseded, hactive, reduceCtorEq, decide_false, Bool.false_eq_true,
    if_false, Nat.add_zero, Option.isSome_some, if_true, Nat.add_right_cancel_iff] at htotal hsuperseded
  simp only [State.counts, htotal, hsuperseded]
  rfl

theorem counts_supersede (hfound : s.matchRecord record.matchId = some record)
    (hactive : record.status = .active) (successorId : Bytes32) (now : Nat) :
    (putMatch s (record.superseded successorId now)).counts =
      { s.counts with superseded := s.counts.superseded + 1 } := by
  obtain ⟨htotal, hsuperseded⟩ := counts_putMatch s (record.superseded successorId now)
  have hrow : s.matchRecord (record.superseded successorId now).matchId = some record := hfound
  have hstatus : (record.superseded successorId now).status = .superseded := rfl
  simp only [hrow, hstatus, isSuperseded, hactive, reduceCtorEq, decide_false, Bool.false_eq_true,
    if_false, Nat.add_zero, Option.isSome_some, if_true, Nat.add_right_cancel_iff] at htotal hsuperseded
  simp only [State.counts, htotal, hsuperseded]
  rfl

/-- What a written request does to the two numbers of requests. -/
theorem counts_putRequest (s : State) (written : RematchRequest) :
    (putRequest s written).pendingIds.ncard +
        (if isPending (s.request written.requestId) = true then 1 else 0) =
      s.pendingIds.ncard + (if written.status.isPending = true then 1 else 0) ∧
    (putRequest s written).finishedIds.ncard +
        (if isFinished (s.request written.requestId) = true then 1 else 0) =
      s.finishedIds.ncard + if (!written.status.isPending) = true then 1 else 0 :=
  ⟨ncard_update_id isPending rfl, ncard_update_id isFinished rfl⟩

theorem counts_progress (written : RematchRequest) (hfound : s.request written.requestId = some request)
    (hpending : request.status.isPending = true) (hstays : written.status.isPending = true) :
    (putRequest s written).counts = s.counts := by
  obtain ⟨hpendings, hfinished⟩ := counts_putRequest s written
  simp only [hfound, isPending, isFinished, hpending, hstays, if_true, Bool.not_true, Bool.false_eq_true,
    if_false, Nat.add_zero, Nat.add_right_cancel_iff] at hpendings hfinished
  simp only [State.counts, hpendings, hfinished]
  rfl

theorem counts_request (hfresh : s.request request.requestId = none) (hopened : request.status = .opened) :
    (putRequest s request).counts = { s.counts with pending := s.counts.pending + 1 } := by
  have hpending : request.status.isPending = true := by
    rw [hopened]
    rfl
  obtain ⟨hpendings, hfinished⟩ := counts_putRequest s request
  simp only [hfresh, isPending, isFinished, hpending, if_true, Bool.not_true, Bool.false_eq_true, if_false,
    Nat.add_zero] at hpendings hfinished
  simp only [State.counts, hpendings, hfinished]
  rfl

theorem counts_finish (written : RematchRequest) (hfound : s.request written.requestId = some request)
    (hpending : request.status.isPending = true) (hends : written.status.isPending = false) :
    0 < s.counts.pending ∧ (putRequest s written).counts = s.counts.finish := by
  obtain ⟨hpendings, hfinished⟩ := counts_putRequest s written
  simp only [hfound, isPending, isFinished, hpending, hends, if_true, Bool.not_true, Bool.not_false,
    Bool.false_eq_true, if_false, Nat.add_zero] at hpendings hfinished
  have hlowered : (putRequest s written).pendingIds.ncard = s.pendingIds.ncard - 1 := by omega
  refine ⟨?_, ?_⟩
  · show 0 < s.pendingIds.ncard
    omega
  · simp only [State.counts, Counts.finish, hlowered, hfinished]
    rfl

theorem counts_idle (hs : Book s) (hidle : s.admin = none) : s.counts = ⟨0, 0, 0, 0⟩ := by
  obtain ⟨_, hmatch, hrequest⟩ := hs.idle hidle
  have hnone : ∀ ids : Set Bytes32, (∀ id, id ∉ ids) → ids.ncard = 0 := by
    intro ids hids
    rw [Set.eq_empty_iff_forall_notMem.mpr hids, Set.ncard_empty]
  simp only [State.counts, State.matchIds, State.pendingIds, State.finishedIds, State.supersededIds]
  rw [hnone _ fun id => by simp [hmatch], hnone _ fun id => by simp [hrequest, isPending],
    hnone _ fun id => by simp [hrequest, isFinished], hnone _ fun id => by simp [hmatch, isSuperseded]]

theorem counts_congr (hmatch : s'.matchRecord = s.matchRecord) (hrequest : s'.request = s.request) :
    s'.counts = s.counts := by
  simp only [State.counts, State.matchIds, State.pendingIds, State.finishedIds, State.supersededIds,
    hmatch, hrequest]

/-- How every accepted call moves the numbers and the statistics. -/
theorem Effect.counts {call : Call} (h : Effect env s call s') (hs : Book s) :
    CountMove s.counts s.stats s'.counts s'.stats := by
  cases h with
  | start admin window hidle hmatch hrequest _ hstats =>
    rw [counts_congr hmatch hrequest, counts_idle hs hidle, hstats]
    exact .start s.stats
  | quiet _ hsame =>
    rw [counts_congr hsame.matchRecord hsame.request, hsame.stats]
    exact .same s.counts s.stats
  | register record _ _ hfresh hactive =>
    have hcounts := counts_store record hfresh hactive
    have hmove := CountMove.register s.counts s.stats
    rw [← hcounts] at hmove
    exact hmove
  | request request record _ hfresh _ _ _ _ hopened =>
    have hcounts := counts_request hfresh hopened
    have hmove := CountMove.request s.counts s.stats
    rw [← hcounts] at hmove
    exact hmove
  | review id request _ hfound hopened =>
    obtain rfl := hs.requests.keyed id request hfound
    rw [counts_progress { request with
      status := .inReview
      reviewStartedAt := env.timestamp } hfound (by rw [hopened]; rfl) rfl]
    exact .same s.counts s.stats
  | reject id request _ hfound hpending =>
    obtain rfl := hs.requests.keyed id request hfound
    obtain ⟨hpositive, hcounts⟩ :=
      counts_finish { request with status := .rejected } hfound hpending rfl
    have hmove := CountMove.finish s.counts s.stats hpositive
    rw [← hcounts] at hmove
    exact hmove
  | propose caller id successor proposalHash request expiresAt hfound hstatus =>
    obtain rfl := hs.requests.keyed id request hfound
    have hpending : request.status.isPending = true := by
      rcases hstatus with hstatus | hstatus <;> rw [hstatus] <;> rfl
    rw [counts_progress (request.proposed successor proposalHash env.timestamp expiresAt)
      hfound hpending rfl]
    exact .same s.counts s.stats
  | approve id request record hfound _ hproposed =>
    obtain rfl := hs.requests.keyed id request hfound.requestFound
    rw [counts_progress (request.approved env.timestamp) hfound.requestFound
      (by rw [hproposed]; rfl) rfl]
    exact .same s.counts s.stats
  | close id request record _ hfound hpending =>
    obtain rfl := hs.requests.keyed id request hfound.requestFound
    have hrow := (hs.found_row hfound).2
    obtain ⟨hpositive, hcounts⟩ := counts_finish
      (s := putMatch s (record.closed env.timestamp))
      (request.finished .closed env.timestamp) hfound.requestFound hpending rfl
    rw [counts_close hrow (hs.found_active hfound hpending)] at hpositive hcounts
    have hmove := CountMove.finish s.counts s.stats hpositive
    rw [← hcounts] at hmove
    exact hmove
  | apply caller id successorId request record mentor hfound happroved _ _ hfresh =>
    obtain rfl := hs.requests.keyed id request hfound.requestFound
    have hpending := pending_approved happroved
    have hactive := hs.found_active hfound hpending
    have hrow := (hs.found_row hfound).2
    have hne : record.matchId ≠ successorId := by
      intro heq
      rw [← heq, hrow] at hfresh
      cases hfresh
    have hstored := @counts_store s (record.successor successorId mentor env.timestamp) hfresh rfl
    have hrow' : (putMatch s (record.successor successorId mentor env.timestamp)).matchRecord
        record.matchId = some record := (Function.update_of_ne hne _ _).trans hrow
    have hsuperseded := counts_supersede hrow' hactive successorId env.timestamp
    obtain ⟨hpositive, hcounts⟩ := counts_finish
      (s := putMatch (putMatch s (record.successor successorId mentor env.timestamp))
        (record.superseded successorId env.timestamp))
      (request.finished .superseded env.timestamp) hfound.requestFound hpending rfl
    rw [hsuperseded, hstored] at hpositive hcounts
    have hmove := CountMove.apply s.counts s.stats hpositive
    have hsame : { s.counts.finish with
        total := s.counts.total + 1
        superseded := s.counts.superseded + 1 } =
        (applied s request record successorId mentor env.timestamp).counts := hcounts.symm
    rw [hsame] at hmove
    exact hmove

end Counts

end ChainVerse.MentorshipRematch
