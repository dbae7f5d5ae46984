import ChainVerse.Rematch.Moves

namespace ChainVerse.MentorshipRematch

variable {contract : Address} {env : Env contract} {s s' : State} {id : Bytes32}
  {es : List (Step contract)}

section Statistics

/-- The statistics that are never lowered name their numbers, up to the largest `u32`. -/
structure Tallied (c : Counts) (stats : RematchStats) : Prop where
  total : stats.totalMatches = min c.total u32Max
  closed : stats.closedRequests = min c.finished u32Max
  superseded : stats.supersededMatches = min c.superseded u32Max

theorem saturatingSucc_min (n : Nat) : saturatingSucc (min n u32Max) = min (n + 1) u32Max := by
  unfold saturatingSucc
  omega

theorem CountMove.tallied {c c' : Counts} {stats stats' : RematchStats} (h : CountMove c stats c' stats')
    (ht : Tallied c stats) : Tallied c' stats' := by
  obtain ⟨htotal, hclosed, hsuperseded⟩ := ht
  cases h with
  | same => exact ⟨htotal, hclosed, hsuperseded⟩
  | start => exact ⟨rfl, rfl, rfl⟩
  | register =>
    refine ⟨?_, hclosed, hsuperseded⟩
    show saturatingSucc stats.totalMatches = _
    rw [htotal, saturatingSucc_min]
  | request => exact ⟨htotal, hclosed, hsuperseded⟩
  | finish =>
    refine ⟨htotal, ?_, hsuperseded⟩
    show saturatingSucc stats.closedRequests = _
    rw [hclosed, saturatingSucc_min]
    rfl
  | apply =>
    refine ⟨?_, ?_, ?_⟩
    · show saturatingSucc stats.totalMatches = _
      rw [htotal, saturatingSucc_min]
    · show saturatingSucc stats.closedRequests = _
      rw [hclosed, saturatingSucc_min]
      rfl
    · show saturatingSucc stats.supersededMatches = _
      rw [hsuperseded, saturatingSucc_min]

/-- The statistic of the pending requests, as long as they fit in it. -/
theorem CountMove.pending {c c' : Counts} {stats stats' : RematchStats} (h : CountMove c stats c' stats')
    (hpending : stats.openRequests = c.pending) (hfits : c'.pending ≤ u32Max) :
    stats'.openRequests = c'.pending := by
  cases h with
  | same => exact hpending
  | start => rfl
  | register => exact hpending
  | request =>
    show min (stats.openRequests + 1) u32Max = c.pending + 1
    rw [hpending]
    exact Nat.min_eq_left hfits
  | finish =>
    show stats.openRequests - 1 = c.pending - 1
    rw [hpending]
  | apply =>
    show stats.openRequests - 1 = c.pending - 1
    rw [hpending]

theorem run_tallied (is : List (Input contract)) :
    Tallied ((machine contract).run State.empty is).counts ((machine contract).run State.empty is).stats ∧
      ((∀ e ∈ (machine contract).journal State.empty is, e.post.pendingIds.ncard ≤ u32Max) →
        ((machine contract).run State.empty is).stats.openRequests =
          ((machine contract).run State.empty is).pendingIds.ncard) := by
  have hrun := @Machine.run_journal_invariant _ _ _ _ (machine contract)
    (fun s es => Book s ∧ Tallied s.counts s.stats ∧
      ((∀ e ∈ es, e.post.pendingIds.ncard ≤ u32Max) → s.stats.openRequests = s.counts.pending))
    State.empty ?_ ?_ is
  · exact hrun.2
  · have hzero := counts_idle book_empty rfl
    rw [hzero]
    exact ⟨book_empty, ⟨rfl, rfl, rfl⟩, fun _ => rfl⟩
  · intro es s i o s' hs h
    obtain ⟨hbook, htallied, hopen⟩ := hs
    have heffect := step_effect h
    have hmove := heffect.counts hbook
    refine ⟨heffect.book hbook, hmove.tallied htallied, ?_⟩
    intro hfits
    refine hmove.pending (hopen fun e he => hfits e (List.mem_append_left _ he)) ?_
    exact hfits ⟨s, i, o, s'⟩ List.mem_concat_self

end Statistics

section Consent

/-- A mentee's signed approval, in time, of the successor proposed for a match. -/
structure ApprovesSuccessor (requestId matchId : Bytes32) (mentee : Address) (successor : Option Address)
    (a : Step contract) : Prop where
  call : a.input.call = .approveSuccessor mentee requestId
  signed : a.input.env.signers mentee = true
  proposed : ∃ request, a.pre.request requestId = some request ∧ request.matchId = matchId ∧
    request.status = .successorProposed ∧ request.successor = successor ∧
    a.input.env.timestamp ≤ request.proposalExpiresAt

/-- The mentee of a request's match has approved the successor that the request names. -/
def Approved (s : State) (es : List (Step contract)) (requestId : Bytes32) (request : RematchRequest) :
    Prop :=
  ∃ mentee, s.mentee request.matchId = some mentee ∧
    ∃ a ∈ es, ApprovesSuccessor requestId request.matchId mentee request.successor a

/-- The match's mentee approved the mentor of the match that took its place, and when it did no case was
open. -/
def Succeeded (s : State) (es : List (Step contract)) (id : Bytes32) (record : MatchRecord) : Prop :=
  ∃ earlier b later caller requestId successorId successor,
    es = earlier ++ b :: later ∧ b.input.call = .applySuccessor caller requestId successorId ∧
      (b.pre.caseFlags id).anyOpen = false ∧ record.successorMatchId = some successorId ∧
      s.matchRecord successorId = some successor ∧
      ∃ a ∈ earlier, ApprovesSuccessor requestId id record.mentee (some successor.mentor) a

theorem mentee_some {mentee : Address} :
    s.mentee id = some mentee ↔ ∃ record, s.matchRecord id = some record ∧ record.mentee = mentee :=
  Option.map_eq_some_iff

variable {call : Call}

theorem Effect.mentee (h : Effect env s call s') (hs : Book s) {mentee : Address}
    (hmentee : s.mentee id = some mentee) : s'.mentee id = some mentee := by
  obtain ⟨record, hfound, rfl⟩ := mentee_some.mp hmentee
  obtain ⟨record', hfound', _, hsame, _⟩ := (h.matchMove hs id).keeps hfound
  exact mentee_some.mpr ⟨record', hfound', hsame⟩

/-- Requests that are approved have been approved by the mentee. -/
theorem Effect.approved {e : Step contract} (h : Effect e.input.env e.pre e.input.call e.post)
    (hs : Book e.pre)
    (hpre : ∀ requestId request, e.pre.request requestId = some request →
      request.status = .approvedForClosure → Approved e.pre es requestId request)
    (requestId : Bytes32) (request : RematchRequest) (hfound : e.post.request requestId = some request)
    (hstatus : request.status = .approvedForClosure) : Approved e.post (es ++ [e]) requestId request := by
  have hmove := h.requestMove hs requestId
  rw [hfound] at hmove
  generalize hrow : e.pre.request requestId = row at hmove
  cases hmove with
  | kept =>
    obtain ⟨mentee, hmentee, a, ha, happroves⟩ := hpre requestId request hrow hstatus
    exact ⟨mentee, h.mentee hs hmentee, a, List.mem_append_left _ ha, happroves⟩
  | made _ hopened =>
    rw [hopened] at hstatus
    cases hstatus
  | settled _ _ _ _ _ hunapproved => exact absurd hstatus hunapproved
  | proposed => cases hstatus
  | approved request record hcall hfounds hsigned hproposed hlive =>
    refine ⟨record.mentee, ?_, e, List.mem_concat_self, ?_⟩
    · exact h.mentee hs (mentee_some.mpr ⟨record, hfounds.recordFound, rfl⟩)
    · exact ⟨hcall, hsigned, request, hfounds.requestFound, rfl, hproposed, rfl, hlive⟩

/-- Matches that are superseded have been so with their mentee's approval. -/
theorem Effect.succeeded {e : Step contract} (h : Effect e.input.env e.pre e.input.call e.post)
    (hs : Book e.pre)
    (happroved : ∀ requestId request, e.pre.request requestId = some request →
      request.status = .approvedForClosure → Approved e.pre es requestId request)
    (hpre : ∀ id record, e.pre.matchRecord id = some record → record.status = .superseded →
      Succeeded e.pre es id record)
    (id : Bytes32) (record : MatchRecord) (hfound : e.post.matchRecord id = some record)
    (hstatus : record.status = .superseded) : Succeeded e.post (es ++ [e]) id record := by
  have hmove := h.matchMove hs id
  rw [hfound] at hmove
  generalize hrow : e.pre.matchRecord id = row at hmove
  cases hmove with
  | kept =>
    obtain ⟨earlier, b, later, caller, requestId, successorId, successor, rfl, hcall, hflags, hnext,
      hsuccessor, hmentee⟩ := hpre id record hrow hstatus
    obtain ⟨successor', hsuccessor', hmentor, _⟩ := (h.matchMove hs successorId).keeps hsuccessor
    refine ⟨earlier, b, later ++ [e], caller, requestId, successorId, successor',
      List.append_assoc _ _ _, hcall, hflags, hnext, hsuccessor', ?_⟩
    rw [hmentor]
    exact hmentee
  | stored _ hactive =>
    rw [hactive] at hstatus
    cases hstatus
  | closed => cases hstatus
  | superseded old successor caller requestId successorId request now _ hcall hrequest hnamed happroval
      hflags hstored hchosen =>
    obtain ⟨mentee, hmentee, a, ha, happroves⟩ := happroved requestId request hrequest happroval
    rw [hnamed] at hmentee happroves
    rw [hchosen] at happroves
    obtain ⟨old', hold, hsame⟩ := mentee_some.mp hmentee
    rw [hrow, Option.some.injEq] at hold
    rw [← hold] at hsame
    refine ⟨es, e, [], caller, requestId, successorId, successor, rfl, hcall, hflags, rfl, hstored, a, ha, ?_⟩
    show ApprovesSuccessor requestId id old.mentee (some successor.mentor) a
    rw [hsame]
    exact happroves

theorem run_succeeded (is : List (Input contract)) :
    ∀ id record, ((machine contract).run State.empty is).matchRecord id = some record →
      record.status = .superseded → Succeeded ((machine contract).run State.empty is)
        ((machine contract).journal State.empty is) id record := by
  have hrun := @Machine.run_journal_invariant _ _ _ _ (machine contract)
    (fun s es => Book s ∧
      (∀ requestId request, s.request requestId = some request →
        request.status = .approvedForClosure → Approved s es requestId request) ∧
      ∀ id record, s.matchRecord id = some record → record.status = .superseded →
        Succeeded s es id record)
    State.empty ?_ ?_ is
  · exact hrun.2.2
  · exact ⟨book_empty, fun _ _ h => (by cases h), fun _ _ h => (by cases h)⟩
  · intro es s i o s' hs h
    obtain ⟨hbook, happroved, hsucceeded⟩ := hs
    have heffect := step_effect h
    exact ⟨heffect.book hbook, Effect.approved (e := ⟨s, i, o, s'⟩) heffect hbook happroved,
      Effect.succeeded (e := ⟨s, i, o, s'⟩) heffect hbook happroved hsucceeded⟩

end Consent

/-- In every run the statistics name their numbers up to the largest `u32`, and the one of the pending
requests as long as these have always fitted. Each match has at most eight requests, and at most one
pending one, while it is active. Successors and predecessors point at each other, without cycles and with
one mentee along a chain. And a superseded match's mentee approved the successor in time, with no case open
when it took over. -/
theorem run_rematch (is : List (Input contract)) :
    let s := (machine contract).run State.empty is
    let es := (machine contract).journal State.empty is
    (s.stats.totalMatches = min s.matchIds.ncard u32Max ∧
        s.stats.closedRequests = min s.finishedIds.ncard u32Max ∧
        s.stats.supersededMatches = min s.supersededIds.ncard u32Max ∧
        ((∀ js, js <+: is → ((machine contract).run State.empty js).pendingIds.ncard ≤ u32Max) →
          s.stats.openRequests = s.pendingIds.ncard)) ∧
      ((∀ m, {id | s.requestMatch id = some m}.ncard ≤ maxRequestsPerMatch) ∧
        ∀ id request, s.request id = some request → request.status.isPending = true →
          s.ActiveMatch request.matchId ∧ ∀ id' request', s.request id' = some request' →
            request'.status.isPending = true → request.matchId = request'.matchId → id = id') ∧
      ((∀ a b, s.next a = some b ↔ s.prev b = some a) ∧
        (∀ a, ¬Relation.TransGen (fun x y => s.next x = some y) a a) ∧
        ∀ a b, Relation.TransGen (fun x y => s.next x = some y) a b → s.mentee b = s.mentee a) ∧
      ∀ id record, s.matchRecord id = some record → record.status = .superseded →
        Succeeded s es id record := by
  intro s es
  have hbook : Book s := run_book is
  obtain ⟨htallied, hopen⟩ := @run_tallied contract is
  refine ⟨⟨htallied.total, htallied.closed, htallied.superseded, ?_⟩, ⟨?_, ?_⟩, ⟨?_, ?_, ?_⟩,
    run_succeeded is⟩
  · intro hfits
    apply hopen
    intro e he
    obtain ⟨earlier, later, hes⟩ := List.append_of_mem he
    obtain ⟨js, hjs, hpost, _⟩ := Machine.journal_upto hes
    rw [← hpost]
    exact hfits js hjs
  · intro m
    have hcount := hbook.requests.listed.countP (fun _ => true) m
    simp only [and_true] at hcount
    rw [← hcount]
    exact List.countP_le_length.trans (hbook.requests.short m)
  · intro id request hfound hpending
    refine ⟨hbook.requests.active id request hfound hpending, ?_⟩
    intro id' request' hfound' hpending'
    exact hbook.requests.single id id' request request' hfound hfound' hpending hpending'
  · exact hbook.matches_.chained.inverse
  · exact hbook.matches_.chained.acyclic
  · intro a b hway
    exact shared_along hbook.matches_.mentees hway

section Samples

/-- Matches registered one after the other. -/
def sampleMatches (n : Nat) : List (Input ⟨0⟩) :=
  ⟨.sample, .initializeContract ⟨1⟩ 3600⟩ ::
    (List.range n).map fun k => ⟨.sample, .registerMatch ⟨1⟩ (BitVec.ofNat 256 k) 0 ⟨2⟩ ⟨3⟩⟩

theorem sampleMatches_succ (n : Nat) : sampleMatches (n + 1) =
    sampleMatches n ++ [⟨.sample, .registerMatch ⟨1⟩ (BitVec.ofNat 256 n) 0 ⟨2⟩ ⟨3⟩⟩] := by
  rw [sampleMatches, List.range_succ, List.map_append, sampleMatches]
  rfl

/-- All of them are accepted, as long as their ids differ. -/
theorem sampleMatches_count {n : Nat} (hn : n < 2^256) :
    ((machine ⟨0⟩).run State.empty (sampleMatches n)).matchIds.ncard = n ∧
      ((machine ⟨0⟩).run State.empty (sampleMatches n)).registrar = some ⟨1⟩ ∧
      ∀ id, ((machine ⟨0⟩).run State.empty (sampleMatches n)).matchRecord id ≠ none → id.toNat < n := by
  induction n with
  | zero =>
    refine ⟨?_, rfl, fun id h => absurd rfl h⟩
    have hnone : ((machine ⟨0⟩).run State.empty (sampleMatches 0)).matchIds = ∅ := by
      ext id
      show (none : Option MatchRecord).isSome = true ↔ False
      simp
    rw [hnone, Set.ncard_empty]
  | succ n ih =>
    obtain ⟨hcount, hregistrar, hbelow⟩ := ih (Nat.lt_of_succ_lt hn)
    rw [sampleMatches_succ, Machine.run_append, Machine.run_cons, Machine.run_nil]
    generalize (machine ⟨0⟩).run State.empty (sampleMatches n) = s at hcount hregistrar hbelow
    have hnumber : (BitVec.ofNat 256 n).toNat = n := Nat.mod_eq_of_lt (Nat.lt_of_succ_lt hn)
    have hfresh : s.matchRecord (BitVec.ofNat 256 n) = none := by
      by_contra hstored
      have hlt := hbelow _ hstored
      omega
    let record : MatchRecord :=
      { matchId := BitVec.ofNat 256 n, agreementId := 0, mentor := ⟨2⟩, mentee := ⟨3⟩, status := .active,
        successorMatchId := none, supersededMatchId := none, createdAt := 10, closedAt := 0 }
    have hstep : (machine ⟨0⟩).step s
        ⟨.sample, .registerMatch ⟨1⟩ (BitVec.ofNat 256 n) 0 ⟨2⟩ ⟨3⟩⟩ =
          .ok (none, bumpStats (putMatch s record) fun stats =>
            { stats with totalMatches := saturatingSucc stats.totalMatches }) := by
      simp only [machine, execute, registerMatch, requireRegistrar, map_eq_ok, bind_eq_ok, orRefuse_eq_ok,
        refuseIf_eq_ok, requireAuth_eq_ok, exists_unit, pure_eq_ok, not_not]
      exact ⟨_, ⟨⟨⟨1⟩, hregistrar, rfl, rfl⟩, hfresh, by decide, rfl⟩, rfl⟩
    rw [Machine.next_ok _ hstep]
    refine ⟨?_, hregistrar, ?_⟩
    · have hcounts := counts_store record hfresh rfl
      have htotal := congrArg Counts.total hcounts
      show (putMatch s record).matchIds.ncard = n + 1
      rw [← hcount]
      exact htotal
    · intro id hstored
      by_cases hid : id = BitVec.ofNat 256 n
      · rw [hid, hnumber]
        exact Nat.lt_succ_self n
      · have hold : s.matchRecord id ≠ none := by
          intro hnone
          exact hstored ((Function.update_of_ne hid _ _).trans hnone)
        exact Nat.lt_succ_of_lt (hbelow id hold)

/-- The mentee approves a successor while a case is open. -/
def sampleFlagged : List (Input ⟨0⟩) :=
  [⟨.sample, .initializeContract ⟨1⟩ 3600⟩,
    ⟨.sample, .registerMatch ⟨1⟩ 10 0 ⟨2⟩ ⟨3⟩⟩,
    ⟨.sample, .requestRematch ⟨3⟩ 10 20 .incompatibility 5 6⟩,
    ⟨.sample, .startReview ⟨1⟩ 20⟩,
    ⟨.sample, .proposeSuccessor ⟨1⟩ 20 ⟨4⟩ 7⟩,
    ⟨.sample, .setCaseFlags ⟨1⟩ 10 true false⟩,
    ⟨.sampleLater, .approveSuccessor ⟨3⟩ 20⟩,
    ⟨.sampleLater, .setCaseFlags ⟨1⟩ 10 false false⟩,
    ⟨.sampleLater, .applySuccessor ⟨1⟩ 20 11⟩]

def Call.approves : Call → Bool
  | .approveSuccessor _ _ => true
  | _ => false

/-- A match on which nothing has been requested. -/
def sampleRegistered : List (Input ⟨0⟩) :=
  [⟨.sample, .initializeContract ⟨1⟩ 3600⟩, ⟨.sample, .registerMatch ⟨1⟩ 10 0 ⟨2⟩ ⟨3⟩⟩]

/-- No statistic names the number of all requests, the number of matches outgrows its own, and a case may
be open when the successor is approved. -/
theorem not_run_rematch :
    (¬∀ is : List (Input ⟨0⟩), ((machine ⟨0⟩).run State.empty is).stats.totalMatches =
        {id | ((machine ⟨0⟩).run State.empty is).request id ≠ none}.ncard) ∧
      (¬∀ is : List (Input ⟨0⟩), ((machine ⟨0⟩).run State.empty is).stats.totalMatches =
        ((machine ⟨0⟩).run State.empty is).matchIds.ncard) ∧
      ¬∀ is : List (Input ⟨0⟩), ∀ id record,
        ((machine ⟨0⟩).run State.empty is).matchRecord id = some record → record.status = .superseded →
          ∃ a ∈ (machine ⟨0⟩).journal State.empty is, ∃ requestId successor,
            ApprovesSuccessor requestId id record.mentee successor a ∧
              (a.pre.caseFlags id).anyOpen = false := by
  refine ⟨?_, ?_, ?_⟩
  · intro hall
    have hexact := hall sampleRegistered
    have htotal : ((machine ⟨0⟩).run State.empty sampleRegistered).stats.totalMatches = 1 := by
      decide +kernel
    have hnone : ((machine ⟨0⟩).run State.empty sampleRegistered).request = fun _ => none := rfl
    rw [htotal, hnone] at hexact
    simp at hexact
  · intro hall
    have hexact := hall (sampleMatches (2^32))
    have htallied := (run_tallied (sampleMatches (2^32))).1.total
    have hcount := (@sampleMatches_count (2^32) (by decide)).1
    rw [hexact, hcount] at htallied
    have hle := Nat.min_le_right
      ((machine ⟨0⟩).run State.empty (sampleMatches (2^32))).counts.total u32Max
    rw [← htallied, u32Max] at hle
    omega
  · intro hall
    have hstatus : (((machine ⟨0⟩).run State.empty sampleFlagged).matchRecord 10).map
        MatchRecord.status = some .superseded := by
      decide +kernel
    obtain ⟨record, hfound, hsuperseded⟩ := Option.map_eq_some_iff.mp hstatus
    obtain ⟨a, ha, requestId, successor, happroves, hunflagged⟩ :=
      hall sampleFlagged 10 record hfound hsuperseded
    have hflagged : ∀ e ∈ (machine ⟨0⟩).journal State.empty sampleFlagged,
        e.input.call.approves = true → (e.pre.caseFlags 10).anyOpen = true := by
      decide +kernel
    have hopen := hflagged a ha (by rw [happroves.call]; rfl)
    rw [hunflagged] at hopen
    cases hopen

end Samples

end ChainVerse.MentorshipRematch
