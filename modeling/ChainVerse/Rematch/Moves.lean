import ChainVerse.Rematch.Stats

namespace ChainVerse.MentorshipRematch

section Moves

variable {contract : Address} {env : Env contract} {s s' : State} {id : Bytes32}

/-- The successor that a call proposes on one request, with its terms. -/
def Call.proposal (call : Call) (id : Bytes32) : Option (Address × Bytes32) :=
  (call.proposes.filter fun named => named.1 = id).map Prod.snd

/-- What a call can do to one match. -/
inductive MatchMove (s : State) (call : Call) (s' : State) (id : Bytes32) :
    Option MatchRecord → Option MatchRecord → Prop where
  | kept (row : Option MatchRecord) : MatchMove s call s' id row row
  | stored (record : MatchRecord) (active : record.status = .active) :
      MatchMove s call s' id none (some record)
  | closed (record : MatchRecord) (now : Nat) (active : record.status = .active) :
      MatchMove s call s' id (some record) (some (record.closed now))
  | superseded (record successor : MatchRecord) (caller : Address) (requestId successorId : Bytes32)
      (request : RematchRequest) (now : Nat) (active : record.status = .active)
      (calls : call = .applySuccessor caller requestId successorId)
      (requested : s.request requestId = some request) (named : request.matchId = id)
      (approved : request.status = .approvedForClosure)
      (unflagged : (s.caseFlags id).anyOpen = false) (stored : s'.matchRecord successorId = some successor)
      (chosen : request.successor = some successor.mentor) :
      MatchMove s call s' id (some record) (some (record.superseded successorId now))

/-- What a call can do to one request. -/
inductive RequestMove (env : Env contract) (s : State) (call : Call) (id : Bytes32) :
    Option RematchRequest → Option RematchRequest → Prop where
  | kept (row : Option RematchRequest) (unproposed : call.proposal id = none) :
      RequestMove env s call id row row
  | made (request : RematchRequest) (opened : request.status = .opened) :
      RequestMove env s call id none (some request)
  | settled (request written : RematchRequest) (unproposed : call.proposal id = none)
      (successor : written.successor = request.successor)
      (proposalHash : written.proposalHash = request.proposalHash)
      (unapproved : written.status ≠ .approvedForClosure) :
      RequestMove env s call id (some request) (some written)
  | proposed (request : RematchRequest) (successor : Address) (proposalHash : Bytes32)
      (expiresAt : Nat) (proposal : call.proposal id = some (successor, proposalHash)) :
      RequestMove env s call id (some request)
        (some (request.proposed successor proposalHash env.timestamp expiresAt))
  | approved (request : RematchRequest) (record : MatchRecord)
      (calls : call = .approveSuccessor record.mentee id) (found : Found s id request record)
      (signed : env.signers record.mentee = true) (proposed : request.status = .successorProposed)
      (live : env.timestamp ≤ request.proposalExpiresAt) :
      RequestMove env s call id (some request) (some (request.approved env.timestamp))

section Moves

variable {call : Call}

theorem proposal_none (h : call.proposes = none) (id : Bytes32) : call.proposal id = none := by
  rw [Call.proposal, h]
  rfl

theorem MatchMove.of_eq (h : s'.matchRecord = s.matchRecord) (id : Bytes32) :
    MatchMove s call s' id (s.matchRecord id) (s'.matchRecord id) := by
  rw [h]
  exact .kept _

/-- What an accepted call does to each match. -/
theorem Effect.matchMove (h : Effect env s call s') (hs : Book s) (id : Bytes32) :
    MatchMove s call s' id (s.matchRecord id) (s'.matchRecord id) := by
  cases h with
  | start admin window _ hmatch => exact .of_eq hmatch id
  | quiet _ hsame => exact .of_eq hsame.matchRecord id
  | register record _ _ hfresh hactive =>
    show MatchMove s call _ id _ (Function.update s.matchRecord record.matchId (some record) id)
    by_cases hid : id = record.matchId
    · subst hid
      rw [Function.update_self, hfresh]
      exact .stored record hactive
    · rw [Function.update_of_ne hid]
      exact .kept _
  | request => exact .kept (s.matchRecord id)
  | review => exact .kept (s.matchRecord id)
  | reject => exact .kept (s.matchRecord id)
  | propose => exact .kept (s.matchRecord id)
  | approve => exact .kept (s.matchRecord id)
  | close requestId request record _ hfound hpending =>
    obtain ⟨_, hrow⟩ := hs.found_row hfound
    have hactive := hs.found_active hfound hpending
    show MatchMove s call _ id _
      (Function.update s.matchRecord record.matchId (some (record.closed env.timestamp)) id)
    by_cases hid : id = record.matchId
    · subst hid
      rw [Function.update_self, hrow]
      exact .closed record env.timestamp hactive
    · rw [Function.update_of_ne hid]
      exact .kept _
  | apply caller requestId successorId request record mentor hfound happroved hsuccessor hunflagged
      hfresh =>
    obtain ⟨hkey, hrow⟩ := hs.found_row hfound
    have hactive := hs.found_active hfound (pending_approved happroved)
    have hne : successorId ≠ record.matchId := by
      intro heq
      rw [heq, hrow] at hfresh
      cases hfresh
    have hstored : (applied s request record successorId mentor env.timestamp).matchRecord successorId =
        some (record.successor successorId mentor env.timestamp) :=
      (Function.update_of_ne hne _ _).trans (Function.update_self _ _ _)
    by_cases hid : id = record.matchId
    · subst hid
      have hwritten : (applied s request record successorId mentor env.timestamp).matchRecord
          record.matchId = some (record.superseded successorId env.timestamp) :=
        Function.update_self _ _ _
      rw [hrow, hwritten]
      exact .superseded record _ caller requestId successorId request env.timestamp hactive rfl
        hfound.requestFound hkey.symm happroved hunflagged hstored hsuccessor
    · by_cases hnew : id = successorId
      · rw [hnew, hfresh, hstored]
        exact .stored _ rfl
      · have hother : (applied s request record successorId mentor env.timestamp).matchRecord id =
            s.matchRecord id :=
          (Function.update_of_ne hid _ _).trans (Function.update_of_ne hnew _ _)
        rw [hother]
        exact .kept _

theorem RequestMove.of_eq (h : s'.request = s.request) (hcall : call.proposal id = none) :
    RequestMove env s call id (s.request id) (s'.request id) := by
  rw [h]
  exact .kept _ hcall

/-- A request that is moved on without a proposal. -/
theorem RequestMove.of_write {requestId : Bytes32} {request : RematchRequest}
    (written : RematchRequest) (hs : Book s)
    (hfound : s.request requestId = some request) (hid : written.requestId = request.requestId)
    (hwritten : s'.request = Function.update s.request written.requestId (some written))
    (hcall : call.proposal id = none) (hsuccessor : written.successor = request.successor)
    (hhash : written.proposalHash = request.proposalHash)
    (hstatus : written.status ≠ .approvedForClosure) :
    RequestMove env s call id (s.request id) (s'.request id) := by
  have hkey := hs.requests.keyed requestId request hfound
  rw [hwritten, hid, hkey]
  by_cases hsame : id = requestId
  · rw [hsame, Function.update_self, hfound]
    rw [hsame] at hcall
    exact .settled request written hcall hsuccessor hhash hstatus
  · rw [Function.update_of_ne hsame]
    exact .kept _ hcall

/-- What an accepted call does to each request. -/
theorem Effect.requestMove (h : Effect env s call s') (hs : Book s) (id : Bytes32) :
    RequestMove env s call id (s.request id) (s'.request id) := by
  cases h with
  | start admin window _ _ hrequest => exact .of_eq hrequest rfl
  | quiet hcall hsame => exact .of_eq hsame.request (proposal_none hcall id)
  | register record hcall => exact .of_eq rfl (proposal_none hcall id)
  | request request record hcall hfresh _ _ _ _ hopened =>
    show RequestMove env s call id _ (Function.update s.request request.requestId (some request) id)
    by_cases hid : id = request.requestId
    · subst hid
      rw [Function.update_self, hfresh]
      exact .made request hopened
    · rw [Function.update_of_ne hid]
      exact .kept _ (proposal_none hcall id)
  | review requestId request hcall hfound =>
    exact .of_write { request with
      status := .inReview
      reviewStartedAt := env.timestamp } hs hfound rfl rfl (proposal_none hcall id) rfl rfl
      fun hstatus => by cases hstatus
  | reject requestId request hcall hfound =>
    exact .of_write { request with status := .rejected } hs hfound rfl rfl
      (proposal_none hcall id) rfl rfl fun hstatus => by cases hstatus
  | propose caller requestId successor proposalHash request expiresAt hfound =>
    have hkey := hs.requests.keyed requestId request hfound
    show RequestMove env s _ id _ (Function.update s.request request.requestId
      (some (request.proposed successor proposalHash env.timestamp expiresAt)) id)
    rw [hkey]
    by_cases hid : id = requestId
    · subst hid
      rw [Function.update_self, hfound]
      refine .proposed request successor proposalHash expiresAt ?_
      simp [Call.proposal, Call.proposes]
    · rw [Function.update_of_ne hid]
      refine .kept _ ?_
      simp [Call.proposal, Call.proposes, Ne.symm hid]
  | approve requestId request record hfound hsigned hproposed hlive =>
    have hkey := hs.requests.keyed requestId request hfound.requestFound
    show RequestMove env s _ id _ (Function.update s.request request.requestId
      (some (request.approved env.timestamp)) id)
    rw [hkey]
    by_cases hid : id = requestId
    · subst hid
      rw [Function.update_self, hfound.requestFound]
      exact .approved request record rfl hfound hsigned hproposed hlive
    · rw [Function.update_of_ne hid]
      exact .kept _ rfl
  | close requestId request record hcall hfound =>
    exact .of_write (request.finished .closed env.timestamp) hs hfound.requestFound rfl rfl
      (proposal_none hcall id) rfl rfl fun hstatus => by cases hstatus
  | apply caller requestId successorId request record mentor hfound =>
    exact .of_write (request.finished .superseded env.timestamp) hs hfound.requestFound rfl
      rfl rfl rfl rfl fun hstatus => by cases hstatus

/-- The people of a match stay, and a match that has ended stays as it is. -/
theorem MatchMove.keeps {row row' : Option MatchRecord} (h : MatchMove s call s' id row row')
    {record : MatchRecord} (hrow : row = some record) :
    ∃ record', row' = some record' ∧ record'.mentor = record.mentor ∧
      record'.mentee = record.mentee ∧ (record.status ≠ .active → record' = record) := by
  cases h with
  | kept => exact ⟨record, hrow, rfl, rfl, fun _ => rfl⟩
  | stored => cases hrow
  | closed _ now hactive =>
    cases hrow
    exact ⟨_, rfl, rfl, rfl, fun hended => absurd hactive hended⟩
  | superseded _ _ _ _ _ _ _ hactive =>
    cases hrow
    exact ⟨_, rfl, rfl, rfl, fun hended => absurd hactive hended⟩

end Moves

/-- The book of every run. -/
theorem run_book (is : List (Input contract)) : Book ((machine contract).run State.empty is) :=
  Machine.run_invariant book_empty (fun _ _ _ _ hs h => (step_effect h).book hs) is

end Moves

variable {contract : Address} {env : Env contract} {s s' : State} {id : Bytes32}
  {es : List (Step contract)}

section Proposals

/-- The successors that have been proposed on a request, each with its terms. -/
def proposals (id : Bytes32) (es : List (Step contract)) : List (Address × Bytes32) :=
  es.filterMap fun e => e.input.call.proposal id

/-- The successor that a request has, with its terms. -/
def RematchRequest.named (request : RematchRequest) : Option Address × Bytes32 :=
  (request.successor, request.proposalHash)

/-- What a request names after the calls `es`, when it named `read` before them. -/
def latest (read : Option Address × Bytes32) (id : Bytes32) (es : List (Step contract)) :
    Option Address × Bytes32 :=
  match (proposals id es).getLast? with
  | some last => (some last.1, last.2)
  | none => read

theorem latest_snoc (read : Option Address × Bytes32) (e : Step contract) :
    latest read id (es ++ [e]) = match e.input.call.proposal id with
      | some proposal => (some proposal.1, proposal.2)
      | none => latest read id es := by
  unfold latest proposals
  rw [List.filterMap_append]
  cases hproposal : e.input.call.proposal id with
  | none => simp [hproposal]
  | some proposal => simp [hproposal]

/-- A request names what was last proposed on it. -/
theorem RequestMove.names {e : Step contract} {row row' : Option RematchRequest}
    (h : RequestMove e.input.env e.pre e.input.call id row row') {read : Option Address × Bytes32}
    (hrow : ∃ request, row = some request ∧ request.named = latest read id es) :
    ∃ request, row' = some request ∧ request.named = latest read id (es ++ [e]) := by
  obtain ⟨request, hfound, hnamed⟩ := hrow
  rw [latest_snoc]
  cases h with
  | kept _ hunproposed =>
    rw [hunproposed]
    exact ⟨request, hfound, hnamed⟩
  | made => cases hfound
  | settled _ written hunproposed hsuccessor hhash =>
    cases hfound
    rw [hunproposed]
    refine ⟨written, rfl, ?_⟩
    rw [RematchRequest.named, hsuccessor, hhash]
    exact hnamed
  | proposed _ successor proposalHash expiresAt hproposal =>
    rw [hproposal]
    exact ⟨_, rfl, rfl⟩
  | approved _ record hcall =>
    cases hfound
    rw [hcall]
    exact ⟨_, rfl, hnamed⟩

theorem run_names {request : RematchRequest} (hs : Book s) (hfound : s.request id = some request)
    (js : List (Input contract)) :
    Book ((machine contract).run s js) ∧
      ∃ request', ((machine contract).run s js).request id = some request' ∧
        request'.named = latest request.named id ((machine contract).journal s js) := by
  refine @Machine.run_journal_invariant _ _ _ _ (machine contract)
    (fun t es => Book t ∧ ∃ request', t.request id = some request' ∧
      request'.named = latest request.named id es) s ⟨hs, request, hfound, rfl⟩ ?_ js
  intro es t i o t' ht h
  obtain ⟨hbook, hnamed⟩ := ht
  have heffect := step_effect h
  refine ⟨heffect.book hbook, ?_⟩
  exact (heffect.requestMove hbook id).names (e := ⟨t, i, o, t'⟩) hnamed

/-- A read returns the stored request and changes nothing. -/
theorem getRequest_ok {caller : Address} {o : Answer}
    (h : (machine contract).step s ⟨env, .getRequest caller id⟩ = .ok (o, s')) :
    s' = s ∧ ∃ request, o = some request ∧ s.request id = some request := by
  simp only [machine, execute, getRequest, loadRequest, map_eq_ok, bind_eq_ok, orRefuse_eq_ok, pure_eq_ok,
    exists_unit, Prod.mk.injEq] at h
  obtain ⟨request, ⟨_, hfound, _, _, _, _, rfl⟩, rfl, rfl⟩ := h
  exact ⟨rfl, _, rfl, hfound⟩

end Proposals

/-- In every run in which the mentee reads a request and later approves the successor on it, what is
approved is what stands in storage, and that is what was read just when what was last proposed in between,
if anything, was the same again. -/
theorem run_reads (is js : List (Input contract)) (read approval : Env contract) (mentee : Address)
    (id : Bytes32) (request : RematchRequest) (s s' : State) (o : Answer)
    (hread : (machine contract).step ((machine contract).run State.empty is)
      ⟨read, .getRequest mentee id⟩ = .ok (some request, s))
    (happroval : (machine contract).step ((machine contract).run s js)
      ⟨approval, .approveSuccessor mentee id⟩ = .ok (o, s')) :
    ∃ stored record approved, Found ((machine contract).run s js) id stored record ∧
      record.mentee = mentee ∧ s'.request id = some approved ∧
      approved.status = .approvedForClosure ∧ approved.named = stored.named ∧
      (stored.named = request.named ↔
        ∀ last, (proposals id ((machine contract).journal s js)).getLast? = some last →
          (some last.1, last.2) = request.named) := by
  obtain ⟨hsame, stored, hstored, hfound⟩ := getRequest_ok hread
  cases hstored
  have hbook : Book s := by
    rw [hsame]
    exact run_book is
  rw [← hsame] at hfound
  obtain ⟨hbook', stored, hstored, hnamed⟩ := run_names hbook hfound js
  have hiff : stored.named = request.named ↔
      ∀ last, (proposals id ((machine contract).journal s js)).getLast? = some last →
        (some last.1, last.2) = request.named := by
    rw [hnamed, latest]
    cases (proposals id ((machine contract).journal s js)).getLast? with
    | none =>
      constructor
      · intro _ last hnone
        cases hnone
      · exact fun _ => rfl
    | some last =>
      constructor
      · intro hsame other hother
        cases hother
        exact hsame
      · exact fun hall => hall last rfl
  simp only [machine, execute, map_eq_ok, Prod.mk.injEq] at happroval
  obtain ⟨_, happrove, rfl, rfl⟩ := happroval
  obtain ⟨approved, record, hfounds, hmentee, _, hdone⟩ := approveSuccessor_ok happrove
  have hrow : approved = stored := Option.some.inj (hfounds.requestFound.symm.trans hstored)
  subst hrow
  rcases hdone with ⟨rfl, hstatus⟩ | ⟨_, _, rfl⟩
  · exact ⟨approved, record, approved, hfounds, hmentee.symm, hstored, hstatus, rfl, hiff⟩
  · refine ⟨approved, record, approved.approved approval.timestamp, hfounds, hmentee.symm, ?_, rfl, rfl, hiff⟩
    rw [← hbook'.requests.keyed id approved hstored]
    exact Function.update_self _ _ _

section Samples

/-- A request with a proposed successor, as the mentee reads it. -/
def sampleProposal : List (Input ⟨0⟩) :=
  [⟨.sample, .initializeContract ⟨1⟩ 3600⟩,
    ⟨.sample, .registerMatch ⟨1⟩ 10 0 ⟨2⟩ ⟨3⟩⟩,
    ⟨.sample, .requestRematch ⟨3⟩ 10 20 .incompatibility 5 6⟩,
    ⟨.sample, .startReview ⟨1⟩ 20⟩,
    ⟨.sample, .proposeSuccessor ⟨1⟩ 20 ⟨4⟩ 7⟩]

/-- Another successor is proposed before the mentee's approval. -/
def sampleReplacement : List (Input ⟨0⟩) := [⟨.sampleLater, .proposeSuccessor ⟨1⟩ 20 ⟨5⟩ 8⟩]

def sampleApproval : Input ⟨0⟩ := ⟨.sampleLater, .approveSuccessor ⟨3⟩ 20⟩

/-- What is read, and the approval that is accepted afterwards. -/
theorem sampleReplacement_accepted : ∃ request s o s',
    (machine ⟨0⟩).step ((machine ⟨0⟩).run State.empty sampleProposal) ⟨.sample, .getRequest ⟨3⟩ 20⟩ =
        .ok (some request, s) ∧ request.named = (some ⟨4⟩, 7) ∧
      (machine ⟨0⟩).step ((machine ⟨0⟩).run s sampleReplacement) sampleApproval = .ok (o, s') ∧
      (proposals 20 ((machine ⟨0⟩).journal s sampleReplacement)).getLast? = some (⟨5⟩, 8) := by
  obtain ⟨⟨o₀, s⟩, hread⟩ : ∃ a, (machine ⟨0⟩).step ((machine ⟨0⟩).run State.empty sampleProposal)
      ⟨.sample, .getRequest ⟨3⟩ 20⟩ = .ok a := by
    decide +kernel
  obtain ⟨hsame, request, rfl, hfound⟩ := getRequest_ok hread
  obtain ⟨⟨o, s'⟩, happroval⟩ : ∃ a, (machine ⟨0⟩).step
      ((machine ⟨0⟩).run ((machine ⟨0⟩).run State.empty sampleProposal) sampleReplacement)
      sampleApproval = .ok a := by
    decide +kernel
  have hnamed : (((machine ⟨0⟩).run State.empty sampleProposal).request 20).map
      RematchRequest.named = some (some ⟨4⟩, 7) := by
    decide +kernel
  have hlast : (proposals 20 ((machine ⟨0⟩).journal ((machine ⟨0⟩).run State.empty sampleProposal)
      sampleReplacement)).getLast? = some (⟨5⟩, 8) := by
    decide +kernel
  rw [hfound, Option.map_some, Option.some.injEq] at hnamed
  rw [← hsame] at happroval hlast
  exact ⟨request, s, o, s', hread, hnamed, happroval, hlast⟩

theorem run_reads_sample : ∃ request s stored record,
    (machine ⟨0⟩).step ((machine ⟨0⟩).run State.empty sampleProposal) ⟨.sample, .getRequest ⟨3⟩ 20⟩ =
        .ok (some request, s) ∧
      Found ((machine ⟨0⟩).run s sampleReplacement) 20 stored record ∧ stored.named ≠ request.named := by
  obtain ⟨request, s, o, s', hread, hnamed, happroval, hlast⟩ := sampleReplacement_accepted
  obtain ⟨stored, record, _, hfound, _, _, _, _, hiff⟩ := run_reads sampleProposal sampleReplacement .sample
    .sampleLater ⟨3⟩ 20 request s s' o hread happroval
  refine ⟨request, s, stored, record, hread, hfound, ?_⟩
  intro hsame
  have hfirst := hiff.mp hsame (⟨5⟩, 8) hlast
  rw [hnamed] at hfirst
  exact absurd hfirst (by decide)

/-- The approval goes to a successor that the mentee has not read. -/
theorem not_run_reads : ¬∀ (is js : List (Input ⟨0⟩)) (read approval : Env ⟨0⟩) (mentee : Address)
    (id : Bytes32) (request stored : RematchRequest) (s s' : State) (o : Answer),
    (machine ⟨0⟩).step ((machine ⟨0⟩).run State.empty is) ⟨read, .getRequest mentee id⟩ =
        .ok (some request, s) →
      (machine ⟨0⟩).step ((machine ⟨0⟩).run s js) ⟨approval, .approveSuccessor mentee id⟩ = .ok (o, s') →
      ((machine ⟨0⟩).run s js).request id = some stored → stored.named = request.named := by
  intro hall
  obtain ⟨request, s, o, s', hread, hnamed, happroval, hlast⟩ := sampleReplacement_accepted
  have hbook : Book s := by
    obtain ⟨hsame, _⟩ := getRequest_ok hread
    rw [hsame]
    exact run_book sampleProposal
  obtain ⟨hsame, _, hrequest, hfound⟩ := getRequest_ok hread
  cases hrequest
  rw [← hsame] at hfound
  obtain ⟨_, stored, hstored, hlatest⟩ := run_names hbook hfound sampleReplacement
  have hread' := hall sampleProposal sampleReplacement .sample .sampleLater ⟨3⟩ 20 request stored s s' o
    hread happroval hstored
  rw [hlatest, latest, hlast, hnamed] at hread'
  exact absurd hread' (by decide)

end Samples

end ChainVerse.MentorshipRematch
