import ChainVerse.Matching.Books

namespace ChainVerse.MentorshipMatching

variable {contract : Address} {crypto : Crypto} {env : Env contract} {s s' t : State} {id : Bytes32}
  {old new : Proposal} {es : List (Step contract)}

/-- The proposals with their index, counts, versions and ids after the calls `es`. -/
structure Ledger (crypto : Crypto) (s : State) (es : List (Step contract)) : Prop where
  book : Book s
  log : Log s
  issued : Issued crypto.sha256 (fun id => s.proposal id ≠ none) s.proposalCount (hashed crypto es)

theorem ledger_empty : Ledger crypto State.empty ([] : List (Step contract)) where
  book := book_empty
  log := log_empty
  issued := issued_empty.mono fun _ h => h rfl

section Writes

theorem hashed_snoc (e : Step contract) :
    hashed crypto (es ++ [e]) = hashed crypto es ++ (preimage crypto e).toList := filterMap_snoc e

/-- A call that creates nothing hashes nothing. -/
theorem hashed_quiet {e : Step contract} (h : e.input.call.creation = none) :
    hashed crypto (es ++ [e]) = hashed crypto es := by
  rw [hashed_snoc, preimage, h, Option.map_none, Option.toList_none, List.append_nil]

theorem Ledger.same {e : Step contract} (hl : Ledger crypto s es) (hsame : Same s s')
    (huncreated : e.input.call.creation = none) : Ledger crypto s' (es ++ [e]) := by
  obtain ⟨hbook, hlog, hissued⟩ := hl
  have hpending : ∀ programId, s'.pendingIds programId = s.pendingIds programId := by
    intro programId
    rw [State.pendingIds, hsame.proposal, State.pendingIds]
  have hadjusted : ∀ id, s'.adjustments id = s.adjustments id := by
    intro id
    rw [State.adjustments, hsame.coordAction, State.adjustments]
  refine ⟨⟨?_, ?_, ?_, ?_⟩, ⟨?_, ?_, ?_⟩, ?_⟩
  · rw [hsame.proposal]
    exact hbook.keyed
  · rw [hsame.proposal, hsame.pairIndex]
    exact hbook.indexed
  · intro programId
    rw [hsame.pendingCount, hpending]
    exact hbook.pending programId
  · rw [hsame.pendingCount]
    exact hbook.bounded
  · rw [hsame.coordAction, hsame.coordActionCount]
    exact hlog.numbered
  · intro id p hp
    rw [hsame.proposal] at hp
    rw [hadjusted]
    exact hlog.versions id p hp
  · intro id hid
    rw [hsame.proposal] at hid
    rw [hadjusted]
    exact hlog.unused id hid
  · rw [hashed_quiet huncreated, hsame.proposal, hsame.proposalCount]
    exact hissued

/-- A stored proposal is replaced by a call that creates nothing. -/
theorem Ledger.rewrite {e : Step contract} (hl : Ledger crypto s es) (hbook : Book s') (hlog : Log s')
    (hfound : s.proposal id = some old)
    (hproposal : s'.proposal = Function.update s.proposal id (some new))
    (hcount : s'.proposalCount = s.proposalCount) (huncreated : e.input.call.creation = none) :
    Ledger crypto s' (es ++ [e]) := by
  refine ⟨hbook, hlog, ?_⟩
  rw [hashed_quiet huncreated, hproposal, hcount]
  exact hl.issued.rewrite hfound

/-- A new proposal is stored under an unused id. -/
theorem Ledger.create {e : Step contract} {c : Creation} (hl : Ledger crypto s es)
    (hcreates : e.input.call.creation = some c) (hpre : e.pre = s)
    (hretired : Retired e.input.env s c.pair t) (hcreated : Created crypto e.input.env t s' c id)
    (hfree : CollisionFree crypto.sha256 (hashed crypto (es ++ [e]))) :
    s.proposal id = none ∧ Ledger crypto s' (es ++ [e]) := by
  obtain ⟨hbook, hclear, hstored, _, _, hcount⟩ := hretired.book hl.book
  have hlog := hretired.log hl.book hl.log
  have hpreimage : preimage crypto e =
      some (idInput crypto (t.proposalCount + 1) e.input.env.timestamp c.pair) := by
    rw [preimage, hcreates, hpre, hcount]
    rfl
  rw [hashed_snoc, hpreimage, Option.toList_some] at hfree
  have hissued : Issued crypto.sha256 (fun x => t.proposal x ≠ none) t.proposalCount
      (hashed crypto es) := by
    rw [hcount]
    refine hl.issued.mono fun x hx habsent => hx (hstored x habsent)
  have hunused : ¬ s.proposal id ≠ none := by
    have hfits := hcreated.fits
    rw [hcreated.hashed]
    rw [hcount] at hfits hfree ⊢
    exact hl.issued.fresh rfl hfits hfree
  have hfresh : s.proposal id = none := not_not.mp hunused
  have hfresht := hstored id hfresh
  refine ⟨hfresh, ⟨?_, ?_, ?_⟩⟩
  · exact @Book.insert t s' id (newProposal e.input.env id c.pair c.terms c.options) hbook hfresht rfl rfl
      hclear hcreated.proposal hcreated.pairIndex hcreated.pendingCount hcreated.room
  · exact hlog.insert hfresht hcreated.proposal hcreated.log rfl
      fun x => c.action_isAdjustment id x _
  · rw [hashed_snoc, hpreimage, Option.toList_some, hcreated.proposal, hcreated.proposalCount]
    exact hissued.insert rfl hcreated.fits hcreated.hashed

theorem approved_book {participant : Address} {version : Nat} (hs : Book s)
    (h : Approvable env s participant id version old) : Book (approved env s participant old) := by
  obtain ⟨hid, hpair, _, _, hstatus⟩ := approvedBy_offer old participant env.timestamp
  have hprogram : (old.approvedBy participant env.timestamp).programId = old.programId :=
    congrArg Prod.fst hpair
  have hsettled := @Book.settle s id old { old.approvedBy participant env.timestamp with status := .active }
    hs h.found h.proposed hid hpair fun hactive => by cases hactive
  rw [← hprogram] at hsettled
  dsimp only [approved]
  split_ifs
  · exact hsettled
  · refine hs.amend h.found hid hpair (fun _ => ?_) (by rw [hstatus])
    rw [h.proposed]
    rfl

/-- Every accepted call keeps the ledger. -/
theorem Effect.ledger {i : Input contract} {o : Answer} (h : Effect crypto i.env s i.call o s')
    (hl : Ledger crypto s es)
    (hfree : CollisionFree crypto.sha256 (hashed crypto (es ++ [⟨s, i, o, s'⟩]))) :
    Ledger crypto s' (es ++ [⟨s, i, o, s'⟩]) := by
  obtain ⟨env, call⟩ := i
  cases h with
  | quiet huncreated _ hsame => exact hl.same hsame huncreated
  | create c t id hcreates _ hretired hcreated =>
    exact (hl.create (e := ⟨s, ⟨env, call⟩, some id, s'⟩) hcreates rfl hretired hcreated hfree).2
  | approve participant id version proposal happrovable =>
    have hwritten := approved_proposal env s participant proposal
    rw [hl.book.keyed id proposal happrovable.found] at hwritten
    have hversion := (afterApproval_offer proposal participant env.timestamp).2.2.2
    obtain ⟨haction, hactions, hcount⟩ := approved_log env s participant proposal
    have hlogs : Logs s (approved env s participant proposal) none := ⟨haction, hactions⟩
    refine hl.rewrite (approved_book hl.book happrovable) ?_ happrovable.found hwritten hcount rfl
    exact hl.log.rewrite happrovable.found hwritten hlogs hversion fun _ _ => rfl
  | decline participant id reasonCode proposal hfound hproposed =>
    have hkey := hl.book.keyed id proposal hfound
    have hwritten : (storeProposal (decreasePending s proposal.programId) { proposal with
        status := .declined
        updatedAt := env.timestamp }).proposal = Function.update s.proposal id (some { proposal with
          status := .declined
          updatedAt := env.timestamp }) := by
      rw [← hkey]
      exact settled_proposal s proposal.programId _
    obtain ⟨haction, hactions, hcount⟩ := decreasePending_log s proposal.programId
    have hlogs : Logs s (storeProposal (decreasePending s proposal.programId) { proposal with
        status := .declined
        updatedAt := env.timestamp }) none := ⟨haction, hactions⟩
    refine hl.rewrite ?_ ?_ hfound hwritten hcount rfl
    · exact @Book.settle s id proposal { proposal with
        status := .declined
        updatedAt := env.timestamp } hl.book hfound hproposed rfl rfl fun hdeclined => by cases hdeclined
    · exact hl.log.rewrite hfound hwritten hlogs rfl fun _ _ => rfl
  | adjust coordinator id terms reasonHash proposal hreadjusted =>
    have hfound := hreadjusted.found
    have hkey := hl.book.keyed id proposal hfound
    have hwritten := hreadjusted.proposal
    rw [hkey] at hwritten
    refine hl.rewrite ?_ ?_ hfound hwritten hreadjusted.proposalCount rfl
    · refine @Book.rewrite s s' id proposal
        (proposal.adjusted terms coordinator (proposal.version + 1) env.timestamp) hl.book hfound rfl rfl
        (fun _ => hreadjusted.isOpen) hreadjusted.proposal hreadjusted.pairIndex _
        hreadjusted.pendingCount ?_ ?_
      · cases hstatus : proposal.status with
        | proposed => rfl
        | active => rfl
        | declined =>
          have hopen := hreadjusted.isOpen
          rw [hstatus] at hopen
          cases hopen
        | expired =>
          have hopen := hreadjusted.isOpen
          rw [hstatus] at hopen
          cases hopen
      · have hbounded := hl.book.bounded proposal.programId
        split_ifs with hactive
        · exact hreadjusted.room hactive
        · exact hbounded
    · refine hl.log.rewrite hfound hwritten hreadjusted.log ?_ ?_
      · rw [isAdjustment, if_pos (decide_eq_true ⟨rfl, rfl⟩)]
        rfl
      · intro x hx
        apply decide_eq_false
        intro hboth
        exact hx hboth.2.symm

end Writes

/-- The ledger of every run in which no two hashed ids collide. -/
theorem run_matched (is : List (Input contract))
    (hfree : CollisionFree crypto.sha256
      (hashed crypto ((machine contract crypto).journal State.empty is))) :
    Ledger crypto ((machine contract crypto).run State.empty is)
      ((machine contract crypto).journal State.empty is) := by
  have hrun := @Machine.run_journal_invariant _ _ _ _ (machine contract crypto)
    (fun s es => CollisionFree crypto.sha256 (hashed crypto es) → Ledger crypto s es) State.empty
    (fun _ => ledger_empty)
    (fun es s i o s' hs h hfree => (step_effect h).ledger (hs hfree.filterMap_left) hfree) is
  exact hrun hfree

/-- Logged actions stay as they are, whatever is called afterwards. -/
theorem run_keeps_actions (is js : List (Input contract)) {key : Address × Nat}
    {action : CoordinatorAction}
    (h : ((machine contract crypto).run State.empty is).coordAction key = some action) :
    ((machine contract crypto).run State.empty (is ++ js)).coordAction key = some action := by
  have hstep : ∀ (s : State) i o s', Numbered s.coordActionCount s.coordAction →
      (machine contract crypto).step s i = .ok (o, s') →
      Numbered s'.coordActionCount s'.coordAction ∧
        ∀ key action, s.coordAction key = some action → s'.coordAction key = some action := by
    intro s i o s' hs hs'
    obtain ⟨_, hlogs⟩ := (step_effect hs').logs
    exact ⟨hlogs.numbered hs, fun _ _ => hlogs.keeps hs⟩
  have hnumbered : Numbered ((machine contract crypto).run State.empty is).coordActionCount
      ((machine contract crypto).run State.empty is).coordAction := by
    refine @Machine.run_invariant _ _ _ _ (machine contract crypto)
      (fun s => Numbered s.coordActionCount s.coordAction) State.empty numbered_empty ?_ is
    intro s i o s' hs hs'
    exact (hstep s i o s' hs hs').1
  rw [Machine.run_append]
  refine @Machine.run_relation _ _ _ _ (machine contract crypto)
    (fun s => Numbered s.coordActionCount s.coordAction)
    (fun s s' => ∀ key action, s.coordAction key = some action → s'.coordAction key = some action)
    (fun _ _ _ hkept => hkept) ?_ _ hnumbered ?_ ?_ js key action h
  · intro _ _ _ hab hbc key action hfound
    exact hbc key action (hab key action hfound)
  · intro s i o s' hs hs'
    exact (hstep s i o s' hs hs').1
  · intro s i o s' hs hs'
    exact (hstep s i o s' hs hs').2

/-- In every run the pending counts are exact and bounded, each pair has at most one open proposal, which
the index names, and the coordinators' logs are complete, only grow and account for every version. -/
theorem run_matching (is : List (Input contract))
    (hfree : CollisionFree crypto.sha256
      (hashed crypto ((machine contract crypto).journal State.empty is))) :
    let s := (machine contract crypto).run State.empty is
    (∀ programId, s.pendingCount programId = (s.pendingIds programId).ncard ∧
        s.pendingCount programId ≤ maxPendingProposalsPerProgram) ∧
      (∀ id p, s.proposal id = some p → p.status.isOpen = true → s.pairIndex p.pair = some id) ∧
      (∀ id id' p p', s.proposal id = some p → s.proposal id' = some p' → p.status.isOpen = true →
        p'.status.isOpen = true → p.pair = p'.pair → id = id') ∧
      (∀ coordinator seq, s.coordAction (coordinator, seq) ≠ none ↔
        1 ≤ seq ∧ seq ≤ s.coordActionCount coordinator) ∧
      (∀ js key action, s.coordAction key = some action →
        ((machine contract crypto).run State.empty (is ++ js)).coordAction key = some action) ∧
      ∀ id p, s.proposal id = some p →
        (s.adjustments id).Finite ∧ p.version = 1 + (s.adjustments id).ncard := by
  intro s
  have hledger := run_matched is hfree
  refine ⟨?_, hledger.book.indexed, ?_, hledger.log.numbered.dense, ?_, ?_⟩
  · exact fun programId => ⟨hledger.book.pending programId, hledger.book.bounded programId⟩
  · intro id id' p p' hp hp' hopen hopen' hpair
    have hindex := hledger.book.indexed id p hp hopen
    have hindex' := hledger.book.indexed id' p' hp' hopen'
    rw [hpair, hindex', Option.some.injEq] at hindex
    exact hindex.symm
  · intro js key action haction
    exact run_keeps_actions is js haction
  · intro id p hp
    refine ⟨hledger.log.numbered.finite.subset ?_, hledger.log.versions id p hp⟩
    intro key hkey hblank
    rw [State.adjustments, Set.mem_ofPred_eq] at hkey
    rw [hblank] at hkey
    cases hkey

section Samples

/-- The SHA-256 digests of the preimages of the first proposal for mentor 2 and mentee 3 in program 7, at
time 10, and of a second one at time 40. -/
def sampleId : Bytes32 := 0x980675253ace3a9f9fcd620de5162721d35963d06e480ca3206aa11ef9d7eb7e
def sampleNextId : Bytes32 := 0xc8e00218dc9f163811a947e460354ba3df4600aaa2fe8d7f04309be355976ac4

def sampleCrypto : Crypto where
  sha256 p :=
    let salt := bytes32 7 ++ accountXdr ⟨2⟩ ++ accountXdr ⟨3⟩
    if p = beBytes 8 1 ++ (beBytes 8 10 ++ salt) then sampleId
    else if p = beBytes 8 2 ++ (beBytes 8 40 ++ salt) then sampleNextId
    else 0
  addressXdr := accountXdr

/-- A proposal that waits for approval. -/
def sampleProposed : List (Input ⟨0⟩) :=
  [⟨.sample, .initializeContract ⟨1⟩⟩,
    ⟨.sample, .registerParticipant ⟨1⟩ ⟨2⟩ .mentor⟩,
    ⟨.sample, .registerParticipant ⟨1⟩ ⟨3⟩ .mentee⟩,
    ⟨.sample, .createProposal ⟨2⟩ 7 ⟨3⟩ ⟨5, 0, 30⟩⟩]

/-- Both sides approve. -/
def sampleAgreed : List (Input ⟨0⟩) :=
  sampleProposed ++
    [⟨.sampleLater, .approveProposal ⟨2⟩ sampleId 1⟩, ⟨.sampleLater, .approveProposal ⟨3⟩ sampleId 1⟩]

theorem run_matching_sample :
    (((machine ⟨0⟩ sampleCrypto).run State.empty sampleProposed).pendingIds 7).ncard = 1 := by
  have hmatching := @run_matching ⟨0⟩ sampleCrypto sampleProposed (by decide +kernel)
  have hcount : ((machine ⟨0⟩ sampleCrypto).run State.empty sampleProposed).pendingCount 7 = 1 := by
    decide +kernel
  rw [← (hmatching.1 7).1, hcount]

end Samples

end ChainVerse.MentorshipMatching
