import ChainVerse.Matching.Ledger

namespace ChainVerse.MentorshipMatching

variable {contract : Address} {crypto : Crypto} {env : Env contract} {s s' t : State} {id : Bytes32}
  {old new p : Proposal} {pair : Pair} {es : List (Step contract)}

section Indexing

/-- What the index has for a pair is a proposal of the pair. -/
def State.Named (s : State) : Prop :=
  ∀ pair id, s.pairIndex pair = some id → ∃ p, s.proposal id = some p ∧ p.pair = pair

/-- A stored proposal is replaced by one of the same pair. -/
theorem State.Named.rewrite (hs : s.Named) (hfound : s.proposal id = some old)
    (hpair : new.pair = old.pair)
    (hproposal : s'.proposal = Function.update s.proposal id (some new))
    (hindex : s'.pairIndex = s.pairIndex) : s'.Named := by
  intro pair x hx
  rw [hindex] at hx
  obtain ⟨p, hp, hnamed⟩ := hs pair x hx
  rw [hproposal]
  by_cases hid : x = id
  · rw [hid, hfound, Option.some.injEq] at hp
    rw [hid, Function.update_self]
    exact ⟨new, rfl, by rw [hpair, hp, hnamed]⟩
  · rw [Function.update_of_ne hid]
    exact ⟨p, hp, hnamed⟩

theorem Retired.named (h : Retired env s pair t) (hbook : Book s) (hs : s.Named) :
    t.Named ∧ t.pairIndex = s.pairIndex := by
  cases h with
  | clear => exact ⟨hs, rfl⟩
  | lapse existingId existing hindex hfound =>
    obtain rfl := hbook.keyed existingId existing hfound
    have hkept := expireProposal_pairIndex env s existing
    refine ⟨hs.rewrite hfound ?_ (expireProposal_proposal env s existing) hkept, hkept⟩
    rfl

theorem Created.named {c : Creation} (h : Created crypto env t s' c id) (ht : t.Named)
    (hfresh : t.proposal id = none) : s'.Named := by
  intro pair x hx
  rw [h.pairIndex] at hx
  rw [h.proposal]
  rcases update_row_cases hx with ⟨rfl, rfl⟩ | ⟨_, hold⟩
  · exact ⟨_, Function.update_self _ _ _, rfl⟩
  · obtain ⟨p, hp, hnamed⟩ := ht pair x hold
    exact ⟨p, update_keeps_row hfresh hp, hnamed⟩

theorem approved_pairIndex (env : Env contract) (s : State) (participant : Address) (p : Proposal) :
    (approved env s participant p).pairIndex = s.pairIndex := by
  dsimp only [approved]
  split_ifs <;> simp [storeProposal]

/-- Every accepted call keeps the index. -/
theorem Effect.named {i : Input contract} {o : Answer} (h : Effect crypto i.env s i.call o s')
    (hl : Ledger crypto s es) (hs : s.Named)
    (hfree : CollisionFree crypto.sha256 (hashed crypto (es ++ [⟨s, i, o, s'⟩]))) : s'.Named := by
  obtain ⟨env, call⟩ := i
  cases h with
  | quiet _ _ hsame =>
    intro pair id hid
    rw [hsame.pairIndex] at hid
    rw [hsame.proposal]
    exact hs pair id hid
  | create c t id hcreates _ hretired hcreated =>
    have hfresh := (hl.create (e := ⟨s, ⟨env, call⟩, some id, s'⟩) hcreates rfl hretired hcreated hfree).1
    have hstored := (hretired.book hl.book).2.2.1
    exact hcreated.named (hretired.named hl.book hs).1 (hstored id hfresh)
  | approve participant id version proposal happrovable =>
    have hwritten := approved_proposal env s participant proposal
    rw [hl.book.keyed id proposal happrovable.found] at hwritten
    exact hs.rewrite happrovable.found (afterApproval_offer proposal participant env.timestamp).2.1
      hwritten (approved_pairIndex env s participant proposal)
  | decline participant id reasonCode proposal hfound =>
    obtain rfl := hl.book.keyed id proposal hfound
    refine hs.rewrite hfound ?_ (settled_proposal s proposal.programId _)
      (decreasePending_pairIndex s proposal.programId)
    rfl
  | adjust coordinator id terms reasonHash proposal hreadjusted =>
    obtain rfl := hl.book.keyed id proposal hreadjusted.found
    refine hs.rewrite hreadjusted.found ?_ hreadjusted.proposal hreadjusted.pairIndex
    rfl

theorem run_named (is : List (Input contract))
    (hfree : CollisionFree crypto.sha256
      (hashed crypto ((machine contract crypto).journal State.empty is))) :
    ((machine contract crypto).run State.empty is).Named := by
  have hrun := @Machine.run_journal_invariant _ _ _ _ (machine contract crypto)
    (fun s es => CollisionFree crypto.sha256 (hashed crypto es) → Ledger crypto s es ∧ s.Named)
    State.empty (fun _ => ⟨ledger_empty, fun _ _ h => nomatch h⟩) ?_ is
  · exact (hrun hfree).2
  · intro es s i o s' hs h hfree
    obtain ⟨hledger, hnamed⟩ := hs hfree.filterMap_left
    exact ⟨(step_effect h).ledger hledger hfree, (step_effect h).named hledger hnamed hfree⟩

end Indexing

section Places

/-- The proposals of the program that wait for approval and are of other pairs. -/
def State.othersPending (s : State) (pair : Pair) : Set Bytes32 :=
  {id | ∃ p, s.proposal id = some p ∧ p.programId = pair.1 ∧ p.status = .proposed ∧ p.pair ≠ pair}

/-- No proposal of the pair is open before its expiry. -/
def State.Unproposed (s : State) (pair : Pair) (now : Nat) : Prop :=
  ∀ id p, s.proposal id = some p → p.pair = pair → p.status.isOpen = true → p.expiresAt ≤ now

theorem mem_pendingIds {programId : Bytes32} :
    id ∈ s.pendingIds programId ↔
      ∃ p, s.proposal id = some p ∧ p.programId = programId ∧ p.status = .proposed := by
  rw [State.pendingIds, Set.mem_ofPred_eq]
  rcases s.proposal id with _ | p
  · simp [pends]
  · simp [pends]

theorem isOpen_of_proposed (h : p.status = .proposed) : p.status.isOpen = true := by
  rw [h]
  rfl

/-- Once the pair's old proposal is retired, the places taken are those of the other pairs, whatever
their expiry. -/
theorem Retired.pendingCount (h : Retired env s pair t) (hbook : Book s) (hs : s.Named) :
    t.pendingCount pair.1 = (s.othersPending pair).ncard := by
  rw [(h.book hbook).1.pending]
  congr 1
  ext id
  rw [mem_pendingIds]
  cases h with
  | clear hclosed =>
    constructor
    · rintro ⟨p, hp, hprogram, hproposed⟩
      refine ⟨p, hp, hprogram, hproposed, ?_⟩
      rintro rfl
      have hopen := isOpen_of_proposed hproposed
      rw [hclosed id p (hbook.indexed id p hp hopen) hp] at hopen
      cases hopen
    · rintro ⟨p, hp, hprogram, hproposed, _⟩
      exact ⟨p, hp, hprogram, hproposed⟩
  | lapse existingId existing hindex hfound =>
    obtain rfl := hbook.keyed existingId existing hfound
    obtain ⟨known, hknown, hnamed⟩ := hs pair existing.id hindex
    obtain rfl : existing = known := Option.some.inj (hfound.symm.trans hknown)
    rw [expireProposal_proposal]
    constructor
    · rintro ⟨p, hp, hprogram, hproposed⟩
      rcases update_row_cases hp with ⟨_, rfl⟩ | ⟨hne, hold⟩
      · cases hproposed
      · refine ⟨p, hold, hprogram, hproposed, fun hpair => hne ?_⟩
        have hplace := hbook.indexed id p hold (isOpen_of_proposed hproposed)
        rw [hpair, hindex, Option.some.injEq] at hplace
        exact hplace.symm
    · rintro ⟨p, hp, hprogram, hproposed, hother⟩
      have hne : id ≠ existing.id := by
        rintro rfl
        rw [hfound, Option.some.injEq] at hp
        rw [← hp] at hother
        exact hother hnamed
      exact ⟨p, (Function.update_of_ne hne _ _).trans hp, hprogram, hproposed⟩

/-- The old proposal of a pair without an open one can be retired. -/
theorem retireExisting_unproposed (hs : s.Named) (h : s.Unproposed pair env.timestamp) :
    ∃ t, retireExisting env s pair = .ok t := by
  rcases hindex : s.pairIndex pair with _ | id
  · exact ⟨s, by simp only [retireExisting, hindex, pure_eq_ok]⟩
  · obtain ⟨p, hp, hnamed⟩ := hs pair id hindex
    by_cases hopen : p.status.isOpen = true
    · have hpassed := not_lt.mpr (h id p hp hnamed hopen)
      refine ⟨expireProposal env s p, ?_⟩
      simp only [retireExisting, hindex, loadProposal, bind_eq_ok, orRefuse_eq_ok]
      refine ⟨p, hp, ?_⟩
      rw [if_pos hopen]
      simp only [bind_eq_ok, refuseIf_eq_ok, exists_unit, pure_eq_ok, and_true]
      exact hpassed
    · refine ⟨s, ?_⟩
      simp only [retireExisting, hindex, loadProposal, bind_eq_ok, orRefuse_eq_ok]
      refine ⟨p, hp, ?_⟩
      rw [if_neg hopen, pure_eq_ok]

end Places

section Creations

/-- Terms that a proposal can be made on. -/
structure ProposalTerms.Valid (terms : ProposalTerms) (now : Nat) : Prop where
  committed : terms.termsHash ≠ 0
  fee : 0 ≤ terms.proposedFee
  future : now < terms.expiresAt
  fits : now + maxProposalLifetime < 2^64
  bounded : terms.expiresAt ≤ now + maxProposalLifetime

variable {mentor mentee : Address} {programId : Bytes32} {terms : ProposalTerms}

theorem validTerms_eq_ok {u : Unit} :
    validTerms env terms = .ok u ↔ terms.Valid env.timestamp := by
  simp only [validTerms, bind_eq_ok, exists_unit, refuseIf_eq_ok, orRefuse_eq_ok, fitsU_eq_some,
    not_or, not_lt, not_le]
  constructor
  · rintro ⟨⟨hcommitted, hfee⟩, hfuture, _, ⟨hfits, rfl⟩, hbounded⟩
    exact ⟨hcommitted, hfee, hfuture, hfits, hbounded⟩
  · rintro ⟨hcommitted, hfee, hfuture, hfits, hbounded⟩
    exact ⟨⟨hcommitted, hfee⟩, hfuture, _, ⟨hfits, rfl⟩, hbounded⟩

theorem requireEligible_eligible (h : s.Eligible mentor mentee) :
    requireEligible s mentor mentee = .ok () := by
  obtain ⟨⟨_, hmentor⟩, ⟨_, hmentee⟩, hunblocked, hunblocked'⟩ := h
  simp only [requireEligible, loadParticipant, bind_eq_ok, orRefuse_eq_ok, refuseIf_eq_ok, exists_unit,
    isBlocked, hunblocked, hunblocked']
  exact ⟨_, hmentor, _, hmentee, by simp, by simp, by simp⟩

theorem State.Eligible.ne (h : s.Eligible mentor mentee) : mentor ≠ mentee := by
  rintro rfl
  obtain ⟨⟨_, hmentor⟩, ⟨_, hmentee⟩, _⟩ := h
  rw [hmentor] at hmentee
  cases hmentee

/-- What a mentor's creation depends on when the pair and the terms are admissible. -/
theorem createProposal_iff (hbook : Book s) (hs : s.Named) (hsigned : env.signers mentor = true)
    (hprogram : programId ≠ 0) (hterms : terms.Valid env.timestamp) (heligible : s.Eligible mentor mentee)
    (hopen : s.Unproposed (programId, mentor, mentee) env.timestamp) :
    (∃ id s', createProposal crypto env s mentor programId mentee terms = .ok (id, s')) ↔
      s.proposalCount + 1 < 2^64 ∧
        (s.othersPending (programId, mentor, mentee)).ncard < maxPendingProposalsPerProgram := by
  constructor
  · rintro ⟨id, s', h⟩
    simp only [createProposal, bind_eq_ok, exists_unit] at h
    obtain ⟨t, hretired, hcreated⟩ :=
      @create_effect _ _ _ _ _ _ ⟨(programId, mentor, mentee), terms, _⟩ h.2
    have hroom := hcreated.room
    have hfits := hcreated.fits
    rw [hretired.pendingCount hbook hs] at hroom
    rw [(hretired.book hbook).2.2.2.2.2] at hfits
    exact ⟨hfits, hroom⟩
  · rintro ⟨hfits, hroom⟩
    obtain ⟨t, hretire⟩ := retireExisting_unproposed hs hopen
    have hretired := retireExisting_ok hretire
    rw [← hretired.pendingCount hbook hs] at hroom
    rw [← (hretired.book hbook).2.2.2.2.2] at hfits
    simp only [createProposal, create, deriveId, increasePending, recordReason, bind_eq_ok, exists_unit,
      requireAuth_eq_ok, refuseIf_eq_ok, orRefuse_eq_ok, fitsU_eq_some, pure_eq_ok, not_le,
      Prod.mk.injEq]
    exact ⟨_, _, hsigned, hprogram, heligible.ne, validTerms_eq_ok.mpr hterms,
      requireEligible_eligible heligible, t, hretire, _, ⟨_, ⟨hfits, rfl⟩, rfl⟩, _, ⟨hroom, rfl⟩, _, rfl,
      rfl, rfl⟩

/-- In every run in which no two hashed ids collide, an eligible pair without an open proposal can be
proposed, on valid terms and while ids are left, exactly as long as fewer than 128 proposals of the
program's other pairs wait for approval: also those whose expiry has passed. -/
theorem run_places (is : List (Input contract))
    (hfree : CollisionFree crypto.sha256
      (hashed crypto ((machine contract crypto).journal State.empty is)))
    (hsigned : env.signers mentor = true) (hprogram : programId ≠ 0)
    (hterms : terms.Valid env.timestamp)
    (heligible : ((machine contract crypto).run State.empty is).Eligible mentor mentee)
    (hopen : ((machine contract crypto).run State.empty is).Unproposed (programId, mentor, mentee)
      env.timestamp) :
    let s := (machine contract crypto).run State.empty is
    (∃ id s', createProposal crypto env s mentor programId mentee terms = .ok (id, s')) ↔
      s.proposalCount + 1 < 2^64 ∧
        (s.othersPending (programId, mentor, mentee)).ncard < maxPendingProposalsPerProgram :=
  createProposal_iff (run_matched is hfree).book (run_named is hfree) hsigned hprogram hterms heligible
    hopen

/-- The pair's own expired proposal does not stand in the way of another one. -/
theorem run_places_sample :
    (((machine ⟨0⟩ sampleCrypto).run State.empty sampleProposed).othersPending
      (7, ⟨2⟩, ⟨3⟩)).ncard < maxPendingProposalsPerProgram := by
  have hproposal : ((machine ⟨0⟩ sampleCrypto).run State.empty sampleProposed).proposal =
      Function.update (fun _ => none) sampleId (some (newProposal .sample sampleId (7, ⟨2⟩, ⟨3⟩) ⟨5, 0, 30⟩
        ⟨⟨2⟩, .mentor, none⟩)) := rfl
  have hopen : ((machine ⟨0⟩ sampleCrypto).run State.empty sampleProposed).Unproposed (7, ⟨2⟩, ⟨3⟩) 40 := by
    intro id p hp _ _
    rw [hproposal] at hp
    rcases update_row_cases hp with ⟨_, rfl⟩ | ⟨_, hnone⟩
    · decide
    · cases hnone
  have hplaces := @run_places ⟨0⟩ sampleCrypto (.signedByAll ⟨0⟩ 40 (by decide)) ⟨2⟩ ⟨3⟩ 7 ⟨5, 0, 60⟩
    sampleProposed (by decide +kernel) rfl (by decide) ⟨by decide, by decide, by decide, by decide, by decide⟩
    ⟨⟨10, rfl⟩, ⟨10, rfl⟩, rfl, rfl⟩ hopen
  have hsucceeds : (createProposal sampleCrypto (.signedByAll ⟨0⟩ 40 (by decide))
      ((machine ⟨0⟩ sampleCrypto).run State.empty sampleProposed) ⟨2⟩ 7 ⟨3⟩
      ⟨5, 0, 60⟩).toOption.isSome = true := by decide +kernel
  obtain ⟨⟨id, s'⟩, hsome⟩ := Option.isSome_iff_exists.mp hsucceeds
  exact (hplaces.mp ⟨id, s', toOption_eq_some.mp hsome⟩).2

end Creations

section Samples

/-- Mentor 2 proposes a match to mentee `3 + n`, until time 30. -/
def sampleOffer (n : Nat) : List (Input ⟨0⟩) :=
  [⟨.sample, .registerParticipant ⟨1⟩ ⟨3 + n⟩ .mentee⟩,
    ⟨.sample, .createProposal ⟨2⟩ 7 ⟨3 + n⟩ ⟨5, 0, 30⟩⟩]

def sampleOffers (n : Nat) : List (Input ⟨0⟩) :=
  [⟨.sample, .initializeContract ⟨1⟩⟩, ⟨.sample, .registerParticipant ⟨1⟩ ⟨2⟩ .mentor⟩] ++
    (List.range n).flatMap sampleOffer

/-- The store after `n` offers. -/
structure Offered (s : State) (n : Nat) : Prop where
  admin : s.admin = some ⟨1⟩
  mentor : s.participant ⟨2⟩ = some ⟨.mentor, .active, 10⟩
  unregistered : ∀ k, n ≤ k → s.participant ⟨3 + k⟩ = none
  unblocked : ∀ a b, s.blocked (a, b) = false
  proposalCount : s.proposalCount = n
  pendingCount : s.pendingCount 7 = n
  unindexed : ∀ k, n ≤ k → s.pairIndex (7, ⟨2⟩, ⟨3 + k⟩) = none
  expiry : ∀ id p, s.proposal id = some p → p.expiresAt = 30

variable {n : Nat}

theorem key_ne {a b : Nat} (h : a ≠ b) : (⟨a⟩ : Address) ≠ ⟨b⟩ :=
  fun heq => h (congrArg Address.key heq)

/-- Mentee `3 + n` is registered. -/
def registered (s : State) (n : Nat) : State :=
  { s with participant := Function.update s.participant ⟨3 + n⟩ (some ⟨.mentee, .active, 10⟩) }

theorem Offered.register (h : Offered s n) :
    (machine ⟨0⟩ crypto).next s ⟨.sample, .registerParticipant ⟨1⟩ ⟨3 + n⟩ .mentee⟩ =
      registered s n := by
  have hvacant := h.unregistered n le_rfl
  apply Machine.next_ok (o := none)
  simp only [machine, execute, registerParticipant, requireAdmin, map_eq_ok, bind_eq_ok, exists_unit,
    orRefuse_eq_ok, refuseIf_eq_ok, requireAuth_eq_ok, pure_eq_ok, Prod.mk.injEq, not_not]
  exact ⟨_, ⟨⟨⟨1⟩, h.admin, rfl, rfl⟩, hvacant, rfl⟩, trivial, rfl⟩

theorem Offered.eligible (h : Offered s n) : (registered s n).Eligible ⟨2⟩ ⟨3 + n⟩ where
  mentorActive := ⟨10, (Function.update_of_ne (key_ne (by omega)) _ _).trans h.mentor⟩
  menteeActive := ⟨10, Function.update_self _ _ _⟩
  unblocked := ⟨h.unblocked _ _, h.unblocked _ _⟩

theorem Offered.fits (h : Offered s n) (hn : n ≤ maxPendingProposalsPerProgram) :
    (registered s n).proposalCount + 1 < 2^64 := by
  have hcount : (registered s n).proposalCount = n := h.proposalCount
  unfold maxPendingProposalsPerProgram at hn
  omega

theorem Offered.propose (h : Offered s n) (hn : n < maxPendingProposalsPerProgram) :
    ∃ id, (machine ⟨0⟩ crypto).next (registered s n)
        ⟨.sample, .createProposal ⟨2⟩ 7 ⟨3 + n⟩ ⟨5, 0, 30⟩⟩ = { registered s n with
      proposalCount := s.proposalCount + 1
      pendingCount := Function.update s.pendingCount 7 (s.pendingCount 7 + 1)
      proposal := Function.update s.proposal id
        (some (newProposal .sample id (7, ⟨2⟩, ⟨3 + n⟩) ⟨5, 0, 30⟩ ⟨⟨2⟩, .mentor, none⟩))
      pairIndex := Function.update s.pairIndex (7, ⟨2⟩, ⟨3 + n⟩) (some id) } := by
  have hclear : (registered s n).pairIndex (7, ⟨2⟩, ⟨3 + n⟩) = none := h.unindexed n le_rfl
  have hroom : s.pendingCount 7 < maxPendingProposalsPerProgram := by rwa [h.pendingCount]
  have hfits := h.fits hn.le
  have hvalid : ProposalTerms.Valid ⟨5, 0, 30⟩ 10 := ⟨by decide, by decide, by decide, by decide, by decide⟩
  refine ⟨crypto.sha256 (idInput crypto (s.proposalCount + 1) 10 (7, ⟨2⟩, ⟨3 + n⟩)), ?_⟩
  apply Machine.next_ok
    (o := some (crypto.sha256 (idInput crypto (s.proposalCount + 1) 10 (7, ⟨2⟩, ⟨3 + n⟩))))
  simp only [machine, execute, createProposal, create, retireExisting, deriveId, increasePending,
    recordReason, hclear, map_eq_ok, bind_eq_ok, exists_unit, requireAuth_eq_ok, refuseIf_eq_ok,
    orRefuse_eq_ok, fitsU_eq_some, pure_eq_ok, not_le, Prod.mk.injEq]
  exact ⟨(_, _), ⟨rfl, by decide, h.eligible.ne, validTerms_eq_ok.mpr hvalid,
    requireEligible_eligible h.eligible, _, rfl, _, ⟨_, ⟨hfits, rfl⟩, rfl⟩, _, ⟨hroom, rfl⟩, _, rfl, rfl⟩,
    rfl, rfl⟩

theorem Offered.next (h : Offered s n) (hn : n < maxPendingProposalsPerProgram) :
    Offered ((machine ⟨0⟩ crypto).run s (sampleOffer n)) (n + 1) := by
  obtain ⟨id, hpropose⟩ := @Offered.propose crypto _ _ h hn
  rw [sampleOffer, Machine.run_cons, h.register, Machine.run_cons, Machine.run_nil, hpropose]
  have hcount := congrArg (· + 1) h.pendingCount
  constructor
  · exact h.admin
  · exact (Function.update_of_ne (key_ne (by omega)) _ _).trans h.mentor
  · intro k hk
    exact (Function.update_of_ne (key_ne (by omega)) _ _).trans (h.unregistered k (by omega))
  · exact h.unblocked
  · exact congrArg (· + 1) h.proposalCount
  · exact (Function.update_self 7 _ s.pendingCount).trans hcount
  · intro k hk
    have hne : ((7, ⟨2⟩, ⟨3 + k⟩) : Pair) ≠ (7, ⟨2⟩, ⟨3 + n⟩) := by
      intro heq
      have hmentee := congrArg (fun pair : Pair => pair.2.2) heq
      exact key_ne (by omega) hmentee
    exact (Function.update_of_ne hne _ _).trans (h.unindexed k (by omega))
  · exact forall_update_row h.expiry rfl rfl

theorem offered_zero (crypto : Crypto) :
    Offered ((machine ⟨0⟩ crypto).run State.empty (sampleOffers 0)) 0 where
  admin := rfl
  mentor := rfl
  unregistered k _ := Function.update_of_ne (key_ne (by omega)) _ _
  unblocked _ _ := rfl
  proposalCount := rfl
  pendingCount := rfl
  unindexed _ _ := rfl
  expiry _ _ h := nomatch h

theorem offered_run (crypto : Crypto) (hn : n ≤ maxPendingProposalsPerProgram) :
    Offered ((machine ⟨0⟩ crypto).run State.empty (sampleOffers n)) n := by
  induction n with
  | zero => exact offered_zero crypto
  | succ n ih =>
    have hoffers : sampleOffers (n + 1) = sampleOffers n ++ sampleOffer n := by
      rw [sampleOffers, List.range_succ, List.flatMap_append, List.flatMap_singleton, ← List.append_assoc,
        ← sampleOffers]
    rw [hoffers, Machine.run_append]
    exact (ih (by omega)).next hn

/-- A full program refuses a new pair. -/
theorem Offered.refused (h : Offered s n) (hn : maxPendingProposalsPerProgram ≤ n) {env : Env ⟨0⟩}
    {terms : ProposalTerms} :
    ¬ ∃ id s', createProposal crypto env (registered s n) ⟨2⟩ 7 ⟨3 + n⟩ terms = .ok (id, s') := by
  rintro ⟨id, s', hcreate⟩
  simp only [createProposal, bind_eq_ok, exists_unit] at hcreate
  obtain ⟨t, hretired, hcreated⟩ :=
    @create_effect _ _ _ _ _ _ ⟨(7, ⟨2⟩, ⟨3 + n⟩), terms, _⟩ hcreate.2
  have hroom := hcreated.room
  cases hretired with
  | clear =>
    have hfull : (registered s n).pendingCount 7 = n := h.pendingCount
    rw [hfull] at hroom
    omega
  | lapse _ _ hindex =>
    have hclear := h.unindexed n le_rfl
    cases hclear.symm.trans hindex

/-- The proposals of the program that wait for approval before their expiry. -/
def State.livePending (s : State) (programId : Bytes32) (now : Nat) : Set Bytes32 :=
  {id | ∃ p, s.proposal id = some p ∧ p.programId = programId ∧ p.status = .proposed ∧ now < p.expiresAt}

theorem Offered.unproposed (h : Offered s n) : (registered s n).Unproposed pair 40 := by
  intro id p hp _ _
  rw [h.expiry id p hp]
  decide

theorem Offered.unlive (h : Offered s n) :
    ((registered s n).livePending 7 40).ncard < maxPendingProposalsPerProgram := by
  have hnone : (registered s n).livePending 7 40 = ∅ := by
    rw [Set.eq_empty_iff_forall_notMem]
    rintro id ⟨p, hp, _, _, hlive⟩
    rw [h.expiry id p hp] at hlive
    exact absurd hlive (by decide)
  rw [hnone, Set.ncard_empty]
  decide

/-- After 128 offers nobody has taken up, a 129th mentee cannot be proposed once all have expired. This
is so whatever the hash function. -/
theorem not_run_places :
    ¬ ∃ crypto : Crypto, ∀ (is : List (Input ⟨0⟩)) (env : Env ⟨0⟩) (programId : Bytes32)
      (mentor mentee : Address) (terms : ProposalTerms),
      let s := (machine ⟨0⟩ crypto).run State.empty is
      env.signers mentor = true → programId ≠ 0 → terms.Valid env.timestamp → s.Eligible mentor mentee →
        s.Unproposed (programId, mentor, mentee) env.timestamp → s.proposalCount + 1 < 2^64 →
        (s.livePending programId env.timestamp).ncard < maxPendingProposalsPerProgram →
        ∃ id s', createProposal crypto env s mentor programId mentee terms = .ok (id, s') := by
  rintro ⟨crypto, hplaces⟩
  have hs := @offered_run _ crypto le_rfl
  have hrun : (machine ⟨0⟩ crypto).run State.empty (sampleOffers maxPendingProposalsPerProgram ++
      [⟨.sample, .registerParticipant ⟨1⟩ ⟨3 + maxPendingProposalsPerProgram⟩ .mentee⟩]) =
        registered ((machine ⟨0⟩ crypto).run State.empty (sampleOffers maxPendingProposalsPerProgram))
          maxPendingProposalsPerProgram := by
    rw [Machine.run_append, Machine.run_cons, hs.register, Machine.run_nil]
  have hsucceeds := hplaces (sampleOffers maxPendingProposalsPerProgram ++
    [⟨.sample, .registerParticipant ⟨1⟩ ⟨3 + maxPendingProposalsPerProgram⟩ .mentee⟩])
    (.signedByAll ⟨0⟩ 40 (by decide)) 7 ⟨2⟩ ⟨3 + maxPendingProposalsPerProgram⟩ ⟨5, 0, 60⟩
  rw [hrun] at hsucceeds
  apply hs.refused le_rfl
  apply hsucceeds rfl (by decide) ⟨by decide, by decide, by decide, by decide, by decide⟩ hs.eligible
  · exact hs.unproposed
  · exact hs.fits le_rfl
  · exact hs.unlive

end Samples

end ChainVerse.MentorshipMatching
