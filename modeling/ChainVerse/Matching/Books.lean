import ChainVerse.Matching.Steps

namespace ChainVerse.MentorshipMatching

section Books

variable {contract : Address} {crypto : Crypto} {env : Env contract} {s s' t : State} {id : Bytes32}
  {old new : Proposal} {es : List (Step contract)}

section Counting

/-- Whether a row is a proposal of the program that waits for approval. -/
def pends (programId : Bytes32) : Option Proposal → Bool
  | some p => decide (p.programId = programId ∧ p.status = .proposed)
  | none => false

/-- Whether a line is an adjustment of the proposal. -/
def isAdjustment (id : Bytes32) : Option CoordinatorAction → Bool
  | some action => decide (action.kind = .adjusted ∧ action.proposalId = id)
  | none => false

/-- The proposals of a program that wait for approval. -/
def State.pendingIds (s : State) (programId : Bytes32) : Set Bytes32 :=
  {id | pends programId (s.proposal id) = true}

/-- The logged adjustments of a proposal. -/
def State.adjustments (s : State) (id : Bytes32) : Set (Address × Nat) :=
  {key | isAdjustment id (s.coordAction key) = true}

/-- The bytes that a call has hashed into a proposal's id. -/
def preimage (crypto : Crypto) (e : Step contract) : Option (List Byte) :=
  e.input.call.creation.map fun c =>
    idInput crypto (e.pre.proposalCount + 1) e.input.env.timestamp c.pair

/-- The bytes that the calls have hashed into proposals' ids. -/
def hashed (crypto : Crypto) (es : List (Step contract)) : List (List Byte) :=
  es.filterMap (preimage crypto)

end Counting

/-- Open proposals are indexed by their pair, and those that wait for approval are counted. -/
structure Book (s : State) : Prop where
  keyed : ∀ id p, s.proposal id = some p → p.id = id
  indexed : ∀ id p, s.proposal id = some p → p.status.isOpen = true → s.pairIndex p.pair = some id
  pending : ∀ programId, s.pendingCount programId = (s.pendingIds programId).ncard
  bounded : ∀ programId, s.pendingCount programId ≤ maxPendingProposalsPerProgram

theorem book_empty : Book State.empty where
  keyed id p h := by cases h
  indexed id p h := by cases h
  pending programId := by
    have hnone : State.empty.pendingIds programId = ∅ := by
      ext id
      simp [State.pendingIds, State.empty, pends]
    rw [hnone, Set.ncard_empty]
    rfl
  bounded _ := Nat.zero_le _

section Books

theorem pends_other {p : Proposal} {programId : Bytes32} (h : p.programId ≠ programId) :
    pends programId (some p) = false :=
  decide_eq_false fun hboth => h hboth.1

theorem pends_own {p : Proposal} : pends p.programId (some p) = decide (p.status = .proposed) := by
  simp [pends]

/-- A proposal that waits is counted. -/
theorem Book.counted (hs : Book s) (hfound : s.proposal id = some old)
    (hproposed : old.status = .proposed) : 0 < s.pendingCount old.programId := by
  rw [hs.pending, Set.ncard_pos (finite_bytes32 _)]
  refine ⟨id, ?_⟩
  show pends old.programId (s.proposal id) = true
  rw [hfound, pends_own, hproposed]
  rfl

/-- A stored proposal is replaced, the count moved with it. -/
theorem Book.rewrite (hs : Book s) (hfound : s.proposal id = some old) (hid : new.id = old.id)
    (hpair : new.pair = old.pair)
    (hopen : new.status.isOpen = true → old.status.isOpen = true)
    (hproposal : s'.proposal = Function.update s.proposal new.id (some new))
    (hindex : s'.pairIndex = s.pairIndex) {n : Nat}
    (hpending : s'.pendingCount = Function.update s.pendingCount old.programId n)
    (hmoved : n + (if old.status = .proposed then 1 else 0) =
      s.pendingCount old.programId + if new.status = .proposed then 1 else 0)
    (hbound : n ≤ maxPendingProposalsPerProgram) : Book s' := by
  have hkey : new.id = id := hid.trans (hs.keyed id old hfound)
  have hprogram : new.programId = old.programId := congrArg Prod.fst hpair
  rw [hkey] at hproposal
  refine ⟨forall_update_row hs.keyed hproposal hkey, ?_, ?_, ?_⟩
  · rw [hindex]
    refine forall_update_row hs.indexed hproposal fun hnew => ?_
    rw [hpair]
    exact hs.indexed id old hfound (hopen hnew)
  · intro programId
    have hcard := ncard_update_id (pends programId) hproposal
    have hcount := hs.pending programId
    rw [State.pendingIds] at hcount ⊢
    rw [hfound, ← hcount] at hcard
    rw [hpending]
    by_cases hsame : programId = old.programId
    · subst hsame
      rw [Function.update_self]
      rw [pends_own, ← hprogram, pends_own, hprogram] at hcard
      simp only [decide_eq_true_eq] at hcard
      omega
    · rw [Function.update_of_ne hsame]
      rw [pends_other (Ne.symm hsame), pends_other (hprogram ▸ Ne.symm hsame)] at hcard
      exact hcard.symm
  · intro programId
    rw [hpending]
    by_cases hsame : programId = old.programId
    · rw [hsame, Function.update_self]
      exact hbound
    · rw [Function.update_of_ne hsame]
      exact hs.bounded programId

/-- A new proposal takes the place of its pair. -/
theorem Book.insert (hs : Book s) (hfresh : s.proposal id = none) (hid : new.id = id)
    (hproposed : new.status = .proposed)
    (hclear : ∀ x p, s.pairIndex new.pair = some x → s.proposal x = some p → p.status.isOpen = false)
    (hproposal : s'.proposal = Function.update s.proposal id (some new))
    (hindex : s'.pairIndex = Function.update s.pairIndex new.pair (some id))
    (hpending : s'.pendingCount =
      Function.update s.pendingCount new.programId (s.pendingCount new.programId + 1))
    (hroom : s.pendingCount new.programId < maxPendingProposalsPerProgram) : Book s' := by
  refine ⟨forall_update_row hs.keyed hproposal hid, ?_, ?_, ?_⟩
  · intro x p hp hopen
    rw [hproposal] at hp
    rw [hindex]
    rcases update_row_cases hp with ⟨rfl, rfl⟩ | ⟨hne, hold⟩
    · rw [Function.update_self]
    · have hplace := hs.indexed x p hold hopen
      have hother : p.pair ≠ new.pair := by
        intro hsame
        rw [hsame] at hplace
        rw [hclear x p hplace hold] at hopen
        cases hopen
      rw [Function.update_of_ne hother]
      exact hplace
  · intro programId
    have hcard := ncard_update_id (pends programId) hproposal
    have hcount := hs.pending programId
    rw [State.pendingIds] at hcount ⊢
    rw [hfresh, ← hcount] at hcard
    rw [hpending]
    by_cases hsame : programId = new.programId
    · subst hsame
      rw [Function.update_self]
      rw [pends_own, hproposed] at hcard
      exact hcard.symm
    · rw [Function.update_of_ne hsame]
      rw [pends_other (Ne.symm hsame)] at hcard
      exact hcard.symm
  · intro programId
    rw [hpending]
    by_cases hsame : programId = new.programId
    · rw [hsame, Function.update_self]
      exact hroom
    · rw [Function.update_of_ne hsame]
      exact hs.bounded programId

/-- A proposal that waits is settled, and its place given back. -/
theorem Book.settle (hs : Book s) (hfound : s.proposal id = some old)
    (hproposed : old.status = .proposed) (hid : new.id = old.id) (hpair : new.pair = old.pair)
    (hsettled : new.status ≠ .proposed) :
    Book (storeProposal (decreasePending s old.programId) new) := by
  have hpositive := hs.counted hfound hproposed
  have hbounded := hs.bounded old.programId
  refine hs.rewrite hfound hid hpair (fun _ => ?_) (settled_proposal s old.programId new)
    (decreasePending_pairIndex s old.programId)
    (decreasePending_pendingCount hpositive) ?_ ?_
  · rw [hproposed]
    rfl
  · rw [if_pos hproposed, if_neg hsettled]
    omega
  · omega

/-- A proposal is replaced without a change to the count. -/
theorem Book.amend (hs : Book s) (hfound : s.proposal id = some old) (hid : new.id = old.id)
    (hpair : new.pair = old.pair)
    (hopen : new.status.isOpen = true → old.status.isOpen = true)
    (hsame : new.status = .proposed ↔ old.status = .proposed) : Book (storeProposal s new) := by
  refine @Book.rewrite s _ id old new hs hfound hid hpair hopen rfl rfl (s.pendingCount old.programId)
    ?_ ?_ (hs.bounded old.programId)
  · rw [Function.update_eq_self]
    rfl
  · simp only [hsame]

theorem Book.expire (hs : Book s) (hfound : s.proposal id = some old) :
    Book (expireProposal env s old) := by
  by_cases hproposed : old.status = .proposed
  · have hsettled := @Book.settle s id old { old with
      status := .expired
      updatedAt := env.timestamp } hs hfound hproposed rfl rfl fun hstatus => by cases hstatus
    rw [expireProposal, if_pos hproposed]
    exact hsettled
  · have hamended := @Book.amend s id old { old with
      status := .expired
      updatedAt := env.timestamp } hs hfound rfl rfl (fun hstatus => by cases hstatus)
      ⟨fun hstatus => (by cases hstatus), fun hstatus => absurd hstatus hproposed⟩
    rw [expireProposal, if_neg hproposed]
    exact hamended

/-- Once the old proposal is retired, nothing open stands in the pair's place. -/
theorem Retired.book {pair : Pair} (h : Retired env s pair t) (hs : Book s) :
    Book t ∧ (∀ x p, t.pairIndex pair = some x → t.proposal x = some p → p.status.isOpen = false) ∧
      (∀ x, s.proposal x = none → t.proposal x = none) ∧ t.coordAction = s.coordAction ∧
      t.coordActionCount = s.coordActionCount ∧ t.proposalCount = s.proposalCount := by
  cases h with
  | clear hclosed => exact ⟨hs, hclosed, fun _ h => h, rfl, rfl, rfl⟩
  | lapse existingId existing hindex hfound =>
    have hkey := hs.keyed existingId existing hfound
    have hwritten : (expireProposal env s existing).proposal = Function.update s.proposal existingId
        (some { existing with
          status := .expired
          updatedAt := env.timestamp }) := by
      rw [← hkey]
      exact expireProposal_proposal env s existing
    have hkept := expireProposal_pairIndex env s existing
    refine ⟨hs.expire hfound, ?_, ?_, ?_⟩
    · intro x p hx hp
      rw [hkept, hindex, Option.some.injEq] at hx
      rw [hwritten, ← hx, Function.update_self] at hp
      cases hp
      rfl
    · intro x hx
      have hne : x ≠ existingId := by
        intro heq
        rw [heq, hfound] at hx
        cases hx
      rw [hwritten, Function.update_of_ne hne]
      exact hx
    · exact expireProposal_log env s existing

end Books

end Books

variable {contract : Address} {crypto : Crypto} {env : Env contract} {s s' t : State} {id : Bytes32}
  {old new : Proposal} {es : List (Step contract)}

/-- The log of the coordinators' actions, and the versions that it accounts for. -/
structure Log (s : State) : Prop where
  numbered : Numbered s.coordActionCount s.coordAction
  versions : ∀ id p, s.proposal id = some p → p.version = 1 + (s.adjustments id).ncard
  unused : ∀ id, s.proposal id = none → (s.adjustments id).ncard = 0

theorem log_empty : Log State.empty where
  numbered := numbered_empty
  versions id p h := by cases h
  unused id _ := by
    have hnone : State.empty.adjustments id = ∅ := by
      ext key
      simp [State.adjustments, State.empty, isAdjustment]
    rw [hnone, Set.ncard_empty]

section Logging

variable {action : Option CoordinatorAction}

theorem Logs.numbered (h : Logs s s' action) (hs : Numbered s.coordActionCount s.coordAction) :
    Numbered s'.coordActionCount s'.coordAction := by
  cases action with
  | none =>
    rw [h.1, h.2]
    exact hs
  | some line => exact hs.append h

/-- No line of a log is lost. -/
theorem Logs.keeps (h : Logs s s' action) (hs : Numbered s.coordActionCount s.coordAction)
    {key : Address × Nat} {line : CoordinatorAction} (hline : s.coordAction key = some line) :
    s'.coordAction key = some line := by
  cases action with
  | none => rwa [h.1]
  | some appended => exact hs.keeps h hline

theorem Logs.adjustments (h : Logs s s' action) (hs : Numbered s.coordActionCount s.coordAction)
    (id : Bytes32) :
    (s'.adjustments id).ncard =
      (s.adjustments id).ncard + if isAdjustment id action = true then 1 else 0 := by
  cases action with
  | none => rw [State.adjustments, h.1, State.adjustments, isAdjustment, if_neg Bool.false_ne_true, Nat.add_zero]
  | some line =>
    exact hs.ncard_append h (fun row => isAdjustment id row = true) Bool.false_ne_true

/-- A stored proposal is replaced, with the next version when the adjustment is logged. -/
theorem Log.rewrite (hs : Log s) (hfound : s.proposal id = some old)
    (hproposal : s'.proposal = Function.update s.proposal id (some new)) (hlog : Logs s s' action)
    (hversion : new.version = old.version + if isAdjustment id action = true then 1 else 0)
    (hothers : ∀ x, x ≠ id → isAdjustment x action = false) : Log s' := by
  refine ⟨hlog.numbered hs.numbered, ?_, ?_⟩
  · intro x p hp
    rw [hproposal] at hp
    rw [hlog.adjustments hs.numbered]
    rcases update_row_cases hp with ⟨rfl, rfl⟩ | ⟨hne, hold⟩
    · rw [hversion, hs.versions x old hfound]
      omega
    · rw [hothers x hne, if_neg Bool.false_ne_true, Nat.add_zero]
      exact hs.versions x p hold
  · intro x hx
    rw [hproposal] at hx
    have hne : x ≠ id := by
      intro heq
      rw [heq, Function.update_self] at hx
      cases hx
    rw [Function.update_of_ne hne] at hx
    rw [hlog.adjustments hs.numbered, hothers x hne, if_neg Bool.false_ne_true, Nat.add_zero]
    exact hs.unused x hx

/-- A new proposal has the first version. -/
theorem Log.insert (hs : Log s) (hfresh : s.proposal id = none)
    (hproposal : s'.proposal = Function.update s.proposal id (some new)) (hlog : Logs s s' action)
    (hversion : new.version = 1) (haction : ∀ x, isAdjustment x action = false) : Log s' := by
  have hsame : ∀ x, (s'.adjustments x).ncard = (s.adjustments x).ncard := by
    intro x
    rw [hlog.adjustments hs.numbered, haction x, if_neg Bool.false_ne_true, Nat.add_zero]
  refine ⟨hlog.numbered hs.numbered, ?_, ?_⟩
  · intro x p hp
    rw [hproposal] at hp
    rw [hsame]
    rcases update_row_cases hp with ⟨rfl, rfl⟩ | ⟨_, hold⟩
    · rw [hversion, hs.unused x hfresh]
    · exact hs.versions x p hold
  · intro x hx
    rw [hproposal] at hx
    have hne : x ≠ id := by
      intro heq
      rw [heq, Function.update_self] at hx
      cases hx
    rw [Function.update_of_ne hne] at hx
    rw [hsame]
    exact hs.unused x hx

theorem Creation.action_isAdjustment (c : Creation) (id x : Bytes32) (now : Nat) :
    isAdjustment x (c.action id now) = false := by
  unfold Creation.action
  cases c.options.reasonHash with
  | none => rfl
  | some reason =>
    rw [Option.map_some, isAdjustment]
    apply decide_eq_false
    intro h
    cases h.1

/-- The rows after the pair's old proposal has been retired. -/
theorem Retired.log {pair : Pair} (h : Retired env s pair t) (hbook : Book s) (hs : Log s) : Log t := by
  cases h with
  | clear => exact hs
  | lapse existingId existing hindex hfound =>
    have hkey := hbook.keyed existingId existing hfound
    refine @Log.rewrite s _ existingId existing { existing with
      status := .expired
      updatedAt := env.timestamp } none hs hfound ?_ ?_ rfl fun _ _ => rfl
    · rw [← hkey]
      exact expireProposal_proposal env s existing
    · obtain ⟨haction, hcount, _⟩ := expireProposal_log env s existing
      exact ⟨haction, hcount⟩

/-- Every accepted call logs at most one action. -/
theorem Effect.logs {i : Input contract} {o : Answer} (h : Effect crypto i.env s i.call o s') :
    ∃ action, Logs s s' action := by
  obtain ⟨env, call⟩ := i
  cases h with
  | quiet _ _ hsame => exact ⟨none, hsame.coordAction, hsame.coordActionCount⟩
  | create c t id _ _ hretired hcreated =>
    have htables : t.coordAction = s.coordAction ∧ t.coordActionCount = s.coordActionCount := by
      cases hretired with
      | clear => exact ⟨rfl, rfl⟩
      | lapse existingId existing =>
        obtain ⟨haction, hcount, _⟩ := expireProposal_log env s existing
        exact ⟨haction, hcount⟩
    refine ⟨c.action id env.timestamp, ?_⟩
    have hlog := hcreated.log
    unfold Logs at hlog ⊢
    rwa [htables.1, htables.2] at hlog
  | approve participant id version proposal =>
    obtain ⟨haction, hcount, _⟩ := approved_log env s participant proposal
    exact ⟨none, haction, hcount⟩
  | decline participant id reasonCode proposal =>
    obtain ⟨haction, hcount, _⟩ := decreasePending_log s proposal.programId
    exact ⟨none, haction, hcount⟩
  | adjust coordinator id terms reasonHash proposal hreadjusted => exact ⟨_, hreadjusted.log⟩

end Logging

end ChainVerse.MentorshipMatching
