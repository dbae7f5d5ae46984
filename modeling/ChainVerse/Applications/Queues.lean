import ChainVerse.Applications.Reviews
import ChainVerse.Framework.Sorting
import Mathlib.Data.Prod.Lex
import Mathlib.Order.WithBot

namespace ChainVerse.MentorshipApplicationsContract

section Assignments

variable {contract : Address} {env env' : Env contract} {s s' : State} {caller reviewer : Address}
  {id dueAt : Nat} {expected : Option Address}

theorem requireReviewerOrAdmin_ok {programId : Bytes32} {u : Unit} :
    requireReviewerOrAdmin env s programId caller = .ok u ↔
      (isActiveReviewer s programId caller || isAdmin s caller) = true ∧
        env.signers caller = true := by
  unfold requireReviewerOrAdmin
  split_ifs with hscoped
  · simp [hscoped]
  · simp [hscoped]

/-- The assignment stands, and its caller may make it again. -/
structure Assigned (s : State) (caller : Address) (id : Nat) (reviewer : Address) (dueAt : Nat) :
    Prop where
  application : ∃ application, s.application id = some application ∧
    (isActiveReviewer s application.programId caller || isAdmin s caller) = true ∧
    isActiveReviewer s application.programId reviewer = true
  review : ∃ review, s.review id = some review ∧ review.status ≠ .decided ∧
    review.assignee = some reviewer ∧ review.dueAt = dueAt

theorem assignReviewer_assigned
    (h : assignReviewer env s caller id reviewer expected dueAt = .ok s') :
    Assigned s' caller id reviewer dueAt := by
  simp only [assignReviewer, loadApplication, loadReview, bind_eq_ok, orRefuse_eq_ok,
    refuseIf_eq_ok, exists_unit, requireReviewerOrAdmin_ok, Bool.not_eq_false] at h
  obtain ⟨application, hqueued, ⟨hscoped, _⟩, hactive, review, hfound, hundecided, _, h⟩ := h
  by_cases hsame : review.assignee = some reviewer ∧ review.dueAt = dueAt
  · rw [if_pos hsame, pure_eq_ok] at h
    subst h
    exact ⟨⟨application, hqueued, hscoped, hactive⟩, review, hfound, hundecided, hsame⟩
  · rw [if_neg hsame] at h
    -- Whether or not the assignee changes, the trail is extended and the review is rewritten.
    have hwritten : ∃ t, appendAudit env s id caller .assigned = .ok t ∧
        saveReview t id { review with
          assignee := some reviewer, assignedAt := env.timestamp, dueAt := dueAt,
          status := .assigned } = s' := by
      by_cases hnew : review.assignee = some reviewer
      · simpa [hnew] using h
      · simp only [hnew, ne_eq, not_false_eq_true, if_true, bind_eq_ok, exists_unit,
          pure_eq_ok] at h
        exact h.2
    simp only [appendAudit, bind_eq_ok, refuseIf_eq_ok, exists_unit, pure_eq_ok] at hwritten
    obtain ⟨_, ⟨_, rfl⟩, rfl⟩ := hwritten
    refine ⟨⟨application, hqueued, hscoped, hactive⟩, _, Function.update_self _ _ _, ?_, rfl, rfl⟩
    intro hdecided
    cases hdecided

/-- An assignment that stands is found as it is by a caller who expects its assignee, and refused to
one who does not. -/
theorem Assigned.assignReviewer (h : Assigned s caller id reviewer dueAt)
    (hsigned : env.signers caller = true) :
    assignReviewer env s caller id reviewer expected dueAt =
      if expected = some reviewer then .ok s else .error (.err .assignmentConflict) := by
  obtain ⟨application, hqueued, hscoped, hactive⟩ := h.application
  obtain ⟨review, hfound, hundecided, hassignee, hdue⟩ := h.review
  have hcaller : requireReviewerOrAdmin env s application.programId caller = .ok () :=
    requireReviewerOrAdmin_ok.mpr ⟨hscoped, hsigned⟩
  simp only [MentorshipApplicationsContract.assignReviewer, loadApplication, loadReview, hqueued,
    hfound, orRefuse, ok_bind, hcaller, hactive, hassignee, hdue, hundecided, refuseIf, if_false,
    Bool.true_eq_false, and_self, if_true]
  by_cases hexpected : expected = some reviewer
  · rw [if_pos hexpected, if_neg (not_not.mpr hexpected.symm)]
    rfl
  · rw [if_neg hexpected, if_pos (Ne.symm hexpected)]
    rfl

/-- The repetition of an accepted assignment changes nothing exactly when the call has expected the
reviewer whom it assigns. -/
theorem repeat_assignment_iff (h : assignReviewer env s caller id reviewer expected dueAt = .ok s')
    (hsigned : env'.signers caller = true) :
    assignReviewer env' s' caller id reviewer expected dueAt = .ok s' ↔
      expected = some reviewer := by
  rw [(assignReviewer_assigned h).assignReviewer hsigned]
  by_cases hexpected : expected = some reviewer
  · simp [hexpected]
  · simp [hexpected]

/-- Two applications for a program with a reviewer. -/
def sampleReviewer : List (Input ⟨0⟩) :=
  sampleApplications ++ [⟨.sample, .grantReviewer ⟨1⟩ 5 ⟨4⟩ 2⟩]

theorem repeat_assignment_sample :
    let s := (machine ⟨0⟩).run State.empty
      (sampleReviewer ++ [⟨.sample, .assignReviewer ⟨1⟩ 1 ⟨4⟩ none 0⟩])
    ∃ s', assignReviewer Env.sample s ⟨1⟩ 1 ⟨4⟩ (some ⟨4⟩) 30 = .ok s' ∧
      assignReviewer Env.sampleLater s' ⟨1⟩ 1 ⟨4⟩ (some ⟨4⟩) 30 = .ok s' := by
  intro s
  obtain ⟨s', h⟩ : ∃ s', assignReviewer Env.sample s ⟨1⟩ 1 ⟨4⟩ (some ⟨4⟩) 30 = .ok s' := ⟨_, rfl⟩
  exact ⟨s', h, (repeat_assignment_iff h rfl).mpr rfl⟩

/-- The first assignment of an application expects nobody, and its repetition does too. -/
theorem repeat_assignment_refused :
    let s := (machine ⟨0⟩).run State.empty sampleReviewer
    ∃ s', assignReviewer Env.sample s ⟨1⟩ 1 ⟨4⟩ none 0 = .ok s' ∧
      assignReviewer Env.sample s' ⟨1⟩ 1 ⟨4⟩ none 0 = .error (.err .assignmentConflict) :=
  ⟨_, rfl, rfl⟩

end Assignments

variable {contract : Address} {env : Env contract} {s : State} {caller : Address}
  {programId : Bytes32}

section Listing

def maxQueuePage : Nat := 64

/-- `u64::MAX`. -/
def u64Max : Nat := 2 ^ 64 - 1

inductive QueueStatusFilter where
  | any
  | pending
  | assigned
  | decided
  deriving DecidableEq, Repr

inductive QueuePriorityFilter where
  | any
  | low
  | normal
  | high
  | urgent
  deriving DecidableEq, Repr

structure QueueFilter where
  status : QueueStatusFilter
  priority : QueuePriorityFilter
  assignee : Option Address
  unassignedOnly : Bool
  /-- Matches only entries with a due date, at or before this one. -/
  dueBefore : Option Nat
  limit : Nat
  deriving DecidableEq, Repr

structure QueueEntry where
  applicationId : Nat
  applicant : Address
  priority : Priority
  status : ReviewStatus
  assignee : Option Address
  dueAt : Nat
  submittedAt : Nat
  overdue : Bool
  deriving DecidableEq, Repr

def statusMatches (filter : QueueStatusFilter) (status : ReviewStatus) : Bool :=
  match filter with
  | .any => true
  | .pending => status = .pending
  | .assigned => status = .assigned
  | .decided => status = .decided

def priorityMatches (filter : QueuePriorityFilter) (priority : Priority) : Bool :=
  match filter with
  | .any => true
  | .low => priority = .low
  | .normal => priority = .normal
  | .high => priority = .high
  | .urgent => priority = .urgent

def priorityRank : Priority → Nat
  | .low => 0
  | .normal => 1
  | .high => 2
  | .urgent => 3

/-- The due date by which entries are compared. -/
def comparedDue (entry : QueueEntry) : Nat := if entry.dueAt = 0 then u64Max else entry.dueAt

def queueEntryBefore (left right : QueueEntry) : Bool :=
  if priorityRank left.priority ≠ priorityRank right.priority then
    priorityRank right.priority < priorityRank left.priority
  else if comparedDue left ≠ comparedDue right then comparedDue left < comparedDue right
  else left.applicationId < right.applicationId

def sortEntries (entries : List QueueEntry) : List QueueEntry :=
  insertionSort queueEntryBefore entries

/-- The filters of `list_queue` combined. -/
def keeps (filter : QueueFilter) (review : ReviewState) : Bool :=
  statusMatches filter.status review.status && priorityMatches filter.priority review.priority &&
    (match filter.assignee with
      | some assignee => review.assignee = some assignee
      | none => true) &&
    !(filter.unassignedOnly && review.assignee.isSome) &&
    (match filter.dueBefore with
      | some dueBefore => !(review.dueAt = 0 || dueBefore < review.dueAt)
      | none => true)

def queueEntry (now applicationId : Nat) (application : Application) (review : ReviewState) :
    QueueEntry where
  applicationId := applicationId
  applicant := application.applicant
  priority := review.priority
  status := review.status
  assignee := review.assignee
  dueAt := review.dueAt
  submittedAt := application.submittedAt
  overdue := review.dueAt ≠ 0 ∧ review.status ≠ .decided ∧ review.dueAt < now

/-- The loop of `list_queue`. -/
def queueEntries (now : Nat) (s : State) (filter : QueueFilter) (queue : List Nat) :
    List QueueEntry :=
  queue.filterMap fun applicationId => do
    let application ← s.application applicationId
    let review ← s.review applicationId
    if keeps filter review then some (queueEntry now applicationId application review) else none

def listQueue (env : Env contract) (s : State) (caller : Address) (programId : Bytes32)
    (filter : QueueFilter) : Outcome (List QueueEntry) := do
  requireReviewerOrAdmin env s programId caller
  refuseIf (filter.limit = 0 ∨ maxQueuePage < filter.limit) (.err .invalidFilter)
  refuseIf (filter.unassignedOnly = true ∧ filter.assignee.isSome = true) (.err .invalidFilter)
  refuseIf (s.program programId = none) (.err .programNotFound)
  let entries := queueEntries env.timestamp s filter (s.queue programId)
  pure ((sortEntries entries).take filter.limit)

end Listing

section Orders

/-- The due date of an entry; one without a due date is due after all the others. -/
def QueueEntry.dueDate (entry : QueueEntry) : WithTop ℕ :=
  if entry.dueAt = 0 then ⊤ else (entry.dueAt : WithTop ℕ)

/-- The place of an entry in the queue: by descending priority, then by due date with the undated ones
last, then by id. -/
def QueueEntry.place (entry : QueueEntry) : ℕᵒᵈ ×ₗ WithTop ℕ ×ₗ ℕ :=
  toLex (.toDual (priorityRank entry.priority), toLex (entry.dueDate, entry.applicationId))

/-- The place of an entry by the comparison of the code. -/
def QueueEntry.comparedPlace (entry : QueueEntry) : ℕᵒᵈ ×ₗ ℕ ×ₗ ℕ :=
  toLex (.toDual (priorityRank entry.priority), toLex (comparedDue entry, entry.applicationId))

/-- The undated entry comes first by the comparison of the code: the other one is due at the date that
stands for none, or after it. -/
structure Misplaced (a b : QueueEntry) : Prop where
  priority : a.priority = b.priority
  undated : a.dueAt = 0
  due : u64Max ≤ b.dueAt
  tie : b.dueAt = u64Max → a.applicationId < b.applicationId

theorem priorityRank_inj {p p' : Priority} : priorityRank p = priorityRank p' ↔ p = p' := by
  cases p <;> cases p' <;> simp [priorityRank]

theorem QueueEntry.comparedPlace_lt {a b : QueueEntry} :
    a.comparedPlace < b.comparedPlace ↔ priorityRank b.priority < priorityRank a.priority ∨
      priorityRank a.priority = priorityRank b.priority ∧ (comparedDue a < comparedDue b ∨
        comparedDue a = comparedDue b ∧ a.applicationId < b.applicationId) := by
  simp only [comparedPlace, Prod.Lex.toLex_lt_toLex, OrderDual.toDual_lt_toDual,
    OrderDual.toDual_inj]

theorem QueueEntry.place_lt {a b : QueueEntry} :
    a.place < b.place ↔ priorityRank b.priority < priorityRank a.priority ∨
      priorityRank a.priority = priorityRank b.priority ∧ (a.dueDate < b.dueDate ∨
        a.dueDate = b.dueDate ∧ a.applicationId < b.applicationId) := by
  simp only [place, Prod.Lex.toLex_lt_toLex, OrderDual.toDual_lt_toDual, OrderDual.toDual_inj]

theorem queueEntryBefore_iff (a b : QueueEntry) :
    queueEntryBefore a b = true ↔ a.comparedPlace < b.comparedPlace := by
  rw [QueueEntry.comparedPlace_lt]
  unfold queueEntryBefore
  split_ifs with hrank hdue
  · simp [hrank]
  · rw [not_not] at hrank
    simp [hrank, hdue]
  · rw [not_not] at hrank hdue
    simp [hrank, hdue]

/-- The two orders differ on the misplaced entries only. -/
theorem misplaced_iff {a b : QueueEntry} :
    Misplaced a b ↔ a.comparedPlace < b.comparedPlace ∧ ¬ a.place < b.place := by
  rw [QueueEntry.comparedPlace_lt, QueueEntry.place_lt]
  constructor
  · rintro ⟨hpriority, hundated, hdue, htie⟩
    have hdated : b.dueAt ≠ 0 := by
      unfold u64Max at hdue
      omega
    simp only [hpriority, hundated, hdated, comparedDue, QueueEntry.dueDate, if_true, if_false,
      lt_irrefl, false_or, true_and, not_top_lt, WithTop.top_ne_natCast, false_and,
      not_false_eq_true, and_true]
    rcases hdue.lt_or_eq with hlater | hsame
    · exact .inl hlater
    · exact .inr ⟨hsame, htie hsame.symm⟩
  · rintro ⟨hcompared, hplace⟩
    rw [not_or, not_and] at hplace
    obtain ⟨hrank, hplace⟩ := hplace
    obtain ⟨hsame, hcompared⟩ := hcompared.resolve_left hrank
    replace hplace := hplace hsame
    -- The comparison stands an undated entry at the last date, and leaves the others where they are.
    by_cases ha : a.dueAt = 0 <;> by_cases hb : b.dueAt = 0
    · simp_all [comparedDue, QueueEntry.dueDate]
    · simp only [comparedDue, ha, hb, if_true, if_false] at hcompared
      refine ⟨priorityRank_inj.mp hsame, ha, ?_, ?_⟩
      · exact hcompared.elim le_of_lt fun htie => htie.1.le
      · intro hdue
        rcases hcompared with hlater | htie
        · exact absurd hdue hlater.ne'
        · exact htie.2
    · simp_all [comparedDue, QueueEntry.dueDate]
    · simp_all [comparedDue, QueueEntry.dueDate]

end Orders

section Pages

variable {filter : QueueFilter} {entries : List QueueEntry} {e : QueueEntry} {now : Nat}
  {queue : List Nat}

/-- The entry of an application in the program's queue that the filter keeps. -/
def Matching (now : Nat) (s : State) (programId : Bytes32) (filter : QueueFilter)
    (e : QueueEntry) : Prop :=
  ∃ id application review, id ∈ s.queue programId ∧ s.application id = some application ∧
    s.review id = some review ∧ keeps filter review = true ∧ queueEntry now id application review = e

/-- The first entries, up to the limit, of all the matching ones in their places. -/
def FirstMatching (now : Nat) (s : State) (programId : Bytes32) (filter : QueueFilter)
    (entries : List QueueEntry) : Prop :=
  ∃ placed : List QueueEntry, (placed.Pairwise fun a b => a.place < b.place) ∧
    (∀ e, e ∈ placed ↔ Matching now s programId filter e) ∧ placed.take filter.limit = entries

theorem mem_queueEntries :
    e ∈ queueEntries now s filter queue ↔ ∃ id application review, id ∈ queue ∧
      s.application id = some application ∧ s.review id = some review ∧
      keeps filter review = true ∧ queueEntry now id application review = e := by
  simp only [queueEntries, List.mem_filterMap, bind, Option.bind_eq_some_iff, Option.ite_none_right_eq_some,
    Option.some.injEq]
  constructor
  · rintro ⟨id, hid, application, hqueued, review, hfound, hkeeps, he⟩
    exact ⟨id, application, review, hid, hqueued, hfound, hkeeps, he⟩
  · rintro ⟨id, application, review, hid, hqueued, hfound, hkeeps, he⟩
    exact ⟨id, hid, application, hqueued, review, hfound, hkeeps, he⟩

theorem queueEntries_ids (now : Nat) (s : State) (filter : QueueFilter) (h : queue.Nodup) :
    ((queueEntries now s filter queue).map QueueEntry.applicationId).Nodup := by
  rw [queueEntries, List.map_filterMap]
  apply h.filterMap
  intro i j id hi hj
  simp only [bind, Option.map_bind, Option.mem_def, Option.bind_eq_some_iff, Function.comp_apply,
    Option.map_eq_some_iff, Option.ite_none_right_eq_some, Option.some.injEq] at hi hj
  obtain ⟨_, _, _, _, _, ⟨_, rfl⟩, hi⟩ := hi
  obtain ⟨_, _, _, _, _, ⟨_, rfl⟩, hj⟩ := hj
  exact hi.trans hj.symm

/-- Entries of different applications, in order by a key that shows the id, are strictly in order. -/
theorem pairwise_lt {τ : Type} [LinearOrder τ] {key : QueueEntry → τ}
    (hkey : ∀ a b, key a = key b → a.applicationId = b.applicationId)
    (hids : (entries.map QueueEntry.applicationId).Nodup)
    (hsorted : entries.Pairwise fun a b => key a ≤ key b) :
    entries.Pairwise fun a b => key a < key b := by
  refine (hsorted.and (List.pairwise_map.mp hids)).imp ?_
  rintro a b ⟨hle, hne⟩
  exact hle.lt_of_ne fun heq => hne (hkey a b heq)

/-- Sorting entries of different applications by such a key puts them strictly in order. -/
theorem insertionSort_lt {τ : Type} [LinearOrder τ] {key : QueueEntry → τ}
    {before : QueueEntry → QueueEntry → Bool}
    (hbefore : ∀ a b, before a b = true ↔ key a < key b)
    (hkey : ∀ a b, key a = key b → a.applicationId = b.applicationId)
    (hids : (entries.map QueueEntry.applicationId).Nodup) :
    (insertionSort before entries).Pairwise fun a b => key a < key b := by
  apply pairwise_lt hkey _ (insertionSort_sorted hbefore entries)
  exact ((insertionSort_perm before entries).map QueueEntry.applicationId).nodup_iff.mpr hids

/-- The matching entries have one order by place, and a page is its beginning. -/
theorem exists_placed (hids : (entries.map QueueEntry.applicationId).Nodup)
    (hmatching : ∀ e, e ∈ entries ↔ Matching now s programId filter e) :
    ∃ placed : List QueueEntry, entries.Perm placed ∧
      (placed.Pairwise fun a b => a.place < b.place) ∧
      ∀ page, FirstMatching now s programId filter page ↔ page = placed.take filter.limit := by
  have hid : ∀ a b : QueueEntry, a.place = b.place → a.applicationId = b.applicationId :=
    fun a b heq => congrArg (fun place => (ofLex (ofLex place).2).2) heq
  have hbefore : ∀ a b : QueueEntry, decide (a.place < b.place) = true ↔ a.place < b.place :=
    fun a b => decide_eq_true_iff
  have hperm := insertionSort_perm (fun a b : QueueEntry => decide (a.place < b.place)) entries
  have hplaced := insertionSort_lt hbefore hid hids
  refine ⟨_, hperm.symm, hplaced, fun page => ?_⟩
  constructor
  · rintro ⟨other, hother, hmem, rfl⟩
    have hsame : other = insertionSort (fun a b => decide (a.place < b.place)) entries := by
      apply List.Perm.eq_of_pairwise _ hother hplaced
      · refine (List.perm_ext_iff_of_nodup ?_ ?_).mpr ?_
        · exact List.nodup_iff_pairwise_ne.mpr (hother.imp fun hlt => ne_of_apply_ne _ hlt.ne)
        · exact List.nodup_iff_pairwise_ne.mpr (hplaced.imp fun hlt => ne_of_apply_ne _ hlt.ne)
        · intro e
          rw [hmem, ← hmatching, hperm.mem_iff]
      · intro a b _ _ hab hba
        exact absurd hba hab.asymm
    rw [hsame]
  · rintro rfl
    refine ⟨_, hplaced, fun e => ?_, rfl⟩
    rw [hperm.mem_iff, hmatching]

/-- Counting the matching entries before one along a list of them. -/
theorem ncard_before {a : QueueEntry} (hids : (entries.map QueueEntry.applicationId).Nodup)
    (hmatching : ∀ e, e ∈ entries ↔ Matching now s programId filter e) :
    {c | Matching now s programId filter c ∧ queueEntryBefore c a = true}.ncard =
      entries.countP fun c => c.comparedPlace < a.comparedPlace := by
  have hrows : {c | Matching now s programId filter c ∧ queueEntryBefore c a = true} =
      ((entries.filter fun c => c.comparedPlace < a.comparedPlace).toFinset : Set QueueEntry) := by
    ext c
    simp [hmatching, queueEntryBefore_iff]
  rw [hrows, Set.ncard_coe_finset, List.toFinset_card_of_nodup (hids.of_map.filter _),
    List.countP_eq_length_filter]

/-- The matching entries in the order of the code begin with the first ones exactly when every misplaced
one is beyond the limit. -/
theorem firstMatching_iff (hids : (entries.map QueueEntry.applicationId).Nodup)
    (hmatching : ∀ e, e ∈ entries ↔ Matching now s programId filter e)
    (hsorted : entries.Pairwise fun a b => a.comparedPlace < b.comparedPlace) :
    FirstMatching now s programId filter (entries.take filter.limit) ↔
      ∀ a b, Matching now s programId filter a → Matching now s programId filter b →
        Misplaced a b → filter.limit ≤
          {c | Matching now s programId filter c ∧ queueEntryBefore c a = true}.ncard := by
  obtain ⟨placed, hperm, hordered, hfirst⟩ := exists_placed hids hmatching
  rw [hfirst, take_eq_take_iff (fun _ _ => lt_asymm) (fun _ _ => lt_asymm) hsorted hordered hperm]
  constructor
  · intro hagree a b ha hb hmisplaced
    obtain ⟨hcompared, hplace⟩ := misplaced_iff.mp hmisplaced
    by_contra hfew
    rw [ncard_before hids hmatching, not_le,
      ← mem_take_iff_countP (fun _ _ => lt_asymm) hsorted ((hmatching a).mpr ha)] at hfew
    exact hplace (hagree a hfew b ((hmatching b).mpr hb) hcompared)
  · intro hbeyond a ha b hb hcompared
    by_contra hplace
    have hmem := List.mem_of_mem_take ha
    have hmany := hbeyond a b ((hmatching a).mp hmem) ((hmatching b).mp hb)
      (misplaced_iff.mpr ⟨hcompared, hplace⟩)
    rw [mem_take_iff_countP (fun _ _ => lt_asymm) hsorted hmem, ← ncard_before hids hmatching] at ha
    omega

/-- An accepted page holds the first matching entries exactly when every misplaced one is beyond the
limit. -/
theorem listQueue_ordered_iff (is : List (Input contract))
    (h : listQueue env ((machine contract).run State.empty is) caller programId filter =
      .ok entries) :
    let s := (machine contract).run State.empty is
    FirstMatching env.timestamp s programId filter entries ↔
      ∀ a b, Matching env.timestamp s programId filter a →
        Matching env.timestamp s programId filter b → Misplaced a b →
          filter.limit ≤ {c | Matching env.timestamp s programId filter c ∧
            queueEntryBefore c a = true}.ncard := by
  intro s
  simp only [listQueue, bind_eq_ok, exists_unit, pure_eq_ok] at h
  obtain ⟨_, _, _, _, rfl⟩ := h
  have hlisted := queueEntries_ids env.timestamp s filter
    ((run_settled is).1.listed.nodup programId)
  have hperm := insertionSort_perm queueEntryBefore
    (queueEntries env.timestamp s filter (s.queue programId))
  apply firstMatching_iff
  · exact (hperm.map QueueEntry.applicationId).nodup_iff.mpr hlisted
  · intro e
    exact hperm.mem_iff.trans mem_queueEntries
  · apply insertionSort_lt queueEntryBefore_iff _ hlisted
    intro a b heq
    exact congrArg (fun place => (ofLex (ofLex place).2).2) heq

/-- The filter that keeps every entry. -/
def QueueFilter.all (limit : Nat) : QueueFilter := ⟨.any, .any, none, false, none, limit⟩

/-- The second of two applications is due at the last date that there is, and the first one never. -/
def sampleLast : List (Input ⟨0⟩) :=
  sampleReviewer ++ [⟨.sample, .assignReviewer ⟨1⟩ 2 ⟨4⟩ none u64Max⟩]

theorem listQueue_ordered_sample :
    let s := (machine ⟨0⟩).run State.empty sampleReviewer
    ∃ entries, listQueue Env.sample s ⟨1⟩ 5 (.all 1) = .ok entries ∧
      FirstMatching 10 s 5 (.all 1) entries := by
  intro s
  obtain ⟨entries, h⟩ : ∃ entries, listQueue Env.sample s ⟨1⟩ 5 (.all 1) = .ok entries := ⟨_, rfl⟩
  refine ⟨entries, h, (listQueue_ordered_iff sampleReviewer h).mpr ?_⟩
  intro a b _ hb hmisplaced
  have hundated : ∀ e ∈ queueEntries 10 s (.all 1) (s.queue 5), e.dueAt = 0 := by decide
  have hdue := hmisplaced.due
  rw [hundated b (mem_queueEntries.mpr hb)] at hdue
  exact absurd hdue (by decide)

/-- An entry without a due date comes before one that is due at the last date. -/
theorem undated_before_last :
    let s := (machine ⟨0⟩).run State.empty sampleLast
    let undated : QueueEntry := ⟨1, ⟨2⟩, .normal, .pending, none, 0, 10, false⟩
    let last : QueueEntry := ⟨2, ⟨3⟩, .normal, .assigned, some ⟨4⟩, u64Max, 10, false⟩
    listQueue Env.sample s ⟨1⟩ 5 (.all 64) = .ok [undated, last] ∧
      ¬ FirstMatching 10 s 5 (.all 64) [undated, last] := by
  intro s undated last
  refine ⟨rfl, ?_⟩
  rintro ⟨placed, hordered, _, hpage⟩
  have hpairs := hordered.sublist (List.take_sublist 64 placed)
  rw [show placed.take 64 = [undated, last] from hpage] at hpairs
  have hmisplaced : Misplaced undated last := ⟨rfl, rfl, le_rfl, fun _ => by decide⟩
  exact (misplaced_iff.mp hmisplaced).2 ((List.pairwise_cons.mp hpairs).1 last (by simp))

end Pages

end ChainVerse.MentorshipApplicationsContract
