import ChainVerse.Availability.Ranges
import ChainVerse.Slots.Contract
import ChainVerse.Availability.Coverage

namespace ChainVerse.MentorshipSlots

section Search

open MentorshipAvailability (AvailabilitySummary AvailableRange)

variable {contract : Address}

/-- What the availability contract answers at one ledger time from its storage; the caller sees a
failed call as `none`. -/
def availabilityAt (now : Nat) (calendars : MentorshipAvailability.State) : AvailabilityApi where
  availabilitySummary participant :=
    (MentorshipAvailability.availabilitySummary calendars participant).toOption
  availableRanges participant fromTs untilTs page limit :=
    (MentorshipAvailability.availableRanges now calendars participant fromTs untilTs page
      limit).toOption

/-- The deployments of the availability contract, each with its own storage. -/
def peersAt (now : Nat) (calendars : Address → MentorshipAvailability.State) : Peers :=
  fun address => availabilityAt now (calendars address)

section Search

/-- What a search reads before it scans. -/
structure Search where
  policy : ProgramPolicy
  mentorSummary : AvailabilitySummary
  menteeSummary : AvailabilitySummary
  mentorBookings : List Booking
  menteeBookings : List Booking
  blackouts : List Blackout
  page : Nat
  limit : Nat

def Search.skip (search : Search) : Nat := search.page * search.limit

/-- The number of candidates after which the page is complete. -/
def Search.target (search : Search) : Nat := (search.page + 1) * search.limit

/-- How far a scan is: how many more candidates it may examine, how many it has found and which of
them are on the page. -/
structure Progress where
  left : Nat
  collected : Nat
  slots : List Slot

/-- The checks of one candidate, in the order of the scan. -/
def isFree (search : Search) (candidate endTs : Nat) : Outcome Bool :=
  if blackoutOverlaps search.blackouts search.policy.programId candidate endTs = true ∨
      bookingsConflict search.mentorBookings candidate endTs
        search.mentorSummary.bufferBeforeSeconds search.mentorSummary.bufferAfterSeconds = true ∨
      bookingsConflict search.menteeBookings candidate endTs
        search.menteeSummary.bufferBeforeSeconds search.menteeSummary.bufferAfterSeconds = true
  then pure false
  else do
    let mentorSessions ← sessionsOnDay search.mentorBookings candidate
    if search.policy.maxSessionsPerDay ≤ mentorSessions then pure false
    else do
      let menteeSessions ← sessionsOnDay search.menteeBookings candidate
      pure (decide (menteeSessions < search.policy.maxSessionsPerDay))

/-- The slots of the page after one more free candidate. -/
def pageSlot (search : Search) (candidate endTs collected : Nat) (slots : List Slot) : List Slot :=
  if search.skip ≤ collected ∧ slots.length < search.limit then
    slots ++ [⟨candidate, endTs, search.mentorSummary.version, search.menteeSummary.version⟩]
  else slots

/-- The scan of one overlap along the grid: the page once it is complete, or else the progress. The
step to the next candidate cannot overflow, as the granularity divides the duration. -/
def scanGrid (search : Search) (overlapEnd : Nat) :
    Nat → Nat → Nat → List Slot → Outcome (List Slot ⊕ Progress)
  | 0, candidate, collected, slots => do
    let endTs ← orRefuse (fitsU 64 (candidate + search.policy.durationSeconds)) .overflow
    if endTs ≤ overlapEnd then .error (.err .tooManyCandidates)
    else pure (.inr ⟨0, collected, slots⟩)
  | left + 1, candidate, collected, slots => do
    let endTs ← orRefuse (fitsU 64 (candidate + search.policy.durationSeconds)) .overflow
    if endTs ≤ overlapEnd then do
      let free ← isFree search candidate endTs
      let next := candidate + search.policy.granularitySeconds
      if free = false then scanGrid search overlapEnd left next collected slots
      else
        let slots := pageSlot search candidate endTs collected slots
        if search.target ≤ collected + 1 then pure (.inl slots)
        else scanGrid search overlapEnd left next (collected + 1) slots
    else pure (.inr ⟨left + 1, collected, slots⟩)

/-- `div_ceil`. -/
def divCeil (a b : Nat) : Nat := if a % b = 0 then a / b else a / b + 1

/-- The outer loop over the overlaps of the two range lists. -/
def scanOverlaps (search : Search) : List AvailableRange → Progress → Outcome (List Slot)
  | [], progress => pure progress.slots
  | overlap :: overlaps, progress =>
    if overlap.startTs < overlap.endTs then do
      let granularity := search.policy.granularitySeconds
      let first ← orRefuse (fitsU 64 (divCeil overlap.startTs granularity * granularity)) .overflow
      match ← scanGrid search overlap.endTs progress.left first progress.collected
        progress.slots with
      | .inl slots => pure slots
      | .inr progress => scanOverlaps search overlaps progress
    else scanOverlaps search overlaps progress

/-- One range of the mentor against the mentee's; `rest` goes on with the mentor's next one. -/
def overlapsFrom (mentorRange : AvailableRange)
    (rest : List AvailableRange → List AvailableRange) :
    List AvailableRange → List AvailableRange
  | [] => []
  | menteeRange :: menteeRanges =>
    ⟨max mentorRange.startTs menteeRange.startTs, min mentorRange.endTs menteeRange.endTs⟩ ::
      if mentorRange.endTs < menteeRange.endTs then rest (menteeRange :: menteeRanges)
      else overlapsFrom mentorRange rest menteeRanges

/-- The overlaps, some of them empty, that two indices walk along: the range that ends first is
left behind. -/
def overlaps : List AvailableRange → List AvailableRange → List AvailableRange
  | [], _ => []
  | mentorRange :: mentorRanges, menteeRanges =>
    overlapsFrom mentorRange (overlaps mentorRanges) menteeRanges

/-- One page of the candidate slots of a pair. -/
def findSlots (env : Env contract) (peers : Peers) (s : State) (mentor mentee : Address)
    (programId : Bytes32) (fromTs untilTs page limit : Nat) : Outcome (List Slot) := do
  refuseIf (mentor = mentee) (.err .invalidParties)
  refuseIf (untilTs ≤ fromTs) (.err .invalidQueryRange)
  refuseIf (maxSearchSpanSeconds < untilTs - fromTs) (.err .querySpanTooLarge)
  refuseIf (limit = 0 ∨ maxPageSize < limit ∨ maxPage < page) (.err .invalidPage)
  refuseIf (maxCollectedCandidates < (page + 1) * limit) (.err .invalidPage)
  let policy ← loadPolicy s programId
  let mentorSummary ← readSummary peers s mentor
  let menteeSummary ← readSummary peers s mentee
  let leadTime := max mentorSummary.leadTimeSeconds menteeSummary.leadTimeSeconds
  let mentorHorizon ← orRefuse (fitsU 64 (mentorSummary.bookingHorizonDays * secondsPerDay))
    .overflow
  let menteeHorizon ← orRefuse (fitsU 64 (menteeSummary.bookingHorizonDays * secondsPerDay))
    .overflow
  let startTs := max fromTs (saturatingAdd env.timestamp leadTime)
  let endTs := min untilTs (saturatingAdd env.timestamp (min mentorHorizon menteeHorizon))
  if endTs ≤ startTs then pure []
  else do
    let mentorRanges ← readRanges peers s mentor startTs endTs
    let menteeRanges ← readRanges peers s mentee startTs endTs
    scanOverlaps ⟨policy, mentorSummary, menteeSummary, participantBookings s mentor,
      participantBookings s mentee, loadBlackouts s, page, limit⟩
      (overlaps mentorRanges menteeRanges) ⟨maxCollectedCandidates * 8, 0, []⟩

/-- Whether the pair can book the slot now; a trap is passed on. -/
def isSlotBookable (env : Env contract) (peers : Peers) (s : State) (mentor mentee : Address)
    (programId : Bytes32) (startTs : Nat) : Outcome Bool := do
  refuseIf (mentor = mentee) (.err .invalidParties)
  let policy ← loadPolicy s programId
  match validateSlot env peers s mentor mentee policy startTs with
  | .ok _ => pure true
  | .error (.err _) => pure false
  | .error trap => .error trap

end Search

end Search

open MentorshipAvailability (AvailabilitySummary AvailableRange points points_append points_singleton
  Disjoined)

section Overlaps

/-- The overlaps that hold an instant at all. -/
def realOverlaps (mentorRanges menteeRanges : List AvailableRange) : List AvailableRange :=
  (overlaps mentorRanges menteeRanges).filter fun overlap => overlap.startTs < overlap.endTs

theorem overlaps_cons (m n : AvailableRange) (ms ns : List AvailableRange) :
    overlaps (m :: ms) (n :: ns) = ⟨max m.startTs n.startTs, min m.endTs n.endTs⟩ ::
      if m.endTs < n.endTs then overlaps ms (n :: ns) else overlaps (m :: ms) ns := rfl

theorem overlaps_nil (ms : List AvailableRange) : overlaps ms [] = [] := by
  cases ms <;> rfl

/-- An overlap starts no earlier than a range of each list. -/
theorem overlap_start {ms ns : List AvailableRange} {o : AvailableRange} (h : o ∈ overlaps ms ns) :
    (∃ m ∈ ms, m.startTs ≤ o.startTs) ∧ ∃ n ∈ ns, n.startTs ≤ o.startTs := by
  induction ms generalizing ns with
  | nil => cases h
  | cons m ms ihm =>
    induction ns with
    | nil => cases h
    | cons n ns ihn =>
      rw [overlaps_cons, List.mem_cons] at h
      rcases h with rfl | h
      · exact ⟨⟨m, List.mem_cons_self, le_max_left _ _⟩, n, List.mem_cons_self, le_max_right _ _⟩
      · split_ifs at h
        · obtain ⟨⟨m', hm', hle⟩, hn⟩ := ihm h
          exact ⟨⟨m', List.mem_cons_of_mem m hm', hle⟩, hn⟩
        · obtain ⟨hm, n', hn', hle⟩ := ihn h
          exact ⟨hm, n', List.mem_cons_of_mem n hn', hle⟩

theorem points_overlap (m n : AvailableRange) :
    points [⟨max m.startTs n.startTs, min m.endTs n.endTs⟩] = points [m] ∩ points [n] := by
  ext t
  simp only [points_singleton, Set.mem_inter_iff, Set.mem_ofPred_eq]
  omega

theorem points_cons (r : AvailableRange) (rs : List AvailableRange) :
    points (r :: rs) = points [r] ∪ points rs := points_append [r] rs

/-- No instant of a range is in a list whose ranges all start after its end. -/
theorem points_apart {r : AvailableRange} {rs : List AvailableRange} {b : Nat} (hr : r.endTs ≤ b)
    (h : ∀ r' ∈ rs, b < r'.startTs) : points [r] ∩ points rs = ∅ := by
  rw [Set.eq_empty_iff_forall_notMem]
  rintro t ⟨ht, r', hr', hle, _⟩
  rw [points_singleton] at ht
  have hafter := h r' hr'
  have hbefore : t < r.endTs := ht.2
  omega

/-- The walk over two separated lists visits every instant that both hold. -/
theorem points_overlaps {ms ns : List AvailableRange} (hms : Disjoined ms) (hns : Disjoined ns) :
    points (overlaps ms ns) = points ms ∩ points ns := by
  induction ms generalizing ns with
  | nil => simp [overlaps]
  | cons m ms ihm =>
    induction ns with
    | nil => simp [overlaps_nil]
    | cons n ns ihn =>
      have hm : ∀ m' ∈ ms, m.endTs < m'.startTs := fun _ => hms.head_lt
      have hn : ∀ n' ∈ ns, n.endTs < n'.startTs := fun _ => hns.head_lt
      rw [overlaps_cons, points_cons, points_overlap]
      split_ifs with hshorter
      · have hapart := points_apart hshorter.le hn
        rw [ihm hms.tail hns, points_cons m ms, points_cons n ns, Set.union_inter_distrib_right,
          Set.inter_union_distrib_left (points [m]), hapart, Set.union_empty]
      · have hapart := points_apart (not_lt.mp hshorter) hm
        rw [ihn hns.tail, points_cons m ms, points_cons n ns, Set.inter_union_distrib_left,
          Set.union_inter_distrib_right (points [m]) (points ms) (points [n]),
          Set.inter_comm (points ms) (points [n]), hapart, Set.union_empty]

theorem realOverlaps_disjoined {ms ns : List AvailableRange} (hms : Disjoined ms)
    (hns : Disjoined ns) : Disjoined (realOverlaps ms ns) := by
  refine ⟨fun o ho => by simpa using (List.mem_filter.mp ho).2, ?_⟩
  apply List.Pairwise.filter
  induction ms generalizing ns with
  | nil => exact List.Pairwise.nil
  | cons m ms ihm =>
    induction ns with
    | nil => exact List.Pairwise.nil
    | cons n ns ihn =>
      rw [overlaps_cons]
      split_ifs with hshorter
      · refine List.pairwise_cons.mpr ⟨fun o ho => ?_, ihm hms.tail hns⟩
        obtain ⟨⟨m', hm', hle⟩, _⟩ := overlap_start ho
        have hafter := hms.head_lt hm'
        dsimp only
        omega
      · refine List.pairwise_cons.mpr ⟨fun o ho => ?_, ihn hns.tail⟩
        obtain ⟨_, n', hn', hle⟩ := overlap_start ho
        have hafter := hns.head_lt hn'
        dsimp only
        omega

theorem rangesCover_iff {ranges : List AvailableRange} {a b : Nat} :
    rangesCover ranges a b = true ↔ ∃ range ∈ ranges, range.startTs ≤ a ∧ b ≤ range.endTs := by
  simp [rangesCover]

theorem rangesCover_points {ranges : List AvailableRange} (h : Disjoined ranges) {a b : Nat}
    (hab : a < b) : rangesCover ranges a b = true ↔ Set.Ico a b ⊆ points ranges := by
  rw [rangesCover_iff]
  exact h.within_one hab

/-- A slot fits into an overlap exactly when it fits into a range of each participant. -/
theorem rangesCover_overlaps {ms ns : List AvailableRange} (hms : Disjoined ms)
    (hns : Disjoined ns) {a b : Nat} (hab : a < b) :
    rangesCover (realOverlaps ms ns) a b = true ↔
      rangesCover ms a b = true ∧ rangesCover ns a b = true := by
  have hpoints : points (realOverlaps ms ns) = points (overlaps ms ns) := by
    ext t
    constructor
    · rintro ⟨o, ho, hin⟩
      exact ⟨o, (List.mem_filter.mp ho).1, hin⟩
    · rintro ⟨o, ho, hin⟩
      exact ⟨o, List.mem_filter.mpr ⟨ho, by simpa using hin.1.trans_lt hin.2⟩, hin⟩
  rw [rangesCover_points (realOverlaps_disjoined hms hns) hab, rangesCover_points hms hab,
    rangesCover_points hns hab, hpoints, points_overlaps hms hns, Set.subset_inter_iff]

end Overlaps

section Grid

variable {search : Search}

theorem ProgramPolicy.granularity_pos (policy : ProgramPolicy) : 0 < policy.granularitySeconds := by
  have hvalid := policy.session_valid.2.1.1
  simp only [minGranularitySeconds] at hvalid
  omega

theorem ProgramPolicy.duration_pos (policy : ProgramPolicy) : 0 < policy.durationSeconds := by
  have hvalid := policy.session_valid.1.1
  simp only [minSessionSeconds] at hvalid
  omega

/-- The candidates from one on that end by `overlapEnd`. -/
def gridFrom (policy : ProgramPolicy) (overlapEnd candidate : Nat) : List Nat :=
  List.range' candidate ((overlapEnd + policy.granularitySeconds -
    (candidate + policy.durationSeconds)) / policy.granularitySeconds) policy.granularitySeconds

theorem gridFrom_stop {policy : ProgramPolicy} {overlapEnd candidate : Nat}
    (h : overlapEnd < candidate + policy.durationSeconds) :
    gridFrom policy overlapEnd candidate = [] := by
  have hpos := policy.granularity_pos
  have hcount : (overlapEnd + policy.granularitySeconds -
      (candidate + policy.durationSeconds)) / policy.granularitySeconds = 0 :=
    Nat.div_eq_of_lt (by omega)
  rw [gridFrom, hcount, List.range'_zero]

theorem gridFrom_step {policy : ProgramPolicy} {overlapEnd candidate : Nat}
    (h : candidate + policy.durationSeconds ≤ overlapEnd) :
    gridFrom policy overlapEnd candidate =
      candidate :: gridFrom policy overlapEnd (candidate + policy.granularitySeconds) := by
  have hpos := policy.granularity_pos
  have hcount : overlapEnd + policy.granularitySeconds - (candidate + policy.durationSeconds) =
      overlapEnd + policy.granularitySeconds -
        (candidate + policy.granularitySeconds + policy.durationSeconds) +
      policy.granularitySeconds := by omega
  rw [gridFrom, gridFrom, hcount, Nat.add_div_right _ hpos, List.range'_succ]

theorem divCeil_spec {a b : Nat} (hb : 0 < b) :
    a ≤ divCeil a b * b ∧ ∀ q, a ≤ q * b → divCeil a b ≤ q := by
  have hdivmod := Nat.div_add_mod' a b
  have hmod := Nat.mod_lt a hb
  unfold divCeil
  split_ifs with hexact
  · exact ⟨by omega, fun q hq => Nat.div_le_of_le_mul (by rwa [Nat.mul_comm])⟩
  · refine ⟨by rw [Nat.add_mul, one_mul]; omega, fun q hq => ?_⟩
    have hne : a ≠ q * b := by
      rintro rfl
      exact hexact (Nat.mul_mod_left q b)
    apply Nat.div_lt_of_lt_mul
    rw [Nat.mul_comm]
    omega

/-- The candidates of one overlap. -/
def gridStarts (policy : ProgramPolicy) (overlap : AvailableRange) : List Nat :=
  gridFrom policy overlap.endTs
    (divCeil overlap.startTs policy.granularitySeconds * policy.granularitySeconds)

theorem mem_gridStarts {policy : ProgramPolicy} {overlap : AvailableRange} {t : Nat} :
    t ∈ gridStarts policy overlap ↔ policy.granularitySeconds ∣ t ∧ overlap.startTs ≤ t ∧
      t + policy.durationSeconds ≤ overlap.endTs := by
  have hpos := policy.granularity_pos
  obtain ⟨hfirst, hleast⟩ := @divCeil_spec overlap.startTs _ hpos
  rw [gridStarts, gridFrom, List.mem_range']
  generalize divCeil overlap.startTs policy.granularitySeconds = k at hfirst hleast ⊢
  constructor
  · rintro ⟨i, hi, rfl⟩
    have hfits := (Nat.mul_le_mul_right policy.granularitySeconds hi).trans
      (Nat.div_mul_le_self _ _)
    rw [Nat.succ_mul, Nat.mul_comm i] at hfits
    refine ⟨?_, by omega, by omega⟩
    exact Nat.dvd_add (Nat.dvd_mul_left _ _) (Nat.dvd_mul_right _ _)
  · rintro ⟨⟨q, rfl⟩, hstart, hend⟩
    rw [Nat.mul_comm] at hstart
    obtain ⟨i, rfl⟩ := Nat.exists_eq_add_of_le (hleast q hstart)
    rw [Nat.mul_add] at hend
    rw [Nat.mul_comm policy.granularitySeconds k] at hend
    refine ⟨i, ?_, by rw [Nat.mul_add, Nat.mul_comm policy.granularitySeconds k]⟩
    apply (Nat.le_div_iff_mul_le hpos).mpr
    rw [Nat.succ_mul, Nat.mul_comm i]
    omega

theorem gridStarts_sorted (policy : ProgramPolicy) (overlap : AvailableRange) :
    (gridStarts policy overlap).Pairwise (· < ·) :=
  List.pairwise_lt_range' _ policy.granularity_pos

/-- Over separated overlaps the candidates come in ascending order. -/
theorem flatMap_gridStarts_sorted (policy : ProgramPolicy) {overlaps : List AvailableRange}
    (h : Disjoined overlaps) : (overlaps.flatMap (gridStarts policy)).Pairwise (· < ·) := by
  refine List.pairwise_flatMap.mpr ⟨fun overlap _ => gridStarts_sorted policy overlap, ?_⟩
  apply h.apart.imp
  intro overlap overlap' hapart t ht t' ht'
  have hend := (mem_gridStarts.mp ht).2.2
  have hstart := (mem_gridStarts.mp ht').2.1
  omega

end Grid

section Pages

variable {search : Search}

/-- The answer of the checks of one candidate, `false` where they trap. -/
def Search.accepts (search : Search) (candidate : Nat) : Bool :=
  (isFree search candidate (candidate + search.policy.durationSeconds)).toOption.getD false

def Search.slot (search : Search) (candidate : Nat) : Slot :=
  ⟨candidate, candidate + search.policy.durationSeconds, search.mentorSummary.version,
    search.menteeSummary.version⟩

/-- The page of a list of starts. -/
def Search.pageOf (search : Search) (starts : List Nat) : List Slot :=
  ((starts.drop search.skip).take search.limit).map search.slot

/-- The scan has found `found` and its page is not complete. -/
structure Scanned (search : Search) (found : List Nat) (collected : Nat) (slots : List Slot) :
    Prop where
  collected_eq : collected = found.length
  slots_eq : slots = search.pageOf found
  incomplete : found.length < search.target

theorem target_eq (search : Search) : search.target = search.skip + search.limit := by
  rw [Search.target, Search.skip, Nat.add_mul, one_mul]

/-- What comes after a complete page is not on it. -/
theorem pageOf_append {found : List Nat} (h : search.target ≤ found.length) (more : List Nat) :
    search.pageOf (found ++ more) = search.pageOf found := by
  have htarget := target_eq search
  have hlength : search.limit ≤ (found.drop search.skip).length := by
    rw [List.length_drop]
    omega
  rw [Search.pageOf, Search.pageOf, List.drop_append_of_le_length (by omega),
    List.take_append_of_le_length hlength]

theorem Scanned.pageSlot {found : List Nat} {collected : Nat} {slots : List Slot}
    (h : Scanned search found collected slots) (candidate : Nat) :
    pageSlot search candidate (candidate + search.policy.durationSeconds) collected slots =
      search.pageOf (found ++ [candidate]) := by
  have htarget := target_eq search
  have hincomplete := h.incomplete
  rw [MentorshipSlots.pageSlot, h.collected_eq, h.slots_eq]
  split_ifs with honpage
  · have hlength : (found.drop search.skip ++ [candidate]).length ≤ search.limit := by
      simp only [List.length_append, List.length_drop, List.length_singleton]
      omega
    rw [Search.pageOf, Search.pageOf, List.drop_append_of_le_length honpage.1,
      List.take_of_length_le hlength, List.take_of_length_le (by rw [List.length_drop]; omega),
      List.map_append]
    rfl
  · have hbefore : found.length < search.skip := by
      by_contra hafter
      apply honpage
      refine ⟨not_lt.mp hafter, ?_⟩
      simp only [Search.pageOf, List.length_map, List.length_take, List.length_drop]
      omega
    rw [Search.pageOf, Search.pageOf, List.drop_eq_nil_of_le hbefore.le,
      List.drop_eq_nil_of_le (by rw [List.length_append, List.length_singleton]; omega)]

theorem accepts_of_isFree {candidate : Nat} {free : Bool}
    (h : isFree search candidate (candidate + search.policy.durationSeconds) = .ok free) :
    search.accepts candidate = free := by
  rw [Search.accepts, h]
  rfl

/-- What the scan of one overlap leaves behind. -/
def ScanResult (search : Search) (found : List Nat) : List Slot ⊕ Progress → Prop
  | .inl slots => ∀ more, slots = search.pageOf (found ++ more)
  | .inr progress => Scanned search found progress.collected progress.slots

theorem scanGrid_spec {overlapEnd left candidate collected : Nat} {slots : List Slot}
    {found : List Nat} {result : List Slot ⊕ Progress} (h : Scanned search found collected slots)
    (hscan : scanGrid search overlapEnd left candidate collected slots = .ok result) :
    ScanResult search
      (found ++ (gridFrom search.policy overlapEnd candidate).filter search.accepts) result := by
  induction left generalizing candidate collected slots found with
  | zero =>
    simp only [scanGrid, bind_eq_ok, orRefuse_eq_ok, fitsU_eq_some] at hscan
    obtain ⟨_, ⟨_, rfl⟩, hscan⟩ := hscan
    split_ifs at hscan with hlast
    rw [gridFrom_stop (not_le.mp hlast), List.filter_nil, List.append_nil,
      ← pure_eq_ok.mp hscan]
    exact h
  | succ left ih =>
    simp only [scanGrid, bind_eq_ok, orRefuse_eq_ok, fitsU_eq_some] at hscan
    obtain ⟨_, ⟨_, rfl⟩, hscan⟩ := hscan
    by_cases hwithin : candidate + search.policy.durationSeconds ≤ overlapEnd
    · rw [if_pos hwithin] at hscan
      obtain ⟨free, hfree, hscan⟩ := bind_eq_ok.mp hscan
      have haccepts := accepts_of_isFree hfree
      rw [gridFrom_step hwithin]
      cases free with
      | false =>
        rw [List.filter_cons_of_neg (by simp [haccepts])]
        exact ih h hscan
      | true =>
        rw [List.filter_cons_of_pos haccepts, ← List.singleton_append, ← List.append_assoc]
        simp only [Bool.true_eq_false, if_false] at hscan
        rw [h.pageSlot, h.collected_eq] at hscan
        split_ifs at hscan with hcomplete
        · rw [← pure_eq_ok.mp hscan]
          intro more
          rw [List.append_assoc (found ++ [candidate])]
          exact (pageOf_append (by simpa using hcomplete) _).symm
        · refine ih ⟨by simp, rfl, ?_⟩ hscan
          simpa using hcomplete
    · rw [if_neg hwithin] at hscan
      rw [gridFrom_stop (not_le.mp hwithin), List.filter_nil, List.append_nil,
        ← pure_eq_ok.mp hscan]
      exact h

/-- Everything the scan can find, whatever the page. -/
def Search.freeStarts (search : Search) (overlaps : List AvailableRange) : List Nat :=
  (overlaps.flatMap (gridStarts search.policy)).filter search.accepts

/-- A scan that returns has the page of the free starts of its overlaps. -/
theorem scanOverlaps_spec {overlaps : List AvailableRange} {progress : Progress}
    {found : List Nat} {slots : List Slot}
    (h : Scanned search found progress.collected progress.slots)
    (hscan : scanOverlaps search overlaps progress = .ok slots) :
    slots = search.pageOf (found ++ search.freeStarts
      (overlaps.filter fun overlap => overlap.startTs < overlap.endTs)) := by
  induction overlaps generalizing progress found with
  | nil =>
    rw [← pure_eq_ok.mp hscan, h.slots_eq]
    simp [Search.freeStarts]
  | cons overlap overlaps ih =>
    unfold scanOverlaps at hscan
    split_ifs at hscan with hreal
    · simp only [bind_eq_ok, orRefuse_eq_ok, fitsU_eq_some] at hscan
      obtain ⟨_, ⟨_, rfl⟩, result, hgrid, hscan⟩ := hscan
      have hresult := scanGrid_spec h hgrid
      rw [List.filter_cons_of_pos (by simpa using hreal), Search.freeStarts, List.flatMap_cons,
        List.filter_append, ← List.append_assoc]
      cases result with
      | inl page =>
        rw [← pure_eq_ok.mp hscan]
        exact hresult _
      | inr progress => exact ih hresult hscan
    · rw [List.filter_cons_of_neg (by simpa using hreal)]
      exact ih h hscan

end Pages

end ChainVerse.MentorshipSlots
