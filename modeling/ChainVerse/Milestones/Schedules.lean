import ChainVerse.Framework.Splits
import ChainVerse.Milestones.Contract
import ChainVerse.Framework.Listings
import ChainVerse.Framework.Tables
import Mathlib.Data.List.Chain
import Mathlib.Algebra.Order.BigOperators.Group.List

namespace ChainVerse.ScholarshipMilestones

section Derivation

variable {total allocated : Int} {count i bpsSum prevDue : Nat} {inputs : List MilestoneInput}
  {milestones : List Milestone}

/-- Milestones whose amounts and dates reconcile with the award. -/
structure Reconciled (total : Int) (milestones : List Milestone) : Prop where
  nonneg : ∀ m ∈ milestones, 0 ≤ m.amount
  sum : (milestones.map Milestone.amount).sum = total
  shares : ∀ i m, milestones[i]? = some m → i + 1 < milestones.length →
    m.amount = total * m.percentageBps / bpsDenom
  ordered : (milestones.map Milestone.dueAt).Pairwise (· < ·)
  fits : total < 2^127

section FirstPass

/-- The first pass goes through when the dates grow. -/
theorem sumShares_ok {result : Nat} (h : sumShares i bpsSum prevDue inputs = .ok result) :
    result = bpsSum + (inputs.map MilestoneInput.percentageBps).sum ∧
      (inputs.map MilestoneInput.dueAt).IsChain (· < ·) ∧
      (0 < i → ∀ due ∈ (inputs.map MilestoneInput.dueAt).head?, prevDue < due) := by
  induction inputs generalizing i bpsSum prevDue with
  | nil =>
    rw [sumShares, pure_eq_ok] at h
    refine ⟨h.symm, .nil, ?_⟩
    intro _ due hdue
    cases hdue
  | cons input rest ih =>
    simp only [sumShares, bind_eq_ok, exists_unit, orRefuse_eq_ok, fitsU_eq_some, refuseIf_eq_ok,
      not_and, not_le] at h
    obtain ⟨_, ⟨_, rfl⟩, hlater, hrest⟩ := h
    obtain ⟨hsum, hchain, hfirst⟩ := ih hrest
    refine ⟨?_, ?_, ?_⟩
    · rw [hsum, List.map_cons, List.sum_cons, Nat.add_assoc]
    · rw [List.map_cons, List.isChain_cons]
      exact ⟨hfirst (Nat.succ_pos i), hchain⟩
    · intro hi due hdue
      cases hdue
      exact hlater hi

end FirstPass

section SecondPass

/-- A milestone keeps its share and its date, and nothing has happened to it. -/
theorem deriveAmounts_copies (h : deriveAmounts count total i allocated inputs = .ok milestones) :
    milestones.map Milestone.percentageBps = inputs.map MilestoneInput.percentageBps ∧
      milestones.map Milestone.dueAt = inputs.map MilestoneInput.dueAt ∧
      ∀ m ∈ milestones, m.verified = false ∧ m.released = false := by
  induction inputs generalizing i allocated milestones with
  | nil =>
    rw [deriveAmounts, pure_eq_ok] at h
    subst h
    exact ⟨rfl, rfl, fun m hm => absurd hm List.not_mem_nil⟩
  | cons input rest ih =>
    simp only [deriveAmounts, bind_eq_ok, pure_eq_ok] at h
    obtain ⟨amount, _, _, _, others, hothers, rfl⟩ := h
    obtain ⟨hshares, hdates, huntouched⟩ := ih hothers
    refine ⟨?_, ?_, ?_⟩
    · rw [List.map_cons, List.map_cons, hshares]
    · rw [List.map_cons, List.map_cons, hdates]
    · intro m hm
      rcases List.mem_cons.mp hm with rfl | hlater
      · exact ⟨rfl, rfl⟩
      · exact huntouched m hlater

/-- The amounts are the shares of the award by basis points. -/
theorem deriveAmounts_amounts (h : deriveAmounts count total i allocated inputs = .ok milestones)
    (hcount : count = i + inputs.length) (htotal : 0 < total) :
    milestones.map Milestone.amount =
      shares total bpsDenom allocated (inputs.map MilestoneInput.percentageBps) := by
  induction inputs generalizing i allocated milestones with
  | nil =>
    rw [deriveAmounts, pure_eq_ok] at h
    subst h
    rfl
  | cons input rest ih =>
    simp only [deriveAmounts, bind_eq_ok, orRefuse_eq_ok, fitsI128_eq_some, pure_eq_ok] at h
    obtain ⟨amount, hamount, _, ⟨_, rfl⟩, others, hothers, rfl⟩ := h
    rw [List.length_cons] at hcount
    cases rest with
    | nil =>
      have hlast : i = count - 1 := by
        rw [List.length_nil] at hcount
        omega
      rw [amountOf, if_pos hlast, orRefuse_eq_ok, fitsI128_eq_some] at hamount
      rw [deriveAmounts, pure_eq_ok] at hothers
      obtain ⟨_, rfl⟩ := hamount
      subst hothers
      rfl
    | cons next rest =>
      have hearlier : ¬ i = count - 1 := by
        rw [List.length_cons] at hcount
        omega
      rw [amountOf, if_neg hearlier] at hamount
      simp only [bind_eq_ok, orRefuse_eq_ok, fitsI128_eq_some, pure_eq_ok] at hamount
      obtain ⟨_, ⟨_, rfl⟩, rfl⟩ := hamount
      have hshare : 0 ≤ total * (input.percentageBps : Int) :=
        Int.mul_nonneg htotal.le (Int.natCast_nonneg _)
      have hrest := ih hothers (by omega)
      rw [Int.tdiv_eq_ediv_of_nonneg hshare] at hrest ⊢
      rw [List.map_cons, hrest]
      rfl

/-- What has been given out in the end still fits. -/
theorem deriveAmounts_fits (h : deriveAmounts count total i allocated inputs = .ok milestones)
    (hsome : inputs ≠ []) : allocated + (milestones.map Milestone.amount).sum < 2^127 := by
  induction inputs generalizing i allocated milestones with
  | nil => exact absurd rfl hsome
  | cons input rest ih =>
    simp only [deriveAmounts, bind_eq_ok, orRefuse_eq_ok, fitsI128_eq_some, pure_eq_ok] at h
    obtain ⟨amount, _, _, ⟨⟨_, hfits⟩, rfl⟩, others, hothers, rfl⟩ := h
    rw [List.map_cons, List.sum_cons, ← Int.add_assoc]
    by_cases hrest : rest = []
    · subst hrest
      rw [deriveAmounts, pure_eq_ok] at hothers
      subst hothers
      rwa [List.map_nil, List.sum_nil, Int.add_zero]
    · exact ih hothers hrest

end SecondPass

/-- What has been built reconciles with the award. -/
theorem buildMilestones_ok (h : buildMilestones total inputs = .ok milestones) :
    Reconciled total milestones ∧ ∀ m ∈ milestones, m.verified = false ∧ m.released = false := by
  simp only [buildMilestones, bind_eq_ok, exists_unit, refuseIf_eq_ok, not_or, not_le, not_not] at h
  obtain ⟨⟨hsome, _⟩, htotal, _, hfirst, rfl, hsecond⟩ := h
  have hinputs : inputs ≠ [] := List.length_eq_zero_iff.not.mp hsome
  obtain ⟨hbps, hchain, _⟩ := sumShares_ok hfirst
  rw [Nat.zero_add] at hbps
  obtain ⟨hcopied, hdates, huntouched⟩ := deriveAmounts_copies hsecond
  have hamounts := deriveAmounts_amounts hsecond (Nat.zero_add _).symm htotal
  have hsum : (milestones.map Milestone.amount).sum = total := by
    rw [hamounts, sum_shares (List.map_eq_nil_iff.not.mpr hinputs), Int.sub_zero]
  refine ⟨⟨?_, hsum, ?_, ?_, ?_⟩, huntouched⟩
  · intro m hm
    have hweights : (0 : Int) + ((inputs.map MilestoneInput.percentageBps).sum : Nat) ≤ bpsDenom := by
      rw [← hbps, zero_add]
    have hgiven : (0 : Int) * bpsDenom ≤ total * 0 := by rw [Int.zero_mul, Int.mul_zero]
    have hshares := shares_nonneg htotal.le (by decide) hgiven hweights
    apply hshares
    rw [← hamounts]
    exact List.mem_map_of_mem hm
  · intro k m hm hk
    have hamount : (milestones.map Milestone.amount)[k]? = some m.amount := by
      rw [List.getElem?_map, hm, Option.map_some]
    have hweight : (milestones.map Milestone.percentageBps)[k]? = some m.percentageBps := by
      rw [List.getElem?_map, hm, Option.map_some]
    rw [hamounts] at hamount
    rw [hcopied] at hweight
    apply shares_getElem? hamount hweight
    rwa [← hcopied, List.length_map]
  · rw [hdates]
    exact List.isChain_iff_pairwise.mp hchain
  · have hfits := deriveAmounts_fits hsecond hinputs
    rwa [hsum, Int.zero_add] at hfits

end Derivation

variable {contract : Address} {env : Env contract} {s s' : State} {total : Int} {index : Nat}
  {milestone next : Milestone} {milestones others : List Milestone}
  {schedule written : MilestoneSchedule} {admin : Address} {awardId : Bytes32}

/-- What `releaseMilestone` asks for: the admin, and a verified milestone of an active schedule that is
the next one to be released. -/
structure Releasable (env : Env contract) (s : State) (admin : Address) (awardId : Bytes32)
    (index : Nat) (schedule : MilestoneSchedule) (milestone : Milestone) : Prop where
  admin : s.admin = some admin ∧ env.signers admin = true
  found : s.schedule awardId = some schedule
  active : schedule.active = true
  stands : schedule.milestones[index]? = some milestone
  unreleased : milestone.released = false
  verified : milestone.verified = true
  inOrder : ∀ earlier ∈ schedule.milestones.take index, earlier.released = true

/-- A milestone is released when all of that is found, whatever the time. -/
theorem releaseMilestone_eq_ok :
    releaseMilestone env s admin awardId index = .ok s' ↔
      ∃ schedule milestone, Releasable env s admin awardId index schedule milestone ∧
        putSchedule s { schedule with
          milestones := schedule.milestones.set index { milestone with released := true } } = s' := by
  simp only [releaseMilestone, requireAdmin, loadSchedule, bind_eq_ok, exists_unit, orRefuse_eq_ok,
    refuseIf_eq_ok, requireAuth_eq_ok, pure_eq_ok, not_not, Bool.not_eq_true, Bool.not_eq_false]
  constructor
  · rintro ⟨⟨stored, hadmin, rfl, hsigned⟩, schedule, hfound, hactive, milestone, hstands,
      hunreleased, hverified, hinOrder, hs'⟩
    exact ⟨schedule, milestone, ⟨⟨hadmin, hsigned⟩, hfound, hactive, hstands, hunreleased, hverified,
      hinOrder⟩, hs'⟩
  · rintro ⟨schedule, milestone, ⟨⟨hadmin, hsigned⟩, hfound, hactive, hstands, hunreleased, hverified,
      hinOrder⟩, hs'⟩
    exact ⟨⟨admin, hadmin, rfl, hsigned⟩, schedule, hfound, hactive, milestone, hstands, hunreleased,
      hverified, hinOrder, hs'⟩

/-- Everything an accepted call can have done. -/
inductive Effect (i : Input contract) (s : State) : State → Prop where
  | setAdmin {admin : Address} : Effect i s { s with admin := some admin }
  | define {schedule : MilestoneSchedule} (absent : s.schedule schedule.awardId = none)
      (reconciled : Reconciled schedule.totalAmount schedule.milestones)
      (untouched : ∀ m ∈ schedule.milestones, m.verified = false ∧ m.released = false) :
      Effect i s (putSchedule s schedule)
  | activate {awardId : Bytes32} {schedule : MilestoneSchedule} {now : Nat}
      (found : s.schedule awardId = some schedule) :
      Effect i s (putSchedule s { schedule with
        active := true
        activatedAt := now })
  | amend {awardId : Bytes32} {schedule written : MilestoneSchedule}
      (found : s.schedule awardId = some schedule) (same : written.awardId = schedule.awardId)
      (locked : ∀ m ∈ schedule.milestones, m.released = false)
      (reconciled : Reconciled written.totalAmount written.milestones)
      (untouched : ∀ m ∈ written.milestones, m.verified = false ∧ m.released = false) :
      Effect i s (putSchedule s written)
  | verify {awardId : Bytes32} {schedule : MilestoneSchedule} {index : Nat} {milestone : Milestone}
      (found : s.schedule awardId = some schedule)
      (stands : schedule.milestones[index]? = some milestone) :
      Effect i s (putSchedule s { schedule with
        milestones := schedule.milestones.set index { milestone with verified := true } })
  | release {admin : Address} {awardId : Bytes32} {index : Nat} {schedule : MilestoneSchedule}
      {milestone : Milestone} (call : i.call = .releaseMilestone admin awardId index)
      (releasable : Releasable i.env s admin awardId index schedule milestone) :
      Effect i s (putSchedule s { schedule with
        milestones := schedule.milestones.set index { milestone with released := true } })

/-- Every accepted call does one of the effects. -/
theorem step_effect {i : Input contract} {u : Unit} (h : (machine contract).step s i = .ok (u, s')) :
    Effect i s s' := by
  obtain ⟨env, call⟩ := i
  simp only [machine, map_eq_ok, Prod.mk.injEq, true_and] at h
  obtain ⟨_, h, rfl⟩ := h
  cases call with
  | initializeContract =>
    simp only [execute, initializeContract, bind_eq_ok, exists_unit, pure_eq_ok] at h
    obtain ⟨_, _, rfl⟩ := h
    exact .setAdmin
  | defineSchedule =>
    simp only [execute, defineSchedule, bind_eq_ok, exists_unit, refuseIf_eq_ok, pure_eq_ok,
      not_not] at h
    obtain ⟨_, habsent, _, hbuilt, rfl⟩ := h
    obtain ⟨hreconciled, huntouched⟩ := buildMilestones_ok hbuilt
    exact .define habsent hreconciled huntouched
  | activateSchedule =>
    simp only [execute, activateSchedule, loadSchedule, bind_eq_ok, exists_unit, orRefuse_eq_ok,
      pure_eq_ok] at h
    obtain ⟨_, _, hfound, _, rfl⟩ := h
    exact .activate hfound
  | amendSchedule =>
    simp only [execute, amendSchedule, loadSchedule, bind_eq_ok, exists_unit, orRefuse_eq_ok,
      refuseIf_eq_ok, pure_eq_ok, List.any_eq_true, not_exists, not_and, Bool.not_eq_true] at h
    obtain ⟨_, _, hfound, _, hlocked, _, hbuilt, _, _, rfl⟩ := h
    obtain ⟨hreconciled, huntouched⟩ := buildMilestones_ok hbuilt
    refine .amend hfound ?_ hlocked ?_ ?_
    · rfl
    · exact hreconciled
    · exact huntouched
  | verifyMilestone =>
    simp only [execute, verifyMilestone, loadSchedule, bind_eq_ok, exists_unit, orRefuse_eq_ok,
      pure_eq_ok] at h
    obtain ⟨_, _, hfound, _, _, hstands, _, rfl⟩ := h
    exact .verify hfound hstands
  | releaseMilestone =>
    obtain ⟨schedule, milestone, hreleasable, rfl⟩ := releaseMilestone_eq_ok.mp h
    exact .release rfl hreleasable

section Schedules

/-- What a milestone pays, and when. -/
def Milestone.terms (m : Milestone) : Int × Nat × Nat := (m.amount, m.percentageBps, m.dueAt)

/-- A schedule that reconciles, of which the first milestones have been released. -/
structure MilestoneSchedule.Sound (schedule : MilestoneSchedule) : Prop where
  reconciled : Reconciled schedule.totalAmount schedule.milestones
  inOrder : ∃ n : Nat, ∀ i (m : Milestone), schedule.milestones[i]? = some m → (m.released = true ↔ i < n)
  verified : ∀ m, m ∈ schedule.milestones → m.released = true → m.verified = true

/-- What has been released. -/
def paid (milestones : List Milestone) : Int :=
  (milestones.map fun m => if m.released then m.amount else 0).sum

/-- How a schedule may change: it pays no less, and once it has paid it keeps its terms. -/
structure Onward (a b : MilestoneSchedule) : Prop where
  paid_le : paid a.milestones ≤ paid b.milestones
  locked : (∃ m ∈ a.milestones, m.released = true) →
    b.totalAmount = a.totalAmount ∧ b.version = a.version ∧
      b.milestones.map Milestone.terms = a.milestones.map Milestone.terms ∧
      ∃ m ∈ b.milestones, m.released = true

theorem Onward.refl (a : MilestoneSchedule) : Onward a a :=
  ⟨le_rfl, fun hpaid => ⟨rfl, rfl, rfl, hpaid⟩⟩

theorem Onward.trans {a b c : MilestoneSchedule} (h : Onward a b) (h' : Onward b c) :
    Onward a c where
  paid_le := h.paid_le.trans h'.paid_le
  locked := by
    intro hpaid
    obtain ⟨htotal, hversion, hterms, hstill⟩ := h.locked hpaid
    obtain ⟨htotal', hversion', hterms', hlast⟩ := h'.locked hstill
    exact ⟨htotal'.trans htotal, hversion'.trans hversion, hterms'.trans hterms, hlast⟩

/-- Milestones with the terms of reconciled ones reconcile. -/
theorem Reconciled.same_terms (h : Reconciled total milestones)
    (hterms : others.map Milestone.terms = milestones.map Milestone.terms) :
    Reconciled total others := by
  have hamounts : others.map Milestone.amount = milestones.map Milestone.amount := by
    have hfirst := congrArg (List.map Prod.fst) hterms
    rwa [List.map_map, List.map_map] at hfirst
  have hdates : others.map Milestone.dueAt = milestones.map Milestone.dueAt := by
    have hlast := congrArg (List.map fun terms => terms.2.2) hterms
    rwa [List.map_map, List.map_map] at hlast
  have hlength : others.length = milestones.length := by
    have hlengths := congrArg List.length hterms
    rwa [List.length_map, List.length_map] at hlengths
  refine ⟨?_, ?_, ?_, ?_, h.fits⟩
  · intro m hm
    have hamount : m.amount ∈ milestones.map Milestone.amount := by
      rw [← hamounts]
      exact List.mem_map_of_mem hm
    obtain ⟨m', hm', heq⟩ := List.mem_map.mp hamount
    rw [← heq]
    exact h.nonneg m' hm'
  · rw [hamounts]
    exact h.sum
  · intro i m hm hi
    have hterm : (milestones.map Milestone.terms)[i]? = some m.terms := by
      rw [← hterms, List.getElem?_map, hm, Option.map_some]
    rw [List.getElem?_map, Option.map_eq_some_iff] at hterm
    obtain ⟨m', hm', heq⟩ := hterm
    have hshare := h.shares i m' hm' (hlength ▸ hi)
    have hamount : m'.amount = m.amount := congrArg Prod.fst heq
    have hbps : m'.percentageBps = m.percentageBps := congrArg (fun terms => terms.2.1) heq
    rwa [hamount, hbps] at hshare
  · rw [hdates]
    exact h.ordered

/-- Nothing has been released of a new schedule. -/
theorem sound_built (hreconciled : Reconciled schedule.totalAmount schedule.milestones)
    (huntouched : ∀ m ∈ schedule.milestones, m.verified = false ∧ m.released = false) :
    schedule.Sound := by
  refine ⟨hreconciled, ⟨0, ?_⟩, ?_⟩
  · intro i m hm
    have hunreleased := (huntouched m (List.mem_of_getElem? hm)).2
    rw [hunreleased]
    exact iff_of_false Bool.false_ne_true (Nat.not_lt_zero i)
  · intro m hm hreleased
    rw [(huntouched m hm).2] at hreleased
    cases hreleased

theorem paid_eq_zero (h : ∀ m ∈ milestones, m.released = false) : paid milestones = 0 := by
  apply List.sum_eq_zero
  intro x hx
  obtain ⟨m, hm, rfl⟩ := List.mem_map.mp hx
  rw [h m hm]
  rfl

theorem paid_nonneg (h : Reconciled total milestones) : 0 ≤ paid milestones := by
  apply List.sum_nonneg
  intro x hx
  obtain ⟨m, hm, rfl⟩ := List.mem_map.mp hx
  split_ifs
  · exact h.nonneg m hm
  · exact le_rfl

/-- One more milestone with its terms kept, released or not, takes nothing away. -/
theorem paid_set (hstands : milestones[index]? = some milestone)
    (hamount : next.amount = milestone.amount) (hnonneg : 0 ≤ milestone.amount)
    (hreleased : milestone.released = true → next.released = true) :
    paid milestones ≤ paid (milestones.set index next) := by
  induction milestones generalizing index with
  | nil => cases hstands
  | cons first rest ih =>
    cases index with
    | zero =>
      rw [List.getElem?_cons_zero, Option.some.injEq] at hstands
      rw [List.set_cons_zero, paid, paid, List.map_cons, List.map_cons, List.sum_cons, List.sum_cons,
        hstands, hamount]
      apply Int.add_le_add_right
      by_cases hpaid : milestone.released = true
      · rw [if_pos hpaid, if_pos (hreleased hpaid)]
      · rw [if_neg hpaid]
        split_ifs
        · exact hnonneg
        · exact le_rfl
    | succ index =>
      rw [List.getElem?_cons_succ] at hstands
      rw [List.set_cons_succ, paid, paid, List.map_cons, List.map_cons, List.sum_cons, List.sum_cons]
      exact Int.add_le_add_left (ih hstands) _

/-- A milestone that is verified or released goes on. -/
theorem onward_set (hreconciled : Reconciled schedule.totalAmount schedule.milestones)
    (hstands : schedule.milestones[index]? = some milestone) (hterms : next.terms = milestone.terms)
    (hreleased : milestone.released = true → next.released = true)
    (hwritten : written = { schedule with milestones := schedule.milestones.set index next }) :
    Onward schedule written := by
  have hmem := List.mem_of_getElem? hstands
  have hamount : next.amount = milestone.amount := congrArg Prod.fst hterms
  subst hwritten
  refine ⟨paid_set hstands hamount (hreconciled.nonneg _ hmem) hreleased, ?_⟩
  intro hpaid
  obtain ⟨m, hm, hmReleased⟩ := hpaid
  refine ⟨rfl, rfl, map_set_same hstands hterms, ?_⟩
  obtain ⟨i, hi⟩ := List.mem_iff_getElem?.mp hm
  have hbound := (List.getElem?_eq_some_iff.mp hstands).1
  by_cases hindex : index = i
  · subst hindex
    rw [hstands, Option.some.injEq] at hi
    exact ⟨next, List.mem_set hbound _, hreleased (hi ▸ hmReleased)⟩
  · refine ⟨m, List.mem_of_getElem? (i := i) ?_, hmReleased⟩
    rwa [List.getElem?_set_ne hindex]

theorem MilestoneSchedule.Sound.verify (h : schedule.Sound)
    (hstands : schedule.milestones[index]? = some milestone)
    (hwritten : written = { schedule with
      milestones := schedule.milestones.set index { milestone with verified := true } }) :
    written.Sound := by
  subst hwritten
  obtain ⟨n, hn⟩ := h.inOrder
  refine ⟨h.reconciled.same_terms (map_set_same hstands rfl), ⟨n, ?_⟩, ?_⟩
  · intro i m hm
    rcases getElem?_set_cases hm with ⟨rfl, rfl⟩ | ⟨_, hold⟩
    · exact hn i milestone hstands
    · exact hn i m hold
  · intro m hm hreleased
    rcases List.mem_or_eq_of_mem_set hm with hold | rfl
    · exact h.verified m hold hreleased
    · rfl

/-- The next milestone in order is released. -/
theorem MilestoneSchedule.Sound.release (h : schedule.Sound)
    (hstands : schedule.milestones[index]? = some milestone) (hunreleased : milestone.released = false)
    (hverified : milestone.verified = true)
    (hinOrder : ∀ earlier ∈ schedule.milestones.take index, earlier.released = true)
    (hwritten : written = { schedule with
      milestones := schedule.milestones.set index { milestone with released := true } }) :
    written.Sound := by
  subst hwritten
  obtain ⟨n, hn⟩ := h.inOrder
  have hbeyond : n ≤ index := by
    have hnot := (hn index milestone hstands).not
    rw [hunreleased] at hnot
    exact not_lt.mp (hnot.mp Bool.false_ne_true)
  refine ⟨h.reconciled.same_terms (map_set_same hstands rfl), ⟨index + 1, ?_⟩, ?_⟩
  · intro i m hm
    rcases getElem?_set_cases hm with ⟨rfl, rfl⟩ | ⟨hne, hold⟩
    · exact iff_of_true rfl (Nat.lt_succ_self i)
    · by_cases hearlier : i < index
      · have htaken : m ∈ schedule.milestones.take index := by
          apply List.mem_of_getElem? (i := i)
          rwa [List.getElem?_take_of_lt hearlier]
        exact iff_of_true (hinOrder m htaken) (Nat.lt_succ_of_lt hearlier)
      · rw [hn i m hold]
        exact iff_of_false (by omega) (by omega)
  · intro m hm hreleased
    rcases List.mem_or_eq_of_mem_set hm with hold | rfl
    · exact h.verified m hold hreleased
    · exact hverified

end Schedules

section Runs

/-- Every award has a sound schedule of its own. -/
def State.Sound (s : State) : Prop :=
  ∀ awardId schedule, s.schedule awardId = some schedule →
    schedule.awardId = awardId ∧ schedule.Sound

theorem sound_empty : State.empty.Sound := nofun

/-- A schedule is written in its place. -/
theorem State.Sound.put (h : s.Sound) (hsound : schedule.Sound) : (putSchedule s schedule).Sound :=
  forall_update_row h rfl ⟨rfl, hsound⟩

theorem Effect.sound {i : Input contract} (h : Effect i s s') (hs : s.Sound) : s'.Sound := by
  cases h with
  | setAdmin => exact hs
  | define _ hreconciled huntouched => exact hs.put (sound_built hreconciled huntouched)
  | activate hfound =>
    obtain ⟨_, hsound⟩ := hs _ _ hfound
    exact hs.put ⟨hsound.reconciled, hsound.inOrder, hsound.verified⟩
  | amend _ _ _ hreconciled huntouched => exact hs.put (sound_built hreconciled huntouched)
  | verify hfound hstands => exact hs.put ((hs _ _ hfound).2.verify hstands rfl)
  | release _ hreleasable =>
    have hsound := (hs _ _ hreleasable.found).2
    exact hs.put (hsound.release hreleasable.stands hreleasable.unreleased hreleasable.verified
      hreleasable.inOrder rfl)

/-- Every schedule goes on. -/
def State.Onward (s s' : State) : Prop :=
  ∀ awardId a, s.schedule awardId = some a → ∃ b, s'.schedule awardId = some b ∧
    ScholarshipMilestones.Onward a b

/-- One schedule is written, over one from which it goes on. -/
theorem onward_put {awardId : Bytes32} (hs : s.Sound) (hfound : s.schedule awardId = some schedule)
    (hsame : written.awardId = schedule.awardId) (h : Onward schedule written) :
    s.Onward (putSchedule s written) := by
  intro awardId' a ha
  rw [← (hs _ _ hfound).1] at hfound
  show ∃ b, Function.update s.schedule written.awardId (some written) awardId' = some b ∧ _
  rw [hsame]
  by_cases hid : awardId' = schedule.awardId
  · rw [hid, hfound, Option.some.injEq] at ha
    rw [hid, Function.update_self, ← ha]
    exact ⟨written, rfl, h⟩
  · rw [Function.update_of_ne hid]
    exact ⟨a, ha, .refl a⟩

theorem Effect.onward {i : Input contract} (h : Effect i s s') (hs : s.Sound) : s.Onward s' := by
  cases h with
  | setAdmin => exact fun _ a ha => ⟨a, ha, .refl a⟩
  | define habsent => exact fun _ a ha => ⟨a, update_keeps_row habsent ha, .refl a⟩
  | activate hfound => exact onward_put hs hfound rfl ⟨le_rfl, fun hpaid => ⟨rfl, rfl, rfl, hpaid⟩⟩
  | amend hfound hsame hlocked hreconciled =>
    refine onward_put hs hfound hsame ⟨?_, ?_⟩
    · rw [paid_eq_zero hlocked]
      exact paid_nonneg hreconciled
    · intro hpaid
      obtain ⟨m, hm, hreleased⟩ := hpaid
      rw [hlocked m hm] at hreleased
      cases hreleased
  | verify hfound hstands =>
    refine onward_put hs hfound rfl (onward_set (hs _ _ hfound).2.reconciled hstands ?_ ?_ rfl)
    · rfl
    · exact id
  | release _ hreleasable =>
    have hfound := hreleasable.found
    refine onward_put hs hfound rfl (onward_set (hs _ _ hfound).2.reconciled hreleasable.stands ?_ ?_ rfl)
    · rfl
    · exact fun _ => rfl

theorem run_sound (is : List (Input contract)) : ((machine contract).run State.empty is).Sound :=
  Machine.run_invariant sound_empty (fun _ _ _ _ hs h => (step_effect h).sound hs) is

/-- Over a run every schedule goes on. -/
theorem run_onward (is : List (Input contract)) (hs : s.Sound) :
    s.Onward ((machine contract).run s is) := by
  refine Machine.run_relation (R := State.Onward) ?_ ?_ hs
    (fun _ _ _ _ hs h => (step_effect h).sound hs)
    (fun _ _ _ _ hs h => (step_effect h).onward hs) is
  · exact fun s _ a ha => ⟨a, ha, .refl a⟩
  · intro s₁ s₂ s₃ h h' awardId a ha
    obtain ⟨b, hb, hab⟩ := h awardId a ha
    obtain ⟨c, hc, hbc⟩ := h' awardId b hb
    exact ⟨c, hc, hab.trans hbc⟩

end Runs

section Views

/-- The loop adds up what has been released. -/
theorem foldlM_sumReleased (hnonneg : ∀ m ∈ milestones, 0 ≤ m.amount) {start : Int} (hstart : 0 ≤ start)
    (hfits : start + (milestones.map Milestone.amount).sum < 2^127) :
    milestones.foldlM sumReleased start = .ok (start + paid milestones) := by
  induction milestones generalizing start with
  | nil => exact congrArg Except.ok (Int.add_zero start).symm
  | cons m rest ih =>
    have hm := hnonneg m List.mem_cons_self
    have hrest : ∀ m' ∈ rest, 0 ≤ m'.amount := fun m' hm' => hnonneg m' (List.mem_cons_of_mem m hm')
    have hothers : 0 ≤ (rest.map Milestone.amount).sum := by
      apply List.sum_nonneg
      intro x hx
      obtain ⟨m', hm', rfl⟩ := List.mem_map.mp hx
      exact hrest m' hm'
    rw [List.map_cons, List.sum_cons] at hfits
    rw [List.foldlM_cons, sumReleased, paid, List.map_cons, List.sum_cons, ← paid]
    by_cases hreleased : m.released = true
    · have hsum : fitsI128 (start + m.amount) = some (start + m.amount) :=
        fitsI128_eq_some.mpr ⟨⟨by omega, by omega⟩, rfl⟩
      rw [if_pos hreleased, if_pos hreleased, hsum, orRefuse, ok_bind, ih hrest (by omega) (by omega),
        Int.add_assoc]
    · rw [if_neg hreleased, if_neg hreleased, Int.zero_add]
      exact ih hrest hstart (by omega)

theorem paid_le_total (h : Reconciled total milestones) : paid milestones ≤ total := by
  rw [← h.sum]
  apply List.sum_le_sum
  intro m hm
  split_ifs
  · exact le_rfl
  · exact h.nonneg m hm

theorem State.Sound.releasedTotal (hs : s.Sound) {awardId : Bytes32}
    (hfound : s.schedule awardId = some schedule) :
    releasedTotal s awardId = .ok (paid schedule.milestones) := by
  have hreconciled := (hs awardId schedule hfound).2.reconciled
  have hfits := hreconciled.fits
  rw [← hreconciled.sum] at hfits
  rw [ScholarshipMilestones.releasedTotal, loadSchedule, hfound, orRefuse, ok_bind,
    foldlM_sumReleased hreconciled.nonneg le_rfl (by omega), Int.zero_add]

theorem State.Sound.remainingAmount (hs : s.Sound) {awardId : Bytes32}
    (hfound : s.schedule awardId = some schedule) :
    remainingAmount s awardId = .ok (schedule.totalAmount - paid schedule.milestones) := by
  obtain ⟨hid, hsound⟩ := hs awardId schedule hfound
  have hnonneg := paid_nonneg hsound.reconciled
  have hle := paid_le_total hsound.reconciled
  have hfits := hsound.reconciled.fits
  have hleft : fitsI128 (schedule.totalAmount - paid schedule.milestones) =
      some (schedule.totalAmount - paid schedule.milestones) :=
    fitsI128_eq_some.mpr ⟨⟨by omega, by omega⟩, rfl⟩
  rw [ScholarshipMilestones.remainingAmount, loadSchedule, hfound, orRefuse, ok_bind, hid,
    hs.releasedTotal hfound, ok_bind, hleft, orRefuse]

end Views

/-- In every state that any calls lead to, the milestones of each award reconcile with it and are
released in order, and what is released and what remains add up to it. Whatever is called later, no less
is released, and once something is the award and its milestones' terms stay. -/
theorem run_schedules (earlier later : List (Input contract)) (awardId : Bytes32)
    (schedule : MilestoneSchedule)
    (hstored : ((machine contract).run State.empty earlier).schedule awardId = some schedule) :
    let s := (machine contract).run State.empty earlier
    let s' := (machine contract).run State.empty (earlier ++ later)
    (∀ m ∈ schedule.milestones, 0 ≤ m.amount) ∧
      (schedule.milestones.map Milestone.amount).sum = schedule.totalAmount ∧
      (∀ i m, schedule.milestones[i]? = some m → i + 1 < schedule.milestones.length →
        m.amount = schedule.totalAmount * m.percentageBps / 10000) ∧
      (schedule.milestones.map Milestone.dueAt).Pairwise (· < ·) ∧
      (∃ n : Nat, ∀ i (m : Milestone), schedule.milestones[i]? = some m → (m.released = true ↔ i < n)) ∧
      (∀ m ∈ schedule.milestones, m.released = true → m.verified = true) ∧
      ∃ released remaining released' schedule', releasedTotal s awardId = .ok released ∧
        remainingAmount s awardId = .ok remaining ∧ released + remaining = schedule.totalAmount ∧
        releasedTotal s' awardId = .ok released' ∧ released ≤ released' ∧
        s'.schedule awardId = some schedule' ∧
        ((∃ m ∈ schedule.milestones, m.released = true) →
          schedule'.totalAmount = schedule.totalAmount ∧ schedule'.version = schedule.version ∧
            schedule'.milestones.map Milestone.amount = schedule.milestones.map Milestone.amount ∧
            schedule'.milestones.map Milestone.dueAt = schedule.milestones.map Milestone.dueAt) := by
  intro s s'
  have hs : s.Sound := run_sound earlier
  have hs' : s'.Sound := run_sound (earlier ++ later)
  obtain ⟨_, hsound⟩ := hs awardId schedule hstored
  have honward : s.Onward s' := by
    show State.Onward s ((machine contract).run State.empty (earlier ++ later))
    rw [Machine.run_append]
    exact run_onward later hs
  obtain ⟨schedule', hstored', hnext⟩ := honward awardId schedule hstored
  refine ⟨hsound.reconciled.nonneg, hsound.reconciled.sum, hsound.reconciled.shares,
    hsound.reconciled.ordered, hsound.inOrder, hsound.verified, _, _, _, schedule',
    hs.releasedTotal hstored, hs.remainingAmount hstored, by omega, hs'.releasedTotal hstored',
    hnext.paid_le, hstored', ?_⟩
  intro hpaid
  obtain ⟨htotal, hversion, hterms, _⟩ := hnext.locked hpaid
  refine ⟨htotal, hversion, ?_, ?_⟩
  · have hfirst := congrArg (List.map Prod.fst) hterms
    rwa [List.map_map, List.map_map] at hfirst
  · have hlast := congrArg (List.map fun terms => terms.2.2) hterms
    rwa [List.map_map, List.map_map] at hlast

section Samples

/-- Two milestones of an odd award, of which the first is released. -/
def sampleRelease : List (Input ⟨0⟩) :=
  [⟨.sample, .initializeContract ⟨1⟩⟩,
    ⟨.sample, .defineSchedule ⟨1⟩ 7 101 "USDC"
      [⟨.enrollment, 1, 5000, 30⟩, ⟨.completion, 2, 5000, 40⟩]⟩,
    ⟨.sample, .activateSchedule ⟨1⟩ 7⟩,
    ⟨.sampleLater, .verifyMilestone ⟨1⟩ 7 0⟩,
    ⟨.sampleLater, .releaseMilestone ⟨1⟩ 7 0⟩]

/-- The first half is rounded down, and the rest is still to come. -/
theorem run_schedules_sample :
    let s := (machine ⟨0⟩).run State.empty sampleRelease
    releasedTotal s 7 = .ok 50 ∧ remainingAmount s 7 = .ok 51 ∧
      ∃ schedule, s.schedule 7 = some schedule ∧
        (schedule.milestones.map Milestone.amount).sum = schedule.totalAmount := by
  intro s
  obtain ⟨schedule, hstored⟩ : ∃ schedule, s.schedule 7 = some schedule :=
    Option.isSome_iff_exists.mp (by decide +kernel)
  refine ⟨by decide +kernel, by decide +kernel, schedule, hstored, ?_⟩
  exact (run_schedules sampleRelease [] 7 schedule hstored).2.1

end Samples

end ChainVerse.ScholarshipMilestones
