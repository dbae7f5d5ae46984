import Mathlib.Algebra.Order.Ring.Int
import Mathlib.Order.Bounds.Basic
import Mathlib.Data.List.Pairwise
import Mathlib.Order.Interval.Set.Basic

namespace ChainVerse

/-! Clocks that show the natural time plus an offset, which may change from instant to instant. -/

section Clocks

variable (offset : Nat → Int)

/-- What the clock shows at an instant. -/
def reading (t : Nat) : Int := t + offset t

/-- An instant is the first one at which the clock shows a time. -/
def FirstShows (shown : Int) (t : Nat) : Prop := IsLeast {u | reading offset u = shown} t

variable {offset} {shown shown' : Int} {a b t : Nat}

theorem FirstShows.reads (h : FirstShows offset shown t) : t + offset t = shown := h.1

theorem FirstShows.first (h : FirstShows offset shown t) (ha : a + offset a = shown) : t ≤ a :=
  h.2 ha

theorem FirstShows.unique (h : FirstShows offset shown a) (h' : FirstShows offset shown b) :
    a = b := IsLeast.unique h h'

/-- A clock whose offset never changes shows every time once. -/
theorem firstShows_of_constant {c : Int} (hc : ∀ u, offset u = c) :
    FirstShows offset shown t ↔ t + c = shown := by
  constructor
  · intro h
    have hreads := h.reads
    rwa [hc] at hreads
  · intro h
    refine ⟨?_, ?_⟩
    · show (t : Int) + offset t = shown
      rw [hc, h]
    · intro u hu
      have hreads : (u : Int) + offset u = shown := hu
      rw [hc] at hreads
      omega

/-- While the offset stays as it was when the clock first showed `shown`, the clock shows times from
`shown` on, and times before `shown'` until it first shows that. -/
theorem reading_within (ha : FirstShows offset shown a) (hb : FirstShows offset shown' b)
    (hle : shown ≤ shown') (hat : a ≤ t) (htb : t < b)
    (hsteady : ∀ u, a ≤ u → u ≤ t → offset u = offset a) :
    shown ≤ reading offset t ∧ reading offset t < shown' := by
  have hstart := ha.reads
  have ht := hsteady t hat le_rfl
  unfold reading
  refine ⟨by omega, ?_⟩
  by_contra hlate
  -- A clock that has run past `shown'` evenly has shown it on the way.
  have hpassed : b ≤ a + (shown' - shown).toNat := by
    apply hb.first
    rw [hsteady _ (by omega) (by omega)]
    omega
  omega

/-- The least member of a set, `none` where it is empty. -/
def LeastOf (found : Set Nat) : Option Nat → Prop
  | none => found = ∅
  | some t => IsLeast found t

theorem leastOf_empty : LeastOf ∅ none := rfl

/-- One more member moves the least to the smaller of the two. -/
theorem LeastOf.insert {found : Set Nat} {best : Option Nat} (h : LeastOf found best) (t : Nat) :
    LeastOf (found ∪ {t}) (some (best.elim t (min t))) := by
  cases best with
  | none =>
    have hempty : found = ∅ := h
    rw [hempty, Set.empty_union]
    exact isLeast_singleton
  | some u =>
    have hleast : IsLeast found u := h
    rw [Set.union_comm]
    exact isLeast_singleton.union hleast

end Clocks

/-! Lists of half-open spans over a linear order. A span is any value with two ends `lo` and `hi`;
it covers the points from `lo` on and before `hi`. -/

section Spans

variable {ρ τ : Type} [LinearOrder τ] (lo hi : ρ → τ)

/-- The points that some span of the list covers. -/
def covered (rs : List ρ) : Set τ := {t | ∃ r ∈ rs, lo r ≤ t ∧ t < hi r}

/-- Nonempty spans in ascending order that do not even touch. -/
structure Separated (rs : List ρ) : Prop where
  nonempty : ∀ r ∈ rs, lo r < hi r
  apart : rs.Pairwise fun r r' => hi r < lo r'

variable {lo hi}

theorem mem_covered {rs : List ρ} {t : τ} :
    t ∈ covered lo hi rs ↔ ∃ r ∈ rs, lo r ≤ t ∧ t < hi r := Iff.rfl

@[simp] theorem covered_nil : covered lo hi ([] : List ρ) = ∅ := by
  ext t
  simp [mem_covered]

theorem covered_append (rs ps : List ρ) :
    covered lo hi (rs ++ ps) = covered lo hi rs ∪ covered lo hi ps := by
  ext t
  simp only [mem_covered, Set.mem_union, List.mem_append]
  constructor
  · rintro ⟨r, hr | hr, ht⟩
    · exact .inl ⟨r, hr, ht⟩
    · exact .inr ⟨r, hr, ht⟩
  · rintro (⟨r, hr, ht⟩ | ⟨r, hr, ht⟩)
    · exact ⟨r, .inl hr, ht⟩
    · exact ⟨r, .inr hr, ht⟩

theorem covered_flatMap {α : Type} (xs : List α) (f : α → List ρ) {t : τ} :
    t ∈ covered lo hi (xs.flatMap f) ↔ ∃ x ∈ xs, t ∈ covered lo hi (f x) := by
  simp only [mem_covered, List.mem_flatMap]
  constructor
  · rintro ⟨r, ⟨x, hx, hr⟩, ht⟩
    exact ⟨x, hx, r, hr, ht⟩
  · rintro ⟨x, hx, r, hr, ht⟩
    exact ⟨r, ⟨x, hx, hr⟩, ht⟩

theorem covered_perm {rs ps : List ρ} (h : rs.Perm ps) : covered lo hi rs = covered lo hi ps := by
  ext t
  simp only [mem_covered, h.mem_iff]

theorem separated_nil : Separated lo hi ([] : List ρ) :=
  ⟨fun _ h => absurd h List.not_mem_nil, List.Pairwise.nil⟩

theorem separated_singleton {r : ρ} (h : lo r < hi r) : Separated lo hi [r] :=
  ⟨fun _ hr => by rwa [List.mem_singleton.mp hr], List.pairwise_singleton _ _⟩

theorem Separated.append {rs ps : List ρ} (hrs : Separated lo hi rs) (hps : Separated lo hi ps)
    (h : ∀ r ∈ rs, ∀ p ∈ ps, hi r < lo p) : Separated lo hi (rs ++ ps) := by
  constructor
  · intro r hr
    rcases List.mem_append.mp hr with hr | hr
    · exact hrs.nonempty r hr
    · exact hps.nonempty r hr
  · exact List.pairwise_append.mpr ⟨hrs.apart, hps.apart, h⟩

theorem Separated.left {rs ps : List ρ} (h : Separated lo hi (rs ++ ps)) : Separated lo hi rs :=
  ⟨fun r hr => h.nonempty r (List.mem_append_left _ hr), (List.pairwise_append.mp h.apart).1⟩

theorem Separated.tail {r : ρ} {rs : List ρ} (h : Separated lo hi (r :: rs)) :
    Separated lo hi rs :=
  ⟨fun p hp => h.nonempty p (List.mem_cons_of_mem r hp), h.apart.of_cons⟩

theorem Separated.head_lt {r p : ρ} {rs : List ρ} (h : Separated lo hi (r :: rs)) (hp : p ∈ rs) :
    hi r < lo p := List.rel_of_pairwise_cons h.apart hp

/-- Of two spans one ends before the other starts. -/
theorem Separated.ordered {rs : List ρ} (h : Separated lo hi rs) {r p : ρ} (hr : r ∈ rs)
    (hp : p ∈ rs) (hne : r ≠ p) : hi r < lo p ∨ hi p < lo r := by
  have hsymm : Std.Symm fun x y => hi x < lo y ∨ hi y < lo x := ⟨fun _ _ => Or.symm⟩
  have hboth := h.apart.imp (S := fun x y => hi x < lo y ∨ hi y < lo x) fun hxy => .inl hxy
  exact hboth.forall hr hp hne

/-- Cutting every span into separated pieces of itself keeps the list separated. -/
theorem Separated.flatMap {rs : List ρ} (h : Separated lo hi rs) {f : ρ → List ρ}
    (hf : ∀ r ∈ rs, Separated lo hi (f r)) (hin : ∀ r ∈ rs, ∀ p ∈ f r, lo r ≤ lo p ∧ hi p ≤ hi r) :
    Separated lo hi (rs.flatMap f) := by
  induction rs with
  | nil => exact separated_nil
  | cons r rs ih =>
    have htail : Separated lo hi (rs.flatMap f) := by
      apply ih h.tail
      · exact fun p hp => hf p (List.mem_cons_of_mem r hp)
      · exact fun p hp => hin p (List.mem_cons_of_mem r hp)
    rw [List.flatMap_cons]
    apply (hf r List.mem_cons_self).append htail
    intro p hp q hq
    obtain ⟨r', hr', hq⟩ := List.mem_flatMap.mp hq
    calc
      hi p ≤ hi r := (hin r List.mem_cons_self p hp).2
      _ < lo r' := h.head_lt hr'
      _ ≤ lo q := (hin r' (List.mem_cons_of_mem r hr') q hq).1

/-- An interval that separated spans cover lies within one of them: a second one would leave the
end of the first uncovered. -/
theorem Separated.within_one {rs : List ρ} (h : Separated lo hi rs) {a b : τ} (hab : a < b) :
    (∃ r ∈ rs, lo r ≤ a ∧ b ≤ hi r) ↔ Set.Ico a b ⊆ covered lo hi rs := by
  constructor
  · rintro ⟨r, hr, hlo, hhi⟩ t ht
    exact ⟨r, hr, hlo.trans ht.1, ht.2.trans_le hhi⟩
  · intro hcover
    obtain ⟨r, hr, hlo, hlt⟩ := hcover ⟨le_rfl, hab⟩
    refine ⟨r, hr, hlo, ?_⟩
    by_contra hshort
    obtain ⟨p, hp, hplo, hphi⟩ := hcover ⟨hlt.le, not_le.mp hshort⟩
    have hne : r ≠ p := by
      rintro rfl
      exact lt_irrefl _ hphi
    rcases h.ordered hr hp hne with hbefore | hbefore
    · exact absurd hplo (not_le.mpr hbefore)
    · exact absurd (hphi.trans hbefore) (not_lt.mpr (h.nonempty r hr).le)

/-- Spans that cover nothing outside an interval lie inside it. -/
theorem Separated.inside {rs : List ρ} (h : Separated lo hi rs) {a b : τ}
    (hin : covered lo hi rs ⊆ Set.Ico a b) {r : ρ} (hr : r ∈ rs) : a ≤ lo r ∧ hi r ≤ b := by
  have hlo := hin ⟨r, hr, le_rfl, h.nonempty r hr⟩
  refine ⟨hlo.1, ?_⟩
  by_contra hlong
  have hb := hin ⟨r, hr, hlo.2.le, not_le.mp hlong⟩
  exact lt_irrefl b hb.2

/-- Restricting every span to a set restricts what the list covers. -/
theorem Separated.restrict {rs : List ρ} (h : Separated lo hi rs) {f : ρ → List ρ} {keep : Set τ}
    (hf : ∀ r ∈ rs, Separated lo hi (f r) ∧ covered lo hi (f r) = covered lo hi [r] ∩ keep) :
    Separated lo hi (rs.flatMap f) ∧ covered lo hi (rs.flatMap f) = covered lo hi rs ∩ keep := by
  have hpieces : ∀ r ∈ rs, ∀ t, t ∈ covered lo hi (f r) ↔ (lo r ≤ t ∧ t < hi r) ∧ t ∈ keep := by
    intro r hr t
    rw [(hf r hr).2]
    simp [mem_covered]
  constructor
  · apply h.flatMap fun r hr => (hf r hr).1
    intro r hr p hp
    exact (hf r hr).1.inside (fun t ht => ((hpieces r hr t).mp ht).1) hp
  · ext t
    rw [covered_flatMap]
    constructor
    · rintro ⟨r, hr, ht⟩
      obtain ⟨hin, hkeep⟩ := (hpieces r hr t).mp ht
      exact ⟨⟨r, hr, hin⟩, hkeep⟩
    · rintro ⟨⟨r, hr, hin⟩, hkeep⟩
      exact ⟨r, hr, (hpieces r hr t).mpr ⟨hin, hkeep⟩⟩

/-- Separated spans inside an interval that one of them fills are that one span. -/
theorem Separated.eq_singleton {rs : List ρ} (h : Separated lo hi rs) {a b : τ}
    (hin : ∀ r ∈ rs, a ≤ lo r ∧ hi r ≤ b) {r : ρ} (hr : r ∈ rs) (hlo : lo r ≤ a) (hhi : b ≤ hi r) :
    rs = [r] := by
  have honly : ∀ p ∈ rs, p = r := by
    intro p hp
    by_contra hne
    obtain ⟨hplo, hphi⟩ := hin p hp
    have hnonempty := h.nonempty p hp
    rcases h.ordered hp hr hne with hbefore | hbefore
    · exact absurd (hplo.trans hnonempty.le) (not_le.mpr (hbefore.trans_le hlo))
    · exact absurd (hnonempty.le.trans hphi) (not_le.mpr (hhi.trans_lt hbefore))
  cases rs with
  | nil => cases hr
  | cons p ps =>
    have hp := honly p List.mem_cons_self
    cases ps with
    | nil => rw [hp]
    | cons q qs =>
      have hq := honly q (List.mem_cons_of_mem p List.mem_cons_self)
      have hlt := h.head_lt (p := q) List.mem_cons_self
      rw [hp, hq] at hlt
      exact absurd hlt (not_lt.mpr (h.nonempty r hr).le)

end Spans

end ChainVerse
