import ChainVerse.Framework.Selection
import Mathlib.Data.List.Induction
import Mathlib.Data.List.Sort

namespace ChainVerse

/-! Insertion sort in place, by a comparison: each row in turn sinks past the rows before it that do not
come before it. Two orders begin a list alike when they agree on what comes before its first rows. -/

section Insertion

variable {ρ τ : Type} (before : ρ → ρ → Bool)

/-- The inner loop: the row at position `j` sinks. -/
def sinkRow (rows : List ρ) : Nat → List ρ
  | 0 => rows
  | j + 1 =>
    match rows[j]?, rows[j + 1]? with
    | some left, some right =>
      if before left right then rows else sinkRow (swapRows rows j (j + 1)) j
    | _, _ => sinkRow rows j

def insertionSort (rows : List ρ) : List ρ :=
  (List.range' 1 (rows.length - 1)).foldl (sinkRow before) rows

variable {before} [LinearOrder τ] {key : ρ → τ} {rows : List ρ} {i j : Nat}

/-- The rows up to `i` are in order, but that the row at `j` may have to come earlier. -/
def SortedBut (key : ρ → τ) (rows : List ρ) (i j : Nat) : Prop :=
  ∀ a b x y, a < b → b ≤ i → b ≠ j → rows[a]? = some x → rows[b]? = some y → key x ≤ key y

theorem SortedBut.swap {left right : ρ} (h : SortedBut key rows i (j + 1)) (hj : j + 1 ≤ i)
    (hleft : rows[j]? = some left) (hright : rows[j + 1]? = some right)
    (hmoves : key right ≤ key left) : SortedBut key (swapRows rows j (j + 1)) i j := by
  intro a b x y hab hb hne hx hy
  rcases getElem?_swapRows hleft hright hy with ⟨rfl, rfl⟩ | ⟨rfl, _⟩ | ⟨_, hb', hykept⟩
  · rcases getElem?_swapRows hleft hright hx with ⟨rfl, _⟩ | ⟨_, rfl⟩ | ⟨ha, _, hxkept⟩
    · exact absurd hab (Nat.lt_irrefl _)
    · exact hmoves
    · exact h a j x y (by omega) (by omega) (by omega) hxkept hleft
  · exact absurd rfl hne
  · rcases getElem?_swapRows hleft hright hx with ⟨ha, rfl⟩ | ⟨ha, rfl⟩ | ⟨_, _, hxkept⟩
    · exact h j b x y (by omega) hb hb' hleft hykept
    · exact h (j + 1) b x y (by omega) hb hb' hright hykept
    · exact h a b x y hab hb hb' hxkept hykept

/-- A row that has sunk to its place is in order with all the rows up to `i`. -/
theorem SortedBut.settle {left right : ρ} (h : SortedBut key rows i (j + 1))
    (hleft : rows[j]? = some left) (hright : rows[j + 1]? = some right)
    (hstays : key left ≤ key right) (hj : j + 1 ≤ i) : SortedBut key rows i 0 := by
  intro a b x y hab hb _ hx hy
  by_cases hne : b = j + 1
  · subst hne
    rw [hright, Option.some.injEq] at hy
    subst hy
    rcases Nat.lt_succ_iff_lt_or_eq.mp hab with hlt | rfl
    · exact (h a j x left hlt (by omega) (by omega) hx hleft).trans hstays
    · rw [hleft, Option.some.injEq] at hx
      rw [← hx]
      exact hstays
  · exact h a b x y hab hb hne hx hy

theorem sinkRow_perm (rows : List ρ) (j : Nat) : (sinkRow before rows j).Perm rows := by
  induction j generalizing rows with
  | zero => exact List.Perm.refl rows
  | succ j ih =>
    unfold sinkRow
    split
    · split_ifs
      · exact List.Perm.refl rows
      · exact (ih _).trans (swapRows_perm rows j (j + 1))
    · exact ih rows

theorem sinkRow_sorted (hbefore : ∀ x y, before x y = true ↔ key x < key y)
    (h : SortedBut key rows i j) (hj : j ≤ i) (hi : i < rows.length) :
    SortedBut key (sinkRow before rows j) i 0 := by
  induction j generalizing rows with
  | zero => exact h
  | succ j ih =>
    have hleft := List.getElem?_eq_getElem (l := rows) (i := j) (by omega)
    have hright := List.getElem?_eq_getElem (l := rows) (i := j + 1) (by omega)
    unfold sinkRow
    simp only [hleft, hright, hbefore]
    split_ifs with hcomes
    · exact h.settle hleft hright hcomes.le hj
    · apply ih (h.swap hj hleft hright (not_lt.mp hcomes)) (by omega)
      rw [(swapRows_perm rows j (j + 1)).length_eq]
      exact hi

theorem foldl_sinkRow (hbefore : ∀ x y, before x y = true ↔ key x < key y) (n : Nat)
    (hn : n < rows.length) :
    SortedBut key ((List.range' 1 n).foldl (sinkRow before) rows) n 0 ∧
      ((List.range' 1 n).foldl (sinkRow before) rows).Perm rows := by
  induction n with
  | zero =>
    refine ⟨?_, List.Perm.refl rows⟩
    intro a b x y hab hb
    omega
  | succ n ih =>
    obtain ⟨hsorted, hperm⟩ := ih (by omega)
    rw [List.range'_concat, List.foldl_append, Nat.one_mul, Nat.add_comm 1 n]
    refine ⟨?_, (sinkRow_perm _ _).trans hperm⟩
    apply sinkRow_sorted hbefore _ le_rfl
    · rw [hperm.length_eq]
      exact hn
    · intro a b x y hab hb hne hx hy
      exact hsorted a b x y hab (by omega) (by omega) hx hy

theorem insertionSort_perm (before : ρ → ρ → Bool) (rows : List ρ) :
    (insertionSort before rows).Perm rows := by
  unfold insertionSort
  induction List.range' 1 (rows.length - 1) using List.reverseRecOn with
  | nil => exact List.Perm.refl rows
  | append_singleton is i ih =>
    rw [List.foldl_append]
    exact (sinkRow_perm _ i).trans ih

theorem insertionSort_sorted (hbefore : ∀ x y, before x y = true ↔ key x < key y) (rows : List ρ) :
    (insertionSort before rows).Pairwise fun x y => key x ≤ key y := by
  rcases Nat.eq_zero_or_pos rows.length with hnone | hsome
  · rw [List.length_eq_zero_iff] at hnone
    rw [hnone]
    exact List.Pairwise.nil
  · have hsorted := (foldl_sinkRow hbefore (rows.length - 1) (Nat.sub_one_lt_of_lt hsome)).1
    have hlength := (insertionSort_perm before rows).length_eq
    rw [List.pairwise_iff_getElem]
    intro a b ha hb hab
    have hupto : b ≤ rows.length - 1 := by
      rw [hlength] at hb
      omega
    have hlater : b ≠ 0 := by omega
    exact hsorted a b _ _ hab hupto hlater (List.getElem?_eq_getElem ha) (List.getElem?_eq_getElem hb)

end Insertion

section Prefixes

variable {ρ : Type} {r₁ r₂ : ρ → ρ → Prop} {xs ys : List ρ} {a : ρ}

/-- A row of a list in order is among the first ones exactly when few others come before it. -/
theorem mem_take_iff_countP [DecidableRel r₁] (hasymm : ∀ x y, r₁ x y → ¬ r₁ y x)
    (h : xs.Pairwise r₁) (ha : a ∈ xs) (n : Nat) :
    a ∈ xs.take n ↔ xs.countP (fun x => r₁ x a) < n := by
  obtain ⟨earlier, later, rfl⟩ := List.append_of_mem ha
  obtain ⟨_, hrest, hearlier⟩ := List.pairwise_append.mp h
  have hself : ¬ r₁ a a := fun hself => hasymm a a hself hself
  have hcount : (earlier ++ a :: later).countP (fun x => r₁ x a) = earlier.length := by
    have hall : earlier.countP (fun x => r₁ x a) = earlier.length := by
      rw [List.countP_eq_length]
      intro x hx
      exact decide_eq_true (hearlier x hx a List.mem_cons_self)
    have hnone : later.countP (fun x => r₁ x a) = 0 := by
      rw [List.countP_eq_zero]
      intro x hx
      simpa using hasymm a x ((List.pairwise_cons.mp hrest).1 x hx)
    rw [List.countP_append, List.countP_cons, hall, hnone]
    simp [hself]
  rw [hcount]
  constructor
  · intro hmem
    by_contra hge
    rw [List.take_append_of_le_length (not_lt.mp hge)] at hmem
    exact hself (hearlier a (List.mem_of_mem_take hmem) a List.mem_cons_self)
  · intro hlt
    rw [List.take_append, List.take_of_length_le hlt.le, List.mem_append]
    right
    rw [List.take_cons (by omega)]
    exact List.mem_cons_self

/-- Rows in order with one relation after others that all come before the rest in another one. -/
theorem eq_append_filter (hasymm₁ : ∀ x y, r₁ x y → ¬ r₁ y x) (hasymm₂ : ∀ x y, r₂ x y → ¬ r₂ y x)
    [DecidableEq ρ] {first rest : List ρ} (h₁ : (first ++ rest).Pairwise r₁) (h₂ : ys.Pairwise r₂)
    (hperm : (first ++ rest).Perm ys) (hagree : ∀ x ∈ first, ∀ y ∈ first ++ rest, r₁ x y → r₂ x y) :
    ys = first ++ ys.filter (· ∉ first) := by
  obtain ⟨hfirst, _, hacross⟩ := List.pairwise_append.mp h₁
  have hapart : ∀ y ∈ rest, y ∉ first := by
    intro y hy hy'
    exact hasymm₁ y y (hacross y hy' y hy) (hacross y hy' y hy)
  have hsplit : (first ++ ys.filter (· ∉ first)).Perm ys := by
    have hkept : ((first ++ rest).filter (· ∈ first)) = first := by
      rw [List.filter_append, List.filter_eq_self.mpr (by simp), List.filter_eq_nil_iff.mpr (by simpa
        using hapart), List.append_nil]
    have hsame := hperm.filter (· ∈ first)
    rw [hkept] at hsame
    simpa using (hsame.append_right _).trans (List.filter_append_perm (· ∈ first) ys)
  refine (List.Perm.eq_of_pairwise ?_ ?_ h₂ hsplit).symm
  · intro x y _ _ hxy hyx
    exact absurd hyx (hasymm₂ x y hxy)
  · refine List.pairwise_append.mpr ⟨?_, h₂.filter _, ?_⟩
    · refine hfirst.imp_of_mem fun hx hy hxy => ?_
      exact hagree _ hx _ (List.mem_append_left _ hy) hxy
    · intro x hx y hy
      obtain ⟨hy, hnew⟩ := List.mem_filter.mp hy
      have hmem := hperm.mem_iff.mpr hy
      rcases List.mem_append.mp hmem with hy' | hy'
      · exact absurd hy' (of_decide_eq_true hnew)
      · exact hagree x hx y hmem (hacross x hx y hy')

/-- Two orders of the same rows begin alike exactly when the first rows of the one come before the
others in both. -/
theorem take_eq_take_iff (hasymm₁ : ∀ x y, r₁ x y → ¬ r₁ y x) (hasymm₂ : ∀ x y, r₂ x y → ¬ r₂ y x)
    (h₁ : xs.Pairwise r₁) (h₂ : ys.Pairwise r₂) (hperm : xs.Perm ys) (n : Nat) :
    xs.take n = ys.take n ↔ ∀ x ∈ xs.take n, ∀ y ∈ xs, r₁ x y → r₂ x y := by
  classical
  constructor
  · intro hsame x hx y hy hxy
    rw [← List.take_append_drop n ys] at hperm h₂
    obtain ⟨hfirst, _, hacross⟩ := List.pairwise_append.mp h₂
    rw [hsame] at hx
    rcases List.mem_append.mp (hperm.mem_iff.mp hy) with hy | hy
    · -- Among the first rows both orders are that of the list.
      have hlisted : (ys.take n).Pairwise r₁ := hsame ▸ h₁.sublist (List.take_sublist n xs)
      refine List.Pairwise.forall_of_forall_of_flip (R := fun x y => r₁ x y → r₂ x y) ?_ ?_ ?_ hx hy hxy
      · intro x _ hself
        exact absurd hself (hasymm₁ x x hself)
      · exact hfirst.imp fun {x y} hxy (_ : r₁ x y) => hxy
      · exact hlisted.imp fun {x y} hxy hyx => absurd hyx (hasymm₁ x y hxy)
    · exact hacross x hx y hy
  · intro hagree
    rw [← List.take_append_drop n xs] at h₁ hperm
    have hys := eq_append_filter hasymm₁ hasymm₂ h₁ h₂ hperm (by
      simpa only [List.take_append_drop] using hagree)
    -- What follows the first rows begins after position `n`, or there are no more rows.
    have hnone : (ys.filter (· ∉ xs.take n)).take (n - (xs.take n).length) = [] := by
      rw [List.length_take]
      rcases le_total n xs.length with hle | hge
      · rw [Nat.min_eq_left hle, Nat.sub_self, List.take_zero]
      · have hall : ys.filter (· ∉ xs.take n) = [] := by
          rw [List.filter_eq_nil_iff]
          intro y hy
          rw [← hperm.mem_iff, List.take_append_drop] at hy
          simpa [List.take_of_length_le hge] using hy
        rw [hall, List.take_nil]
    rw [hys, List.take_append, List.take_take, Nat.min_self, hnone, List.append_nil]

end Prefixes

end ChainVerse
