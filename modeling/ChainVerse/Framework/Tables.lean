import Mathlib.Algebra.BigOperators.Group.Finset.Basic
import Mathlib.Algebra.BigOperators.Group.Finset.Piecewise
import Mathlib.Algebra.Order.BigOperators.Group.Finset
import Mathlib.Algebra.Order.BigOperators.Group.List
import Mathlib.Algebra.Order.Ring.Int
import Mathlib.Data.Set.Card

namespace ChainVerse

/-! Totals over the rows of a table, and how one write moves them. -/

section Tables

variable {K V M : Type} [DecidableEq K] [AddCommGroup M]

/-- Writing one row moves a total by the new row's weight less the old one's. -/
theorem sum_update_row (rows : Finset K) (weight : K → V → M) (table : K → V) {k : K}
    (hk : k ∈ rows) (v : V) :
    ∑ x ∈ rows, weight x (Function.update table k v x) =
      ∑ x ∈ rows, weight x (table x) - weight k (table k) + weight k v := by
  have hrest : ∑ x ∈ rows.erase k, weight x (Function.update table k v x) =
      ∑ x ∈ rows.erase k, weight x (table x) := by
    refine Finset.sum_congr rfl fun x hx => ?_
    rw [Function.update_of_ne (Finset.ne_of_mem_erase hx)]
  rw [← Finset.sum_erase_add rows _ hk, ← Finset.sum_erase_add rows (fun x => weight x (table x)) hk,
    hrest, Function.update_self, add_sub_cancel_right]

/-- Writing a row outside the summed ones leaves the total. -/
theorem sum_update_row_of_notMem (rows : Finset K) (weight : K → V → M) (table : K → V) {k : K}
    (hk : k ∉ rows) (v : V) :
    ∑ x ∈ rows, weight x (Function.update table k v x) = ∑ x ∈ rows, weight x (table x) := by
  refine Finset.sum_congr rfl fun x hx => ?_
  rw [Function.update_of_ne (by rintro rfl; exact hk hx)]

end Tables

section Rows

variable {K V : Type} [DecidableEq K] {p : K → V → Prop} {table written : K → Option V}

/-- A row of a table that has been written to is the one written or stood there before. -/
theorem update_row_cases {k x : K} {v row : V}
    (h : Function.update table k (some v) x = some row) :
    x = k ∧ v = row ∨ x ≠ k ∧ table x = some row := by
  by_cases hx : x = k
  · rw [hx, Function.update_self, Option.some.injEq] at h
    exact .inl ⟨hx, h⟩
  · rw [Function.update_of_ne hx] at h
    exact .inr ⟨hx, h⟩

/-- Which keys have a row with a property, after a write. -/
theorem exists_update_row {q : V → Prop} {k x : K} {v : V} :
    (∃ row, Function.update table k (some v) x = some row ∧ q row) ↔
      x = k ∧ q v ∨ x ≠ k ∧ ∃ row, table x = some row ∧ q row := by
  by_cases hx : x = k
  · simp [hx]
  · simp [hx]

/-- What holds of every row holds after a write of a row of which it holds. -/
theorem forall_update_row {k : K} {v : V} (h : ∀ x row, table x = some row → p x row)
    (hwritten : written = Function.update table k (some v)) (hv : p k v) :
    ∀ x row, written x = some row → p x row := by
  intro x row hrow
  rw [hwritten] at hrow
  rcases update_row_cases hrow with ⟨rfl, rfl⟩ | ⟨_, hold⟩
  · exact hv
  · exact h x row hold

/-- A write keeps every row but the one that stood in its place. -/
theorem update_keeps_of_ne {k x : K} {v : Option V} {row : V} (hk : table k ≠ some row)
    (hrow : table x = some row) : Function.update table k v x = some row := by
  have hx : x ≠ k := by
    intro hx
    rw [← hx] at hk
    exact hk hrow
  rwa [Function.update_of_ne hx]

/-- A write where no row stood keeps every row. -/
theorem update_keeps_row {k x : K} {v row : V} (habsent : table k = none)
    (hrow : table x = some row) : Function.update table k (some v) x = some row := by
  apply update_keeps_of_ne _ hrow
  rw [habsent]
  exact (Option.some_ne_none row).symm

/-- A write over a row without a property keeps the rows that have it. -/
theorem update_keeps_unless {q : V → Prop} {k x : K} {v stored row : V}
    (hstored : table k = some stored) (hnot : ¬ q stored) (hrow : table x = some row)
    (hq : q row) : Function.update table k (some v) x = some row := by
  apply update_keeps_of_ne _ hrow
  intro hsame
  rw [hstored, Option.some.injEq] at hsame
  exact hnot (hsame ▸ hq)

end Rows

section Pairs

variable {A B V : Type} [DecidableEq A] [DecidableEq B] (table : A × B → V) (a : A) (b : B) (v : V)

/-- One line of a table by pairs, after a write to it. -/
theorem update_line :
    (fun y => Function.update table (a, b) v (a, y)) =
      Function.update (fun y => table (a, y)) b v := by
  funext y
  by_cases hy : y = b
  · rw [hy, Function.update_self, Function.update_self]
  · rw [Function.update_of_ne hy, Function.update_of_ne]
    exact fun heq => hy (congrArg Prod.snd heq)

/-- A write to one line leaves the others. -/
theorem update_other_line {x : A} (hx : x ≠ a) (y : B) :
    Function.update table (a, b) v (x, y) = table (x, y) := by
  apply Function.update_of_ne
  exact fun heq => hx (congrArg Prod.fst heq)

/-- One column of a table by pairs, after a write to it. -/
theorem update_column :
    (fun x => Function.update table (a, b) v (x, b)) =
      Function.update (fun x => table (x, b)) a v := by
  funext x
  by_cases hx : x = a
  · rw [hx, Function.update_self, Function.update_self]
  · rw [Function.update_of_ne hx, Function.update_of_ne]
    exact fun heq => hx (congrArg Prod.fst heq)

/-- A write to one column leaves the others. -/
theorem update_other_column {y : B} (hy : y ≠ b) (x : A) :
    Function.update table (a, b) v (x, y) = table (x, y) := by
  apply Function.update_of_ne
  exact fun heq => hy (congrArg Prod.snd heq)

end Pairs

section Counting

variable {K V : Type} [DecidableEq K] {p : V → Prop} {table : K → V}

theorem finite_update_row (h : {x | p (table x)}.Finite) (k : K) (v : V) :
    {x | p (Function.update table k v x)}.Finite := by
  apply (h.insert k).subset
  intro x hx
  rcases eq_or_ne x k with rfl | hne
  · exact Set.mem_insert x _
  · rw [Set.mem_ofPred_eq, Function.update_of_ne hne] at hx
    exact Set.mem_insert_of_mem k hx

theorem finite_update_column {A B : Type} [DecidableEq A] [DecidableEq B] {table : A × B → V} {y : B}
    (h : {x | p (table (x, y))}.Finite) (a : A) (b : B) (v : V) :
    {x | p (Function.update table (a, b) v (x, y))}.Finite := by
  by_cases hy : y = b
  · subst hy
    have hcolumn := update_column table a y v
    have hrow := finite_update_row h a v
    simpa only [← hcolumn] using hrow
  · simpa only [update_other_column table a b v hy] using h

/-- Writing one row moves the number of rows with a property by that row alone. -/
theorem ncard_update_row [DecidablePred p] (h : {x | p (table x)}.Finite) (k : K) (v : V) :
    {x | p (Function.update table k v x)}.ncard + (if p (table k) then 1 else 0) =
      {x | p (table x)}.ncard + (if p v then 1 else 0) := by
  have hsplit : ∀ (t : K → V), {x | p (t x)}.Finite →
      {x | p (t x)}.ncard = ({x | p (t x)} \ {k}).ncard + (if p (t k) then 1 else 0) := by
    intro t ht
    split_ifs with hk
    · have hin : k ∈ {x | p (t x)} := hk
      exact (Set.ncard_sdiff_singleton_add_one hin ht).symm
    · have hout : k ∉ {x | p (t x)} := hk
      rw [Set.sdiff_singleton_eq_self hout, Nat.add_zero]
  have hrest : {x | p (Function.update table k v x)} \ {k} = {x | p (table x)} \ {k} := by
    ext x
    simp only [Set.mem_sdiff, Set.mem_ofPred_eq, Set.mem_singleton_iff]
    refine and_congr_left fun hne => ?_
    rw [Function.update_of_ne hne]
  rw [hsplit table h, hsplit _ (finite_update_row h k v), hrest, Function.update_self]
  omega

/-- Writing one row of a table by pairs moves the number of rows with a property on its line alone. -/
theorem ncard_update_line {A B : Type} [DecidableEq A] [DecidableEq B] [DecidablePred p]
    {table : A × B → V} {x : A} (h : {y | p (table (x, y))}.Finite) (a : A) (b : B) (v : V) :
    {y | p (Function.update table (a, b) v (x, y))}.ncard +
        (if x = a ∧ p (table (a, b)) then 1 else 0) =
      {y | p (table (x, y))}.ncard + (if x = a ∧ p v then 1 else 0) := by
  by_cases hx : x = a
  · subst hx
    have hline := update_line table x b v
    have hrow := ncard_update_row h b v
    simp only [← hline] at hrow
    simpa only [true_and] using hrow
  · simp only [update_other_line table a b v hx, hx, false_and, if_false]

/-- The same of a column. -/
theorem ncard_update_column {A B : Type} [DecidableEq A] [DecidableEq B] [DecidablePred p]
    {table : A × B → V} {y : B} (h : {x | p (table (x, y))}.Finite) (a : A) (b : B) (v : V) :
    {x | p (Function.update table (a, b) v (x, y))}.ncard +
        (if y = b ∧ p (table (a, b)) then 1 else 0) =
      {x | p (table (x, y))}.ncard + (if y = b ∧ p v then 1 else 0) := by
  by_cases hy : y = b
  · subst hy
    have hcolumn := update_column table a y v
    have hrow := ncard_update_row h a v
    simp only [← hcolumn] at hrow
    simpa only [true_and] using hrow
  · simp only [update_other_column table a b v hy, hy, false_and, if_false]

end Counting

/-- Non-negative numbers add up to zero only when all are zero. -/
theorem sum_eq_zero_of_nonneg {l : List Int} (h : ∀ x ∈ l, 0 ≤ x) :
    l.sum = 0 ↔ ∀ x ∈ l, x = 0 := by
  constructor
  · intro hs x hx
    have hle := List.single_le_sum h x hx
    have := h x hx
    omega
  · exact List.sum_eq_zero

end ChainVerse
