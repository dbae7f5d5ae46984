import Mathlib.Data.List.Perm.Basic
import Mathlib.Order.Lattice

namespace ChainVerse

/-! Selection sort in place, by a key: each position in turn is swapped with the first least one from
there on. -/

section Selection

variable {ρ τ : Type} [LinearOrder τ] (key : ρ → τ)

/-- One look of the inner loop: the position and the value of the least row so far. -/
def scanLeast (rows : List ρ) (best : Nat × ρ) (j : Nat) : Nat × ρ :=
  match rows[j]? with
  | some row => if key row < key best.2 then (j, row) else best
  | none => best

/-- Two positions change places, if there are both. -/
def swapRows (rows : List ρ) (i j : Nat) : List ρ :=
  match rows[i]?, rows[j]? with
  | some left, some right => (rows.set i right).set j left
  | _, _ => rows

/-- One pass of the outer loop. -/
def selectLeast (rows : List ρ) (i : Nat) : List ρ :=
  match rows[i]? with
  | none => rows
  | some row =>
    let least := (List.range' (i + 1) (rows.length - (i + 1))).foldl (scanLeast key rows) (i, row)
    if least.1 ≠ i then swapRows rows i least.1 else rows

def selectionSort (rows : List ρ) : List ρ := (List.range rows.length).foldl (selectLeast key) rows

variable {key} {rows : List ρ} {i j bound : Nat}

/-- What the inner loop has found among the positions from `i` on and below `bound`. -/
structure LeastUpto (key : ρ → τ) (rows : List ρ) (i : Nat) (row : ρ) (bound : Nat)
    (best : Nat × ρ) : Prop where
  found : rows[best.1]? = some best.2
  from_start : i ≤ best.1
  least : ∀ j x, i ≤ j → j < bound → rows[j]? = some x → key best.2 ≤ key x
  first : best.1 = i ∨ key best.2 < key row

theorem leastUpto_first {row : ρ} (h : rows[i]? = some row) :
    LeastUpto key rows i row (i + 1) (i, row) where
  found := h
  from_start := Nat.le_refl i
  least j x hij hj hx := by
    obtain rfl : j = i := by omega
    rw [h] at hx
    cases hx
    exact le_rfl
  first := .inl rfl

theorem LeastUpto.scan {row : ρ} {best : Nat × ρ} (h : LeastUpto key rows i row bound best)
    (hrow : rows[i]? = some row) (hbound : i < bound) :
    LeastUpto key rows i row (bound + 1) (scanLeast key rows best bound) := by
  have hrest : ∀ j x, i ≤ j → j < bound + 1 → rows[j]? = some x → j ≠ bound → key best.2 ≤ key x :=
    fun j x hij hj hx hne => h.least j x hij (by omega) hx
  have hbelow : key best.2 ≤ key row := h.least i row (Nat.le_refl i) hbound hrow
  unfold scanLeast
  split
  · next x hx =>
    split_ifs with hlt
    · refine ⟨hx, hbound.le, fun j y hij hj hy => ?_, .inr (hlt.trans_le hbelow)⟩
      rcases eq_or_ne j bound with rfl | hne
      · rw [hx] at hy
        cases hy
        exact le_rfl
      · exact hlt.le.trans (hrest j y hij hj hy hne)
    · refine ⟨h.found, h.from_start, fun j y hij hj hy => ?_, h.first⟩
      rcases eq_or_ne j bound with rfl | hne
      · rw [hx] at hy
        cases hy
        exact not_lt.mp hlt
      · exact hrest j y hij hj hy hne
  · next hnone =>
    refine ⟨h.found, h.from_start, fun j y hij hj hy => ?_, h.first⟩
    rcases eq_or_ne j bound with rfl | hne
    · rw [hnone] at hy
      cases hy
    · exact hrest j y hij hj hy hne

theorem scan_spec (key : ρ → τ) {row : ρ} (hrow : rows[i]? = some row) (n : Nat) :
    LeastUpto key rows i row (i + 1 + n)
      ((List.range' (i + 1) n).foldl (scanLeast key rows) (i, row)) := by
  induction n with
  | zero => exact leastUpto_first hrow
  | succ n ih =>
    rw [List.range'_concat, List.foldl_append, Nat.one_mul]
    exact ih.scan hrow (by omega)

theorem swapRows_perm (rows : List ρ) (i j : Nat) : (swapRows rows i j).Perm rows := by
  unfold swapRows
  split
  · next left right hleft hright =>
    obtain ⟨hi, rfl⟩ := List.getElem?_eq_some_iff.mp hleft
    obtain ⟨hj, rfl⟩ := List.getElem?_eq_some_iff.mp hright
    exact List.set_set_perm hi hj
  · exact List.Perm.refl rows

theorem swapRows_eq {left right : ρ} (hleft : rows[i]? = some left) (hright : rows[j]? = some right) :
    swapRows rows i j = (rows.set i right).set j left := by
  unfold swapRows
  rw [hleft, hright]

/-- After a swap the two positions have what the other one had, and the others what they had. -/
theorem getElem?_swapRows {left right x : ρ} {k : Nat} (hleft : rows[i]? = some left)
    (hright : rows[j]? = some right) (h : (swapRows rows i j)[k]? = some x) :
    k = j ∧ x = left ∨ k = i ∧ x = right ∨ k ≠ i ∧ k ≠ j ∧ rows[k]? = some x := by
  rw [swapRows_eq hleft hright, List.getElem?_set, List.getElem?_set] at h
  split_ifs at h with hj _ hi _
  · exact .inl ⟨hj.symm, (Option.some.inj h).symm⟩
  · exact .inr (.inl ⟨hi.symm, (Option.some.inj h).symm⟩)
  · exact .inr (.inr ⟨fun hk => hi hk.symm, fun hk => hj hk.symm, h⟩)

/-- The rows before `i` are in order, and none of the others is less than they. -/
def SortedUpto (key : ρ → τ) (rows : List ρ) (i : Nat) : Prop :=
  ∀ a b x y, a < i → a < b → rows[a]? = some x → rows[b]? = some y → key x ≤ key y

/-- A pass puts a least one of the rows from `i` on into position `i`. -/
theorem selectLeast_sorted (h : SortedUpto key rows i) :
    SortedUpto key (selectLeast key rows i) (i + 1) := by
  unfold selectLeast
  split
  · next hnone =>
    intro a b x y _ hab hx hy
    have hlt : a < i := by
      have hlength := List.getElem?_eq_none_iff.mp hnone
      have hfound := (List.getElem?_eq_some_iff.mp hx).1
      omega
    exact h a b x y hlt hab hx hy
  · next row hrow =>
    have hscan := scan_spec key hrow (rows.length - (i + 1))
    rw [Nat.add_sub_cancel' (List.getElem?_eq_some_iff.mp hrow).1] at hscan
    simp only
    generalize (List.range' (i + 1) (rows.length - (i + 1))).foldl (scanLeast key rows) (i, row) = best
      at hscan ⊢
    obtain ⟨least, leastRow⟩ := best
    have hfound : rows[least]? = some leastRow := hscan.found
    have hstart : i ≤ least := hscan.from_start
    have hleast : ∀ k x, i ≤ k → rows[k]? = some x → key leastRow ≤ key x :=
      fun k x hk hx => hscan.least k x hk (List.getElem?_eq_some_iff.mp hx).1 hx
    split_ifs with hmoved
    · intro a b x y ha hab hx hy
      rcases Nat.lt_succ_iff_lt_or_eq.mp ha with hlt | rfl
      · have hkept : rows[a]? = some x := by
          rcases getElem?_swapRows hrow hfound hx with ⟨rfl, _⟩ | ⟨rfl, _⟩ | ⟨_, _, hsame⟩
          · omega
          · omega
          · exact hsame
        rcases getElem?_swapRows hrow hfound hy with ⟨_, rfl⟩ | ⟨_, rfl⟩ | ⟨_, _, hsame⟩
        · exact h a i x y hlt hlt hkept hrow
        · exact h a least x y hlt (hlt.trans_le hstart) hkept hfound
        · exact h a b x y hlt hab hkept hsame
      · have hput : x = leastRow := by
          rcases getElem?_swapRows hrow hfound hx with ⟨rfl, _⟩ | ⟨_, hput⟩ | ⟨hne, _⟩
          · exact absurd rfl hmoved
          · exact hput
          · exact absurd rfl hne
        rw [hput]
        rcases getElem?_swapRows hrow hfound hy with ⟨_, rfl⟩ | ⟨rfl, _⟩ | ⟨_, _, hsame⟩
        · exact hleast a y (Nat.le_refl a) hrow
        · exact absurd hab (Nat.lt_irrefl b)
        · exact hleast b y hab.le hsame
    · obtain rfl : least = i := not_not.mp hmoved
      intro a b x y ha hab hx hy
      rcases Nat.lt_succ_iff_lt_or_eq.mp ha with hlt | rfl
      · exact h a b x y hlt hab hx hy
      · rw [hfound] at hx
        cases hx
        exact hleast b y hab.le hy

theorem selectLeast_perm (rows : List ρ) (i : Nat) : (selectLeast key rows i).Perm rows := by
  unfold selectLeast
  split
  · exact List.Perm.refl rows
  · simp only
    split_ifs
    · exact swapRows_perm rows i _
    · exact List.Perm.refl rows

/-- The passes up to a position sort the rows up to it. -/
theorem foldl_selectLeast (key : ρ → τ) (rows : List ρ) (n : Nat) :
    SortedUpto key ((List.range n).foldl (selectLeast key) rows) n ∧
      ((List.range n).foldl (selectLeast key) rows).Perm rows := by
  induction n with
  | zero => exact ⟨fun a _ _ _ ha => absurd ha (Nat.not_lt_zero a), List.Perm.refl rows⟩
  | succ n ih =>
    obtain ⟨hsorted, hperm⟩ := ih
    rw [List.range_succ, List.foldl_append]
    exact ⟨selectLeast_sorted hsorted, (selectLeast_perm _ n).trans hperm⟩

theorem selectionSort_perm (key : ρ → τ) (rows : List ρ) : (selectionSort key rows).Perm rows :=
  (foldl_selectLeast key rows rows.length).2

theorem selectionSort_sorted (rows : List ρ) :
    (selectionSort key rows).Pairwise fun x y => key x ≤ key y := by
  have hsorted := (foldl_selectLeast key rows rows.length).1
  have hlength := (selectionSort_perm key rows).length_eq
  rw [List.pairwise_iff_getElem]
  intro a b ha hb hab
  have hbelow : a < rows.length := by omega
  exact hsorted a b _ _ hbelow hab (List.getElem?_eq_getElem ha) (List.getElem?_eq_getElem hb)

/-- Rows that are in order stay where they are. -/
theorem selectLeast_of_sorted (h : rows.Pairwise fun x y => key x ≤ key y) (i : Nat) :
    selectLeast key rows i = rows := by
  unfold selectLeast
  split
  · rfl
  · next row hrow =>
    have hscan := scan_spec key hrow (rows.length - (i + 1))
    simp only
    generalize (List.range' (i + 1) (rows.length - (i + 1))).foldl (scanLeast key rows) (i, row) = best
      at hscan ⊢
    have hstays : best.1 = i := by
      rcases hscan.first with hfirst | hless
      · exact hfirst
      · by_contra hne
        obtain ⟨hi, rfl⟩ := List.getElem?_eq_some_iff.mp hrow
        obtain ⟨hbest, hbestRow⟩ := List.getElem?_eq_some_iff.mp hscan.found
        have hlater : i < best.1 := by
          have := hscan.from_start
          omega
        have hle := List.pairwise_iff_getElem.mp h i best.1 hi hbest hlater
        rw [hbestRow] at hle
        exact absurd hless (not_lt.mpr hle)
    rw [if_neg (not_not.mpr hstays)]

theorem selectionSort_of_sorted (h : rows.Pairwise fun x y => key x ≤ key y) :
    selectionSort key rows = rows := by
  unfold selectionSort
  induction List.range rows.length with
  | nil => rfl
  | cons i is ih =>
    rw [List.foldl_cons, selectLeast_of_sorted h]
    exact ih

end Selection

end ChainVerse
