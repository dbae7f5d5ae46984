import ChainVerse.Framework.Tables
import Mathlib.Algebra.BigOperators.Finprod

namespace ChainVerse

/-! Accounts of an unbounded set of holders, of whom finitely many hold something. -/

section Sums

variable {K M : Type} [DecidableEq K] [AddCommMonoid M] {f : K → M}

/-- Writing one row moves the sum of all by that row. -/
theorem finsum_update_row (h : {k | f k ≠ 0}.Finite) (k : K) (v : M) :
    ∑ᶠ x, Function.update f k v x + f k = ∑ᶠ x, f x + v := by
  have hk : k ∈ insert k h.toFinset := Finset.mem_insert_self k _
  have hrows : ∀ x ∉ insert k h.toFinset, f x = 0 := by
    intro x hx
    rw [Finset.mem_insert, not_or, Set.Finite.mem_toFinset] at hx
    exact not_not.mp hx.2
  have htotal : ∀ g : K → M, (∀ x ∉ insert k h.toFinset, g x = 0) →
      ∑ᶠ x, g x = ∑ x ∈ (insert k h.toFinset).erase k, g x + g k := by
    intro g hg
    rw [Finset.sum_erase_add _ _ hk]
    apply finsum_eq_sum_of_support_subset
    intro x hx
    by_contra hout
    exact hx (hg x hout)
  have hrest : ∑ x ∈ (insert k h.toFinset).erase k, Function.update f k v x =
      ∑ x ∈ (insert k h.toFinset).erase k, f x := by
    refine Finset.sum_congr rfl fun x hx => ?_
    rw [Function.update_of_ne (Finset.ne_of_mem_erase hx)]
  rw [htotal f hrows, htotal (Function.update f k v), hrest, Function.update_self, add_right_comm]
  intro x hx
  have hne : x ≠ k := (not_or.mp (Finset.mem_insert.not.mp hx)).1
  rw [Function.update_of_ne hne]
  exact hrows x hx

/-- Writing one row of a table by pairs moves the sum of its column by that row. -/
theorem finsum_update_column {L : Type} [DecidableEq L] {table : K × L → M} {y : L}
    (h : {x | table (x, y) ≠ 0}.Finite) (a : K) (b : L) (v : M) :
    ∑ᶠ x, Function.update table (a, b) v (x, y) + (if y = b then table (a, b) else 0) =
      ∑ᶠ x, table (x, y) + (if y = b then v else 0) := by
  by_cases hy : y = b
  · subst hy
    have hcolumn := update_column table a y v
    have hrow := finsum_update_row h a v
    simp only [← hcolumn] at hrow
    simpa only [if_true] using hrow
  · simp only [update_other_column table a b v hy, hy, if_false]

end Sums

section Accounts

variable {K : Type}

/-- What all holders hold together. -/
noncomputable def holdings (accounts : K → Int) : Int := ∑ᶠ k, accounts k

/-- Nobody owes, and finitely many hold something. -/
structure Sound (accounts : K → Int) : Prop where
  finite : {k | accounts k ≠ 0}.Finite
  nonneg : ∀ k, 0 ≤ accounts k

theorem sound_zero : Sound fun _ : K => 0 := ⟨by simp, fun _ => le_rfl⟩

theorem holdings_zero : holdings (fun _ : K => 0) = 0 := finsum_zero

variable {accounts : K → Int}

theorem Sound.holdings_nonneg (h : Sound accounts) : 0 ≤ holdings accounts := finsum_nonneg h.nonneg

theorem Sound.le_holdings (h : Sound accounts) (k : K) : accounts k ≤ holdings accounts :=
  single_le_finsum k h.finite h.nonneg

variable [DecidableEq K]

theorem Sound.update (h : Sound accounts) (k : K) {v : Int} (hv : 0 ≤ v) :
    Sound (Function.update accounts k v) := by
  refine ⟨finite_update_row (p := fun amount => amount ≠ 0) h.finite k v, ?_⟩
  intro x
  by_cases hx : x = k
  · rw [hx, Function.update_self]
    exact hv
  · rw [Function.update_of_ne hx]
    exact h.nonneg x

theorem holdings_update (h : Sound accounts) (k : K) (v : Int) :
    holdings (Function.update accounts k v) = holdings accounts - accounts k + v := by
  have hmoved := finsum_update_row h.finite k v
  unfold holdings
  omega

/-- Adds an amount to the account of its holder. -/
def credit (accounts : K → Int) (entry : K × Int) : K → Int :=
  Function.update accounts entry.1 (accounts entry.1 + entry.2)

theorem credit_twice (accounts : K → Int) (k : K) (v w : Int) :
    credit (credit accounts (k, v)) (k, w) = credit accounts (k, v + w) := by
  simp only [credit, Function.update_self, Function.update_idem, Int.add_assoc]

theorem credit_zero (accounts : K → Int) (k : K) : credit accounts (k, 0) = accounts := by
  rw [credit, Int.add_zero, Function.update_eq_self]

/-- What one holder has after the credits. -/
theorem foldl_credit_apply (entries : List (K × Int)) (accounts : K → Int) (k : K) :
    entries.foldl credit accounts k =
      accounts k + (entries.map fun entry => if entry.1 = k then entry.2 else 0).sum := by
  induction entries generalizing accounts with
  | nil => simp
  | cons entry entries ih =>
    rw [List.foldl_cons, ih, List.map_cons, List.sum_cons]
    by_cases hk : entry.1 = k
    · rw [if_pos hk, credit, hk, Function.update_self]
      omega
    · rw [if_neg hk, credit, Function.update_of_ne (Ne.symm hk)]
      omega

theorem sum_under_other {k : K} {entries : List (K × Int)} (h : k ∉ entries.map Prod.fst) :
    (entries.map fun entry => if entry.1 = k then entry.2 else 0).sum = 0 := by
  apply List.sum_eq_zero
  intro x hx
  obtain ⟨entry, hentry, rfl⟩ := List.mem_map.mp hx
  apply if_neg
  rintro rfl
  exact h (List.mem_map_of_mem hentry)

/-- The sum over a holder who has one entry. -/
theorem sum_under_key {k : K} {v : Int} {entries : List (K × Int)}
    (hnodup : (entries.map Prod.fst).Nodup) (h : (k, v) ∈ entries) :
    (entries.map fun entry => if entry.1 = k then entry.2 else 0).sum = v := by
  induction entries with
  | nil => cases h
  | cons entry entries ih =>
    rw [List.map_cons, List.nodup_cons] at hnodup
    rw [List.map_cons, List.sum_cons]
    rcases List.mem_cons.mp h with rfl | hrest
    · rw [if_pos rfl, sum_under_other hnodup.1, Int.add_zero]
    · have hother : entry.1 ≠ k := by
        rintro rfl
        exact hnodup.1 (List.mem_map.mpr ⟨_, hrest, rfl⟩)
      rw [if_neg hother, ih hnodup.2 hrest, Int.zero_add]

/-- Credits add up, also where one holder is credited more than once. -/
theorem holdings_foldl_credit {accounts : K → Int} (h : {k | accounts k ≠ 0}.Finite)
    (entries : List (K × Int)) : {k | entries.foldl credit accounts k ≠ 0}.Finite ∧
      holdings (entries.foldl credit accounts) =
        holdings accounts + (entries.map Prod.snd).sum := by
  induction entries generalizing accounts with
  | nil => exact ⟨h, by simp⟩
  | cons entry entries ih =>
    have hmoved := finsum_update_row h entry.1 (accounts entry.1 + entry.2)
    have hcredited : {k | credit accounts entry k ≠ 0}.Finite :=
      finite_update_row (p := fun amount => amount ≠ 0) h entry.1 _
    obtain ⟨hfinite, hall⟩ := ih hcredited
    refine ⟨hfinite, ?_⟩
    rw [List.foldl_cons, hall, List.map_cons, List.sum_cons]
    unfold holdings credit
    omega

/-- Credits that are not negative keep the accounts sound. -/
theorem foldl_credit {entries : List (K × Int)} (h : Sound accounts)
    (hentries : ∀ entry ∈ entries, 0 ≤ entry.2) :
    Sound (entries.foldl credit accounts) ∧
      holdings (entries.foldl credit accounts) =
        holdings accounts + (entries.map Prod.snd).sum := by
  obtain ⟨hfinite, hall⟩ := holdings_foldl_credit h.finite entries
  refine ⟨⟨hfinite, ?_⟩, hall⟩
  intro k
  have hbefore := h.nonneg k
  have hcredits : 0 ≤ (entries.map fun entry => if entry.1 = k then entry.2 else 0).sum := by
    apply List.sum_nonneg
    intro x hx
    obtain ⟨entry, hentry, rfl⟩ := List.mem_map.mp hx
    split_ifs
    · exact hentries entry hentry
    · exact le_rfl
  rw [foldl_credit_apply]
  omega

end Accounts

end ChainVerse
