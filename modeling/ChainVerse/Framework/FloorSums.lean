import Mathlib.Algebra.Order.BigOperators.Group.List
import Mathlib.Algebra.BigOperators.Ring.Finset
import Mathlib.Algebra.BigOperators.Ring.List
import Mathlib.Data.Nat.Cast.Order.Field
import Mathlib.Data.Rat.Cast.Order
import Mathlib.Tactic.Linarith
import Mathlib.Tactic.Positivity
import Mathlib.Tactic.Ring

namespace ChainVerse

/-! Weighted sums of fractions of a whole, each rounded down, against the exact sum. -/

section Shares

variable {num den whole weight : Nat}

/-- A fraction of the whole, rounded down, times its weight. -/
def flooredShare (whole num den weight : Nat) : Nat := num * whole / den * weight

/-- A fraction times its weight. -/
def exactShare (num den weight : Nat) : ℚ := (weight : ℚ) * num / den

theorem flooredShare_mono {num' : Nat} (h : num ≤ num') :
    flooredShare whole num den weight ≤ flooredShare whole num' den weight := by
  unfold flooredShare
  gcongr

theorem flooredShare_le_whole (h : num ≤ den) : flooredShare whole num den weight ≤ whole * weight := by
  apply Nat.mul_le_mul_right
  exact Nat.div_le_of_le_mul (Nat.mul_le_mul_right whole h)

/-- A share that counts is full only where the fraction is. -/
theorem flooredShare_lt_whole (hwhole : 0 < whole) (h : num < den) (hweight : 0 < weight) :
    flooredShare whole num den weight < whole * weight := by
  apply Nat.mul_lt_mul_of_pos_right _ hweight
  rw [Nat.div_lt_iff_lt_mul (by omega), Nat.mul_comm whole]
  exact Nat.mul_lt_mul_of_pos_right h hwhole

theorem flooredShare_full (hden : 0 < den) : flooredShare whole den den weight = whole * weight := by
  rw [flooredShare, Nat.mul_div_cancel_left whole hden]

theorem flooredShare_le_exact (whole num den weight : Nat) :
    (flooredShare whole num den weight : ℚ) ≤ whole * exactShare num den weight := by
  have hfloor : ((num * whole / den : Nat) : ℚ) ≤ (num * whole : Nat) / den := Nat.cast_div_le
  calc (flooredShare whole num den weight : ℚ)
      = ((num * whole / den : Nat) : ℚ) * weight := by rw [flooredShare, Nat.cast_mul]
    _ ≤ (num * whole : Nat) / den * weight := by gcongr
    _ = whole * exactShare num den weight := by
      rw [exactShare]
      push_cast
      ring

/-- Rounding one fraction loses less than one unit of its weight. -/
theorem exact_lt_flooredShare (hden : 0 < den) (hweight : 0 < weight) :
    whole * exactShare num den weight < flooredShare whole num den weight + weight := by
  have hdiv : num * whole < (num * whole / den + 1) * den := Nat.lt_mul_of_div_lt (by omega) hden
  have hfloor : ((num * whole : Nat) : ℚ) / den < (num * whole / den : Nat) + 1 := by
    rw [div_lt_iff₀ (by exact_mod_cast hden)]
    exact_mod_cast hdiv
  have hpos : (0 : ℚ) < weight := by exact_mod_cast hweight
  calc whole * exactShare num den weight
      = (num * whole : Nat) / den * weight := by
        rw [exactShare]
        push_cast
        ring
    _ < ((num * whole / den : Nat) + 1) * weight := by gcongr
    _ = flooredShare whole num den weight + weight := by
      rw [flooredShare]
      push_cast
      ring

end Shares

section Sums

variable {ι : Type} (whole : Nat) (num den weight : ι → Nat) (rows : List ι)

def flooredSum : Nat :=
  (rows.map fun r => flooredShare whole (num r) (den r) (weight r)).sum

def exactSum : ℚ := (rows.map fun r => exactShare (num r) (den r) (weight r)).sum

variable {whole num den weight rows}

theorem flooredSum_le_exact :
    (flooredSum whole num den weight rows : ℚ) ≤ whole * exactSum num den weight rows := by
  rw [flooredSum, exactSum, Nat.cast_list_sum, List.map_map, ← List.sum_map_mul_left]
  exact List.sum_le_sum fun r _ => flooredShare_le_exact whole _ _ _

/-- The rounding of all the fractions loses less than the weights add up to. -/
theorem exact_lt_flooredSum (hden : ∀ r ∈ rows, 0 < den r) (hweight : 0 < (rows.map weight).sum) :
    whole * exactSum num den weight rows <
      flooredSum whole num den weight rows + (rows.map weight).sum := by
  have hsome : ∃ r ∈ rows, 0 < weight r := by
    obtain ⟨w, hw, hpos⟩ := List.sum_pos_iff_exists_pos_nat.mp hweight
    obtain ⟨r, hr, rfl⟩ := List.mem_map.mp hw
    exact ⟨r, hr, hpos⟩
  rw [flooredSum, exactSum, Nat.cast_list_sum, Nat.cast_list_sum, List.map_map, List.map_map,
    ← List.sum_map_add, ← List.sum_map_mul_left]
  refine List.sum_lt_sum _ _ (fun r hr => ?_) ?_
  · rcases Nat.eq_zero_or_pos (weight r) with hzero | hpos
    · simp [flooredShare, exactShare, hzero]
    · exact (exact_lt_flooredShare (hden r hr) hpos).le
  · obtain ⟨r, hr, hpos⟩ := hsome
    exact ⟨r, hr, exact_lt_flooredShare (hden r hr) hpos⟩

theorem flooredSum_le_whole (h : ∀ r ∈ rows, num r ≤ den r) :
    flooredSum whole num den weight rows ≤ whole * (rows.map weight).sum := by
  rw [flooredSum, ← List.sum_map_mul_left]
  exact List.sum_le_sum fun r hr => flooredShare_le_whole (h r hr)

/-- The sum is the whole exactly when every fraction that counts is. -/
theorem flooredSum_eq_whole_iff (hwhole : 0 < whole) (hden : ∀ r ∈ rows, 0 < den r)
    (h : ∀ r ∈ rows, num r ≤ den r) :
    flooredSum whole num den weight rows = whole * (rows.map weight).sum ↔
      ∀ r ∈ rows, 0 < weight r → num r = den r := by
  rw [flooredSum, ← List.sum_map_mul_left]
  constructor
  · intro hfull r hr hpos
    by_contra hne
    have hlt : flooredShare whole (num r) (den r) (weight r) < whole * weight r :=
      flooredShare_lt_whole hwhole (lt_of_le_of_ne (h r hr) hne) hpos
    have hless := List.sum_lt_sum (fun r => flooredShare whole (num r) (den r) (weight r))
      (fun r => whole * weight r) (fun r hr => flooredShare_le_whole (h r hr)) ⟨r, hr, hlt⟩
    exact absurd hfull hless.ne
  · intro hall
    refine congrArg List.sum (List.map_congr_left fun r hr => ?_)
    rcases Nat.eq_zero_or_pos (weight r) with hzero | hpos
    · rw [flooredShare, hzero, Nat.mul_zero, Nat.mul_zero]
    · rw [hall r hr hpos, flooredShare_full (hden r hr)]

/-- Where the weights add up to the whole, the two roundings of the total lose less than two. -/
theorem flooredSum_div_bounds (hwhole : 0 < whole) (hsum : (rows.map weight).sum = whole)
    (hden : ∀ r ∈ rows, 0 < den r) :
    ((flooredSum whole num den weight rows / whole : Nat) : ℚ) ≤ exactSum num den weight rows ∧
      exactSum num den weight rows < (flooredSum whole num den weight rows / whole : Nat) + 2 := by
  have hpos : (0 : ℚ) < whole := by exact_mod_cast hwhole
  have hle : (flooredSum whole num den weight rows : ℚ) ≤ whole * exactSum num den weight rows :=
    flooredSum_le_exact
  have hlt := @exact_lt_flooredSum _ whole num den weight rows hden (by omega)
  rw [hsum] at hlt
  have hfloor : flooredSum whole num den weight rows / whole * whole ≤
      flooredSum whole num den weight rows := Nat.div_mul_le_self _ _
  have hnext : flooredSum whole num den weight rows <
      (flooredSum whole num den weight rows / whole + 1) * whole :=
    Nat.lt_mul_of_div_lt (Nat.lt_succ_self _) hwhole
  generalize flooredSum whole num den weight rows / whole = total at hfloor hnext ⊢
  have hfloor' : (total : ℚ) * whole ≤ flooredSum whole num den weight rows := by
    exact_mod_cast hfloor
  have hnext' : (flooredSum whole num den weight rows : ℚ) < (total + 1) * whole := by
    exact_mod_cast hnext
  constructor
  · exact le_of_mul_le_mul_right (by linarith) hpos
  · refine lt_of_mul_lt_mul_right ?_ hpos.le
    linarith

end Sums

section Means

variable {ι : Type} {total : ι → Nat} {exact : ι → ℚ} {rows : List ι} {error : ℚ}

/-- A mean of totals, rounded down, is below that of the exact ones by less than one more than each
total is. -/
theorem mean_bounds (hrows : rows ≠ []) (hle : ∀ r ∈ rows, (total r : ℚ) ≤ exact r)
    (hlt : ∀ r ∈ rows, exact r < total r + error) :
    (((rows.map total).sum / rows.length : Nat) : ℚ) ≤ (rows.map exact).sum / rows.length ∧
      (rows.map exact).sum / rows.length <
        ((rows.map total).sum / rows.length : Nat) + (error + 1) := by
  have hlength : 0 < rows.length := List.length_pos_iff.mpr hrows
  have hpos : (0 : ℚ) < rows.length := by exact_mod_cast hlength
  have hcast : (((rows.map total).sum : Nat) : ℚ) = (rows.map fun r => (total r : ℚ)).sum := by
    rw [Nat.cast_list_sum, List.map_map]
    rfl
  have hsum : (((rows.map total).sum : Nat) : ℚ) ≤ (rows.map exact).sum := by
    rw [hcast]
    exact List.sum_le_sum hle
  have hbelow : (rows.map exact).sum < ((rows.map total).sum : Nat) + rows.length * error := by
    have hconst : (rows.map fun _ => error).sum = rows.length * error := by
      rw [List.map_const', List.sum_replicate, nsmul_eq_mul]
    rw [hcast, ← hconst, ← List.sum_map_add]
    obtain ⟨r, hr⟩ := List.exists_mem_of_ne_nil rows hrows
    exact List.sum_lt_sum _ _ (fun r hr => (hlt r hr).le) ⟨r, hr, hlt r hr⟩
  have hfloor : (((rows.map total).sum / rows.length : Nat) : ℚ) ≤
      ((rows.map total).sum : Nat) / rows.length := Nat.cast_div_le
  have hnext : (rows.map total).sum < ((rows.map total).sum / rows.length + 1) * rows.length :=
    Nat.lt_mul_of_div_lt (Nat.lt_succ_self _) hlength
  constructor
  · exact hfloor.trans (div_le_div_of_nonneg_right hsum hpos.le)
  · rw [div_lt_iff₀ hpos]
    have hnext' : (((rows.map total).sum : Nat) : ℚ) <
        (((rows.map total).sum / rows.length : Nat) + 1) * rows.length := by exact_mod_cast hnext
    linarith

end Means

end ChainVerse
