import Mathlib.Algebra.Order.Ring.Nat
import Mathlib.Data.Nat.Basic
import Mathlib.Order.Monotone.Basic
import Mathlib.Algebra.BigOperators.Group.List.Basic
import Mathlib.Algebra.Order.Ring.Int
import Mathlib.Tactic.Linarith

namespace ChainVerse

/-! Amounts that come free evenly between two instants, in whole units rounded down. -/

section Ramps

variable {total first last t : Nat}

/-- How much of `total` is free at `t`: nothing before `first` and all from `last` on. -/
def ramp (total first last t : Nat) : Nat :=
  if t < first then 0
  else if last ≤ t then total
  else total * (t - first) / (last - first)

theorem ramp_before (h : t < first) : ramp total first last t = 0 := if_pos h

theorem ramp_after (hle : first ≤ last) (h : last ≤ t) : ramp total first last t = total := by
  rw [ramp, if_neg (by omega), if_pos h]

theorem ramp_between (hfirst : first ≤ t) (hlast : t < last) :
    ramp total first last t = total * (t - first) / (last - first) := by
  rw [ramp, if_neg (by omega), if_neg (by omega)]

theorem ramp_le (total first last t : Nat) : ramp total first last t ≤ total := by
  unfold ramp
  split_ifs with hbefore hafter
  · exact Nat.zero_le total
  · exact le_rfl
  · apply Nat.div_le_of_le_mul
    rw [Nat.mul_comm (last - first)]
    exact Nat.mul_le_mul_left total (by omega)

/-- What is free stays free: rounding down loses nothing along either of the two corners. -/
theorem ramp_monotone (hle : first ≤ last) : Monotone (ramp total first last) := by
  intro t t' htt'
  by_cases hbefore : t < first
  · rw [ramp_before hbefore]
    exact Nat.zero_le _
  · by_cases hafter : last ≤ t'
    · rw [ramp_after hle hafter]
      exact ramp_le total first last t
    · rw [ramp_between (by omega) (by omega), ramp_between (by omega) (by omega)]
      apply Nat.div_le_div_right
      exact Nat.mul_le_mul_left total (by omega)

end Ramps

/-! An amount shared out by weights: every share is rounded down, and the last one takes what
remains. -/

section Splits

variable {amount whole : Int}

/-- The shares of `amount` by weights out of `whole`, when `given` has been shared out before. -/
def shares (amount whole : Int) : Int → List Nat → List Int
  | _, [] => []
  | given, [_] => [amount - given]
  | given, w :: v :: ws =>
    amount * w / whole :: shares amount whole (given + amount * w / whole) (v :: ws)

/-- No dust is left: the shares add up to what had not been given. -/
theorem sum_shares {ws : List Nat} (hne : ws ≠ []) (given : Int) :
    (shares amount whole given ws).sum = amount - given := by
  induction ws generalizing given with
  | nil => exact absurd rfl hne
  | cons w ws ih =>
    cases ws with
    | nil => simp [shares]
    | cons v ws =>
      rw [shares, List.sum_cons, ih (List.cons_ne_nil v ws)]
      omega

theorem length_shares (ws : List Nat) (given : Int) :
    (shares amount whole given ws).length = ws.length := by
  induction ws generalizing given with
  | nil => rfl
  | cons w ws ih =>
    cases ws with
    | nil => rfl
    | cons v ws =>
      rw [shares, List.length_cons, ih]
      rfl

/-- Where no more has been given than the weights `used` up allow, no share is negative. -/
theorem shares_nonneg (hamount : 0 ≤ amount) (hwhole : 0 < whole) {ws : List Nat} {given used : Int}
    (hgiven : given * whole ≤ amount * used) (hused : used + (ws.sum : Nat) ≤ whole) :
    ∀ share ∈ shares amount whole given ws, 0 ≤ share := by
  induction ws generalizing given used with
  | nil => simp [shares]
  | cons w ws ih =>
    rw [List.sum_cons, Nat.cast_add] at hused
    cases ws with
    | nil =>
      intro share hshare
      rw [shares, List.mem_singleton] at hshare
      have hall : used ≤ whole := by omega
      have hbound : given * whole ≤ amount * whole :=
        hgiven.trans (Int.mul_le_mul_of_nonneg_left hall hamount)
      have hle := Int.le_of_mul_le_mul_right hbound hwhole
      omega
    | cons v ws =>
      have hfloor : amount * w / whole * whole ≤ amount * w := Int.ediv_mul_le _ hwhole.ne'
      have hnext : (given + amount * w / whole) * whole ≤ amount * (used + w) := by
        rw [Int.add_mul, Int.mul_add]
        omega
      intro share hshare
      rw [shares, List.mem_cons] at hshare
      rcases hshare with rfl | hshare
      · exact Int.ediv_nonneg (Int.mul_nonneg hamount (Int.natCast_nonneg w)) hwhole.le
      · exact ih hnext (by omega) share hshare

/-- Every share but the last is the weighted part of the amount, rounded down. -/
theorem shares_getElem? {ws : List Nat} {given share : Int} {k w : Nat}
    (hshare : (shares amount whole given ws)[k]? = some share) (hw : ws[k]? = some w)
    (hk : k + 1 < ws.length) : share = amount * w / whole := by
  induction ws generalizing given k with
  | nil => cases hw
  | cons v ws ih =>
    cases ws with
    | nil => exact absurd hk (Nat.not_lt.mpr (Nat.succ_le_succ (Nat.zero_le k)))
    | cons u ws =>
      rw [shares] at hshare
      cases k with
      | zero =>
        rw [List.getElem?_cons_zero, Option.some.injEq] at hshare hw
        rw [← hshare, hw]
      | succ k =>
        rw [List.getElem?_cons_succ] at hshare hw
        exact ih hshare hw (Nat.lt_of_succ_lt_succ hk)

end Splits

section Floors

variable {rate whole : Int} {parts : List Int}

/-- What a part bears at a rate out of `whole`, rounded down. -/
def floorShare (rate whole part : Int) : Int := part * rate / whole

/-- Rounding down part by part loses less than one unit for each part. -/
theorem sum_floors (rate : Int) (hwhole : 0 < whole) (parts : List Int) :
    (parts.map (floorShare rate whole)).sum * whole ≤ parts.sum * rate ∧
      parts.sum * rate ≤
        (parts.map (floorShare rate whole)).sum * whole + (whole - 1) * parts.length := by
  induction parts with
  | nil => simp
  | cons part parts ih =>
    have hlow : part * rate / whole * whole ≤ part * rate := Int.ediv_mul_le _ hwhole.ne'
    have hhigh : part * rate < (part * rate / whole + 1) * whole := Int.lt_ediv_add_one_mul_self _ hwhole
    obtain ⟨hfloor, hceil⟩ := ih
    simp only [List.map_cons, List.sum_cons, List.length_cons, floorShare, Nat.cast_add, Nat.cast_one]
    constructor
    · linarith
    · linarith

/-- The floors of the parts come to no more than that of the whole, and to more than it less the number
of parts. -/
theorem floors_bounds (hwhole : 0 < whole) (hparts : parts ≠ []) :
    floorShare rate whole parts.sum - parts.length < (parts.map (floorShare rate whole)).sum ∧
      (parts.map (floorShare rate whole)).sum ≤ floorShare rate whole parts.sum := by
  obtain ⟨hfloor, hceil⟩ := sum_floors rate hwhole parts
  constructor
  · have hlength : (0 : Int) < parts.length := by
      exact_mod_cast List.length_pos_of_ne_nil hparts
    have hbelow : parts.sum * rate / whole <
        (parts.map (floorShare rate whole)).sum + parts.length := by
      apply Int.ediv_lt_of_lt_mul hwhole
      linarith
    unfold floorShare at *
    omega
  · exact (Int.le_ediv_iff_mul_le hwhole).mpr hfloor

end Floors

section Dust

variable {amount whole : Int}

/-- What remains for the last share, when the shares before it are rounded down. -/
theorem shares_concat (ws : List Nat) (w : Nat) (given : Int) :
    shares amount whole given (ws ++ [w]) =
      ws.map (fun v : Nat => floorShare amount whole v) ++
        [amount - given - (ws.map fun v : Nat => floorShare amount whole v).sum] := by
  induction ws generalizing given with
  | nil => simp [shares]
  | cons v ws ih =>
    obtain ⟨u, rest, hrest⟩ : ∃ u rest, ws ++ [w] = u :: rest :=
      List.exists_cons_of_ne_nil (List.append_ne_nil_of_right_ne_nil _ (List.cons_ne_nil w []))
    have hfloor : amount * v / whole = floorShare amount whole v := by
      rw [floorShare, Int.mul_comm]
    rw [List.cons_append, hrest, shares, ← hrest, ih, hfloor, List.map_cons, List.sum_cons,
      List.cons_append]
    congr 2
    simp only [List.cons.injEq, and_true]
    omega

/-- The last share exceeds its own part by what rounding took off the shares before it, which is less
than one unit for each of them. -/
theorem shares_dust (amount : Int) (hwhole : 0 < whole) {ws : List Nat} {w : Nat}
    (hsum : ((ws ++ [w]).sum : Nat) = whole) :
    let last := amount - (ws.map fun v : Nat => floorShare amount whole v).sum
    floorShare amount whole w ≤ last ∧ last < floorShare amount whole w + (ws.length + 1 : Nat) := by
  have hparts : ((ws ++ [w]).map fun v : Nat => (v : Int)) ≠ [] := by simp
  have htotal : ((ws ++ [w]).map fun v : Nat => (v : Int)).sum = whole := by
    rw [← hsum]
    exact (map_list_sum (Nat.castRingHom ℤ) (ws ++ [w])).symm
  have hall : floorShare amount whole whole = amount := Int.mul_ediv_cancel_left amount hwhole.ne'
  obtain ⟨hbelow, habove⟩ := @floors_bounds amount whole _ hwhole hparts
  rw [htotal, hall] at hbelow habove
  simp only [List.map_append, List.map_map, List.map_cons, List.map_nil, List.sum_append,
    List.sum_cons, List.sum_nil, List.length_append, List.length_map, List.length_singleton,
    Function.comp_def] at hbelow habove
  dsimp only
  omega

end Dust

end ChainVerse
