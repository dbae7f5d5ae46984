import Mathlib.Data.List.Basic
import Mathlib.Logic.Function.Basic

namespace ChainVerse

/-! Stores that keep, for each key, the value that stands and the last few that have stood: windows on
histories that only grow. -/

section Retention

variable {K V : Type}

/-- The value that stands under each key, the versions kept, and the lowest of them. -/
structure Versions (K V : Type) where
  current : K → Option V
  line : K × Nat → Option V
  floor : K → Option Nat

def Versions.empty : Versions K V where
  current := fun _ => none
  line := fun _ => none
  floor := fun _ => none

/-- What a window on a history shows of a version: its last values, numbered from one. -/
def shown (window : Nat) (h : List V) (n : Nat) : Option V :=
  if 0 < n ∧ h.length < n + window then h[n - 1]? else none

/-- The store is a window on the histories of its keys, which are numbered from one. -/
structure Windows (window : Nat) (version : V → Nat) (s : Versions K V) (history : K → List V) : Prop where
  numbered : ∀ k i v, (history k)[i]? = some v → version v = i + 1
  current : ∀ k, s.current k = (history k).getLast?
  line : ∀ k n, s.line (k, n) = shown window (history k) n
  floor : ∀ k, s.floor k = if history k = [] then none else some ((history k).length - window + 1)

variable {window n : Nat} {version : V → Nat} {s : Versions K V} {history : K → List V} {h : List V} {k : K}
  {v : V}

theorem windows_empty : Windows window version Versions.empty fun _ : K => ([] : List V) where
  numbered _ _ _ h := nomatch h
  current _ := rfl
  line _ _ := by
    unfold shown
    split <;> rfl
  floor _ := rfl

theorem shown_mem (h' : shown window h n = some v) : 0 < n ∧ h[n - 1]? = some v := by
  unfold shown at h'
  split_ifs at h' with hn
  exact ⟨hn.1, h'⟩

/-- What a window shows of a history is shown of a longer one until the window has moved on. -/
theorem shown_prefix {h' : List V} (hkept : h <+: h') (hv : shown window h n = some v) :
    shown window h' n = some v ∨ shown window h' n = none ∧ n + window ≤ h'.length := by
  obtain ⟨hpos, hat⟩ := shown_mem hv
  obtain ⟨rest, rfl⟩ := hkept
  have hin := (List.getElem?_eq_some_iff.mp hat).1
  by_cases hlate : n + window ≤ (h ++ rest).length
  · exact .inr ⟨if_neg (by omega), hlate⟩
  · left
    rw [shown, if_pos ⟨hpos, by omega⟩, List.getElem?_append_left hin, hat]

/-- The value that stands has the number of values there have been. -/
theorem Windows.counted (hs : Windows window version s history) (hv : s.current k = some v) :
    version v = (history k).length ∧ v ∈ history k := by
  rw [hs.current, List.getLast?_eq_getElem?] at hv
  have hin := (List.getElem?_eq_some_iff.mp hv).1
  have hnumber := hs.numbered k _ v hv
  exact ⟨by omega, List.mem_of_getElem? hv⟩

/-- A version that a window shows is shown by a window on a longer history, or is below its floor. -/
theorem Windows.line_later {s' : Versions K V} {history' : K → List V}
    (hs : Windows window version s history) (hs' : Windows window version s' history')
    (hkept : history k <+: history' k) (hline : s.line (k, n) = some v) :
    s'.line (k, n) = some v ∨ s'.line (k, n) = none ∧ ∃ floor, s'.floor k = some floor ∧ n < floor := by
  rw [hs.line] at hline
  rw [hs'.line, hs'.floor]
  rcases shown_prefix hkept hline with hsame | ⟨hnone, hpast⟩
  · exact .inl hsame
  · have hin := (List.getElem?_eq_some_iff.mp (shown_mem hline).2).1
    have hlonger := hkept.length_le
    have hsome : history' k ≠ [] := List.ne_nil_of_length_pos (by omega)
    rw [if_neg hsome]
    exact .inr ⟨hnone, _, rfl, by omega⟩

theorem Windows.absent (hs : Windows window version s history) : s.current k = none ↔ history k = [] := by
  rw [hs.current, List.getLast?_eq_none_iff]

/-- A longer history shows its new value, and no longer the one that leaves the window. -/
theorem shown_snoc (hwindow : 0 < window) (h : List V) (v : V) (n : Nat) :
    shown window (h ++ [v]) n =
      if n = h.length + 1 then some v else if n + window = h.length + 1 then none else shown window h n := by
  unfold shown
  rw [List.length_append, List.length_singleton]
  by_cases hnew : n = h.length + 1
  · have hshown : 0 < n ∧ h.length + 1 < n + window := by omega
    have hlast : n - 1 = h.length := by omega
    rw [if_pos hnew, if_pos hshown, hlast, List.getElem?_concat_length]
  · rw [if_neg hnew]
    by_cases hgone : n + window = h.length + 1
    · have hhidden : ¬(0 < n ∧ h.length + 1 < n + window) := by omega
      rw [if_pos hgone, if_neg hhidden]
    · rw [if_neg hgone]
      by_cases hold : n - 1 < h.length
      · rw [List.getElem?_append_left hold]
        have hsame : 0 < n ∧ h.length + 1 < n + window ↔ 0 < n ∧ h.length < n + window := by omega
        simp only [hsame]
      · have hlate : h.length + 1 ≤ n - 1 ∨ n = 0 := by omega
        have hout : h[n - 1]? = none ∧ (h ++ [v])[n - 1]? = none ∨ n = 0 := by
          rcases hlate with hlate | hzero
          · left
            constructor
            · exact List.getElem?_eq_none (by omega)
            · exact List.getElem?_eq_none (by rw [List.length_append, List.length_singleton]; exact hlate)
          · exact .inr hzero
        rcases hout with ⟨hshort, hlong⟩ | hzero
        · rw [hshort, hlong]
          split <;> split <;> rfl
        · rw [if_neg (by omega), if_neg (by omega)]

variable [DecidableEq K]

/-- A value is written under its version. The version that it pushes out of the window goes, and the
lowest one moves up. -/
def Versions.save (window : Nat) (s : Versions K V) (k : K) (version : Nat) (v : V) : Versions K V where
  current := Function.update s.current k (some v)
  line :=
    let written := Function.update s.line (k, version) (some v)
    if window < version then Function.update written (k, version - window) none else written
  floor :=
    let started := if version = 1 then Function.update s.floor k (some 1) else s.floor
    if window < version then Function.update started k (some (version - window + 1)) else started

/-- What is left of the versions of the key that is written. -/
theorem save_line (s : Versions K V) (hwindow : 0 < window) (k : K) (h : List V) (v : V)
    (hline : ∀ n, s.line (k, n) = shown window h n) (n : Nat) :
    (s.save window k (h.length + 1) v).line (k, n) = shown window (h ++ [v]) n := by
  rw [shown_snoc hwindow]
  unfold Versions.save
  dsimp only
  by_cases hfull : window < h.length + 1
  · rw [if_pos hfull]
    by_cases hgone : n = h.length + 1 - window
    · rw [hgone, Function.update_self, if_neg (by omega), if_pos (by omega)]
    · rw [Function.update_of_ne fun heq => hgone (congrArg Prod.snd heq)]
      by_cases hnew : n = h.length + 1
      · rw [hnew, Function.update_self, if_pos rfl]
      · rw [Function.update_of_ne fun heq => hnew (congrArg Prod.snd heq), if_neg hnew,
          if_neg (by omega), hline]
  · rw [if_neg hfull]
    by_cases hnew : n = h.length + 1
    · rw [hnew, Function.update_self, if_pos rfl]
    · rw [Function.update_of_ne fun heq => hnew (congrArg Prod.snd heq), if_neg hnew, hline]
      by_cases hzero : n + window = h.length + 1
      · have hnone : ¬(0 < n ∧ h.length < n + window) := by omega
        rw [if_pos hzero, shown, if_neg hnone]
      · rw [if_neg hzero]

theorem save_floor (s : Versions K V) (k : K) (h : List V) (v : V)
    (hfloor : s.floor k = if h = [] then none else some (h.length - window + 1)) :
    (s.save window k (h.length + 1) v).floor k = some (h.length + 1 - window + 1) := by
  unfold Versions.save
  dsimp only
  by_cases hfull : window < h.length + 1
  · rw [if_pos hfull, Function.update_self]
  · rw [if_neg hfull]
    by_cases hfirst : h.length + 1 = 1
    · rw [if_pos hfirst, Function.update_self, Option.some.injEq]
      omega
    · have hsome : h ≠ [] := by
        rintro rfl
        exact hfirst rfl
      rw [if_neg hfirst, hfloor, if_neg hsome, Option.some.injEq]
      omega

/-- The other keys keep their versions. -/
theorem save_other (s : Versions K V) (m : Nat) (v : V) {k k' : K} (hk : k' ≠ k) (n : Nat) :
    (s.save window k m v).line (k', n) = s.line (k', n) ∧ (s.save window k m v).floor k' = s.floor k' := by
  have hrow : ∀ x, (k', n) ≠ (k, x) := fun x heq => hk (congrArg Prod.fst heq)
  unfold Versions.save
  dsimp only
  refine ⟨?_, ?_⟩
  · split_ifs
    · rw [Function.update_of_ne (hrow _), Function.update_of_ne (hrow _)]
    · rw [Function.update_of_ne (hrow _)]
  · split_ifs
    · rw [Function.update_of_ne hk, Function.update_of_ne hk]
    · rw [Function.update_of_ne hk]
    · rw [Function.update_of_ne hk]
    · rfl

/-- A value written under the version after the last goes on the history of its key. -/
theorem Windows.save (hs : Windows window version s history) (hwindow : 0 < window) (k : K) (v : V)
    (hversion : version v = (history k).length + 1) :
    Windows window version (s.save window k (version v) v)
      (Function.update history k (history k ++ [v])) := by
  rw [hversion]
  refine ⟨?_, ?_, ?_, ?_⟩
  · intro k' i w hw
    by_cases hk : k' = k
    · rw [hk, Function.update_self, List.getElem?_append] at hw
      split_ifs at hw with hi
      · exact hs.numbered k i w hw
      · have hlast := List.getElem?_singleton (a := v) (i := i - (history k).length)
        rw [hlast] at hw
        split_ifs at hw with hzero
        cases hw
        omega
    · rw [Function.update_of_ne hk] at hw
      exact hs.numbered k' i w hw
  · intro k'
    by_cases hk : k' = k
    · rw [hk, Function.update_self, List.getLast?_concat]
      exact Function.update_self _ _ _
    · rw [Function.update_of_ne hk, ← hs.current k']
      exact Function.update_of_ne hk _ _
  · intro k' n
    by_cases hk : k' = k
    · rw [hk, Function.update_self]
      exact save_line s hwindow k (history k) v (hs.line k) n
    · rw [Function.update_of_ne hk, ← hs.line k' n]
      exact (save_other s _ v hk n).1
  · intro k'
    by_cases hk : k' = k
    · rw [hk, Function.update_self, if_neg (List.append_ne_nil_of_right_ne_nil _ (List.cons_ne_nil _ _)),
        List.length_append, List.length_singleton]
      exact save_floor s k (history k) v (hs.floor k)
    · rw [Function.update_of_ne hk, ← hs.floor k']
      exact (save_other s _ v hk 0).2

end Retention

end ChainVerse
