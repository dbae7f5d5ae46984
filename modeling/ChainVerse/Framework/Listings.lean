import ChainVerse.Framework.Tables
import Mathlib.Data.Multiset.Count
import Mathlib.Data.Set.Card
import Mathlib.Logic.Function.Basic

namespace ChainVerse

/-! A secondary index of a table in which at most one row has each key. -/

section Indexes

variable {I K : Type} {index : K → Option I} {key : I → Option K} {i j : I} {k : K}

/-- `index` finds exactly the row that has a key. -/
def Indexed (index : K → Option I) (key : I → Option K) : Prop :=
  ∀ k i, index k = some i ↔ key i = some k

theorem Indexed.unique (h : Indexed index key) (hi : key i = some k) (hj : key j = some k) :
    i = j := by
  have hfound := (h k i).mpr hi
  rw [(h k j).mpr hj] at hfound
  exact (Option.some.inj hfound).symm

variable [DecidableEq I] [DecidableEq K]

/-- A row without a key is given one that no row has. -/
theorem Indexed.insert (h : Indexed index key) (hindex : index k = none) (hkey : key i = none) :
    Indexed (Function.update index k (some i)) (Function.update key i (some k)) := by
  intro k' i'
  by_cases hk : k' = k
  · by_cases hi : i' = i
    · simp [hk, hi]
    · have hother : key i' ≠ some k := by
        intro hhas
        rw [(h k i').mpr hhas] at hindex
        cases hindex
      rw [hk, Function.update_self, Function.update_of_ne hi]
      simp [hother, Ne.symm hi]
  · by_cases hi : i' = i
    · have hnone : index k' ≠ some i := by
        intro hfound
        rw [(h k' i).mp hfound] at hkey
        cases hkey
      rw [hi, Function.update_self, Function.update_of_ne hk]
      simp [hnone, Ne.symm hk]
    · rw [Function.update_of_ne hk, Function.update_of_ne hi]
      exact h k' i'

/-- A row gives its key back. -/
theorem Indexed.erase (h : Indexed index key) (hkey : key i = some k) :
    Indexed (Function.update index k none) (Function.update key i none) := by
  intro k' i'
  by_cases hk : k' = k
  · have hgone : Function.update key i none i' ≠ some k := by
      by_cases hi : i' = i
      · simp [hi]
      · rw [Function.update_of_ne hi]
        intro hhas
        exact hi (h.unique hhas hkey)
    rw [hk, Function.update_self]
    simp [hgone]
  · rw [Function.update_of_ne hk]
    by_cases hi : i' = i
    · have hnone : index k' ≠ some i := by
        intro hfound
        rw [(h k' i).mp hfound, Option.some.injEq] at hkey
        exact hk hkey
      rw [hi, Function.update_self]
      simp [hnone]
    · rw [Function.update_of_ne hi]
      exact h k' i'

end Indexes

section Counting

variable {A : Type} {p : A → Bool} {l : List A} {a : A}

theorem countP_snoc (p : A → Bool) (l : List A) (a : A) :
    (l ++ [a]).countP p = l.countP p + if p a then 1 else 0 := by
  rw [List.countP_append, List.countP_singleton]

theorem countP_snoc_of_pos {q : A → Prop} [DecidablePred q] (h : q a) :
    (l ++ [a]).countP (fun x => q x) = l.countP (fun x => q x) + 1 := by
  rw [countP_snoc, if_pos (decide_eq_true h)]

theorem countP_snoc_of_neg {q : A → Prop} [DecidablePred q] (h : ¬q a) :
    (l ++ [a]).countP (fun x => q x) = l.countP fun x => q x := by
  rw [countP_snoc, decide_eq_false h, if_neg Bool.false_ne_true, Nat.add_zero]

/-- One more element of a list without duplicates comes to have the property. -/
theorem countP_update [DecidableEq A] (hnodup : l.Nodup) (hmem : a ∈ l) (hfresh : p a = false) :
    l.countP (Function.update p a true) = l.countP p + 1 := by
  induction l with
  | nil => cases hmem
  | cons b l ih =>
    obtain ⟨hb, hrest⟩ := List.nodup_cons.mp hnodup
    rw [List.countP_cons, List.countP_cons]
    rcases List.mem_cons.mp hmem with rfl | hlater
    · have htail : l.countP (Function.update p a true) = l.countP p := by
        apply List.countP_congr
        intro x hx
        have hne : x ≠ a := fun heq => hb (heq ▸ hx)
        rw [Function.update_of_ne hne]
      rw [htail, Function.update_self, hfresh]
      rfl
    · have hne : b ≠ a := fun heq => hb (heq ▸ hlater)
      rw [ih hrest hlater, Function.update_of_ne hne]
      omega

/-- One element of a list without duplicates loses the property. -/
theorem countP_downdate [DecidableEq A] (hnodup : l.Nodup) (hmem : a ∈ l) (hholds : p a = true) :
    l.countP (Function.update p a false) + 1 = l.countP p := by
  have hback := countP_update hnodup hmem (Function.update_self a false p)
  rw [Function.update_idem, ← hholds, Function.update_eq_self] at hback
  exact hback.symm

end Counting

section Positions

variable {A B : Type} {l : List A} {f : A → B} {i : Nat} {a b : A}

/-- An element replaced by one with the same image. -/
theorem map_set_same (h : l[i]? = some a) (hf : f b = f a) : (l.set i b).map f = l.map f := by
  apply List.ext_getElem?
  intro j
  rw [List.map_set, List.getElem?_set]
  by_cases hj : i = j
  · subst hj
    have hbound := (List.getElem?_eq_some_iff.mp h).1
    rw [if_pos rfl, List.length_map, if_pos hbound, List.getElem?_map, h, Option.map_some, hf]
  · rw [if_neg hj]

/-- The elements of a list with one replaced. -/
theorem getElem?_set_cases {j : Nat} {x : A} (h : (l.set i b)[j]? = some x) :
    j = i ∧ x = b ∨ j ≠ i ∧ l[j]? = some x := by
  rw [List.getElem?_set] at h
  by_cases hj : i = j
  · rw [if_pos hj] at h
    split_ifs at h
    cases h
    exact .inl ⟨hj.symm, rfl⟩
  · rw [if_neg hj] at h
    exact .inr ⟨fun heq => hj heq.symm, h⟩

end Positions

/-! Lists that enumerate, for each key, the rows of a table that have it. -/

section Listings

variable {I K : Type} {lists : K → List I} {key : I → Option K} {i : I} {k : K}

/-- Each list has exactly the rows with its key, each of them once. -/
structure Listed (lists : K → List I) (key : I → Option K) : Prop where
  nodup : ∀ k, (lists k).Nodup
  mem : ∀ k i, i ∈ lists k ↔ key i = some k

theorem listed_empty : Listed (fun _ : K => ([] : List I)) fun _ => none where
  nodup _ := List.nodup_nil
  mem _ _ := by simp

theorem Listed.finite (h : Listed lists key) (p : I → Prop) (k : K) :
    {i | key i = some k ∧ p i}.Finite := by
  apply (List.finite_toSet (lists k)).subset
  intro i hi
  exact (h.mem k i).mpr hi.1

/-- Counting along a list counts the rows with its key. -/
theorem Listed.countP (h : Listed lists key) (p : I → Bool) (k : K) :
    (lists k).countP p = {i | key i = some k ∧ p i = true}.ncard := by
  classical
  have hrows : {i | key i = some k ∧ p i = true} = (((lists k).filter p).toFinset : Set I) := by
    ext i
    simp [h.mem]
  rw [hrows, Set.ncard_coe_finset, List.toFinset_card_of_nodup ((h.nodup k).filter p),
    List.countP_eq_length_filter]

variable [DecidableEq I] [DecidableEq K]

/-- A row that had no key is listed under its new one. -/
theorem Listed.append (h : Listed lists key) (hkey : key i = none) (k : K) :
    Listed (Function.update lists k (lists k ++ [i])) (Function.update key i (some k)) := by
  have hnew : ∀ k', i ∉ lists k' := by
    intro k' hmem
    rw [h.mem, hkey] at hmem
    cases hmem
  refine ⟨?_, ?_⟩
  · intro k'
    by_cases hk : k' = k
    · rw [hk, Function.update_self]
      exact (h.nodup k).append (List.nodup_singleton i)
        (List.disjoint_singleton.mpr (hnew k))
    · rw [Function.update_of_ne hk]
      exact h.nodup k'
  · intro k' i'
    by_cases hi : i' = i
    · rw [hi, Function.update_self, Option.some.injEq]
      by_cases hk : k' = k
      · simp [hk]
      · rw [Function.update_of_ne hk]
        simp [hnew k', Ne.symm hk]
    · rw [Function.update_of_ne hi, ← h.mem]
      by_cases hk : k' = k
      · simp [hk, hi]
      · rw [Function.update_of_ne hk]

end Listings

/-- Consecutive pages of a list, put together again. -/
theorem flatMap_pages {A : Type} (xs : List A) (limit count : Nat) :
    (List.range count).flatMap (fun page => (xs.drop (page * limit)).take limit) =
      xs.take (count * limit) := by
  induction count with
  | zero => simp
  | succ count ih =>
    rw [List.range_succ, List.flatMap_append, ih, List.flatMap_singleton, Nat.add_mul, one_mul,
      List.take_add]

/-! Counters of what has come and not yet gone. -/

section Turnover

variable {A K : Type} [DecidableEq K] {f f' : K → Option Nat} {key : A → K} {gone came : List A} {a : A}

/-- Where there is a counter, it counts what has come under its key and not gone. -/
def Tracks (f : K → Option Nat) (key : A → K) (gone came : List A) : Prop :=
  ∀ k n, f k = some n → n + gone.countP (fun x => key x = k) = came.countP fun x => key x = k

theorem Tracks.raise (h : Tracks f key gone came)
    (hf : f' = Function.update f (key a) ((f (key a)).map (· + 1))) :
    Tracks f' key gone (came ++ [a]) := by
  intro k n hn
  rw [hf] at hn
  by_cases hk : k = key a
  · subst hk
    rw [Function.update_self] at hn
    obtain ⟨m, hm, rfl⟩ := Option.map_eq_some_iff.mp hn
    have hold := h (key a) m hm
    rw [countP_snoc_of_pos (q := fun x => key x = key a) rfl]
    omega
  · rw [Function.update_of_ne hk] at hn
    rw [countP_snoc_of_neg fun heq => hk heq.symm]
    exact h k n hn

/-- The counter is lower by what goes. -/
theorem Tracks.lower (h : Tracks f key gone came)
    (hf : f = Function.update f' (key a) ((f' (key a)).map (· + 1))) :
    Tracks f' key (gone ++ [a]) came := by
  intro k n hn
  by_cases hk : k = key a
  · subst hk
    have hbefore : f (key a) = some (n + 1) := by
      rw [hf, Function.update_self, hn]
      rfl
    have hold := h (key a) (n + 1) hbefore
    rw [countP_snoc_of_pos (q := fun x => key x = key a) rfl]
    omega
  · have hbefore : f k = some n := by
      rw [hf, Function.update_of_ne hk]
      exact hn
    rw [countP_snoc_of_neg fun heq => hk heq.symm]
    exact h k n hbefore

/-- A counter starts anew when all that has come under its key is gone. -/
theorem Tracks.restart (h : Tracks f key gone came) {k : K}
    (hk : gone.countP (fun x => key x = k) = came.countP fun x => key x = k)
    (hf : f' = Function.update f k (some 0)) : Tracks f' key gone came := by
  intro k' n hn
  rw [hf] at hn
  by_cases hsame : k' = k
  · rw [hsame, Function.update_self] at hn
    cases hn
    rw [hsame, Nat.zero_add, hk]
  · rw [Function.update_of_ne hsame] at hn
    exact h k' n hn

/-- A total counter as one that may be missing. -/
theorem tracks_total {f : K → Nat} : Tracks (fun k => some (f k)) key gone came ↔
    ∀ k, f k + gone.countP (fun x => key x = k) = came.countP fun x => key x = k := by
  constructor
  · exact fun h k => h k (f k) rfl
  · intro h k n hn
    cases hn
    exact h k

/-- When no more of anything has gone than has come, and less of something, less has gone of all that has
one of its properties. -/
theorem countP_lt_of_count_lt [DecidableEq A] {p : A → Bool}
    (hle : ∀ x, gone.countP (fun y => y = x) ≤ came.countP fun y => y = x)
    (hlt : gone.countP (fun y => y = a) < came.countP fun y => y = a) (ha : p a = true) :
    gone.countP p < came.countP p := by
  have hcount : ∀ (l : List A) x, l.countP (fun y => y = x) = l.count x := by
    intro l x
    rw [List.count_eq_countP]
    rfl
  simp only [hcount] at hle hlt
  have hmultiset : ((a :: gone : List A) : Multiset A) ≤ (came : Multiset A) := by
    rw [Multiset.le_iff_count]
    intro x
    rw [Multiset.coe_count, Multiset.coe_count, List.count_cons]
    by_cases hx : a = x
    · subst hx
      rw [beq_self_eq_true, if_pos rfl]
      exact hlt
    · rw [beq_eq_false_iff_ne.mpr hx, if_neg Bool.false_ne_true]
      exact hle x
  have htotal := Multiset.countP_le_of_le (fun x => p x = true) hmultiset
  rw [Multiset.coe_countP, Multiset.coe_countP] at htotal
  simp only [Bool.decide_eq_true] at htotal
  rwa [List.countP_cons, if_pos ha] at htotal

end Turnover

end ChainVerse
