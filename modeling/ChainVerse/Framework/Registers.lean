import ChainVerse.Framework.Tables
import Mathlib.Data.List.Range

namespace ChainVerse

/-! Logs whose lines are numbered from one, a log for each key. -/

section Logs

variable {K V : Type} {count count' : K → Nat} {line line' : K × Nat → Option V} {k : K} {v : V}

/-- The lines of every log are numbered from one to its count. -/
structure Numbered (count : K → Nat) (line : K × Nat → Option V) : Prop where
  dense : ∀ k n, line (k, n) ≠ none ↔ 1 ≤ n ∧ n ≤ count k
  finite : {key | line key ≠ none}.Finite

theorem numbered_empty : Numbered (fun _ => 0) fun _ : K × Nat => (none : Option V) where
  dense k n := by
    constructor
    · exact fun h => absurd rfl h
    · intro h
      omega
  finite := by
    have hnone : {key : K × Nat | (none : Option V) ≠ none} = ∅ := by
      ext key
      simp
    rw [hnone]
    exact Set.finite_empty

/-- The line after the last one is not written. -/
theorem Numbered.fresh (h : Numbered count line) (k : K) : line (k, count k + 1) = none := by
  by_contra hwritten
  have hle := ((h.dense k (count k + 1)).mp hwritten).2
  omega

/-- One log has one more line. -/
structure Appends [DecidableEq K] (count : K → Nat) (line : K × Nat → Option V) (count' : K → Nat)
    (line' : K × Nat → Option V) (k : K) (v : V) : Prop where
  counted : count' = Function.update count k (count k + 1)
  written : line' = Function.update line (k, count k + 1) (some v)

variable [DecidableEq K]

theorem Numbered.append (h : Numbered count line) (happend : Appends count line count' line' k v) :
    Numbered count' line' where
  dense := by
    intro k' n
    rw [happend.counted, happend.written]
    by_cases hk : k' = k
    · subst hk
      rw [Function.update_self]
      by_cases hn : n = count k' + 1
      · rw [hn, Function.update_self]
        simp
      · rw [Function.update_of_ne fun heq => hn (congrArg Prod.snd heq), h.dense]
        omega
    · rw [Function.update_of_ne hk, Function.update_of_ne fun heq => hk (congrArg Prod.fst heq), h.dense]
  finite := by
    have hwritten := @finite_update_row _ _ _ (· ≠ none) _ h.finite (k, count k + 1) (some v)
    rwa [happend.written]

/-- A line that has been written stays. -/
theorem Numbered.keeps (h : Numbered count line) (happend : Appends count line count' line' k v)
    {key : K × Nat} {row : V} (hrow : line key = some row) : line' key = some row := by
  rw [happend.written]
  exact update_keeps_row (h.fresh k) hrow

/-- The lines with a property, after one more. -/
theorem Numbered.ncard_append (h : Numbered count line)
    (happend : Appends count line count' line' k v) (p : Option V → Prop) [DecidablePred p]
    (hnone : ¬p none) :
    {key | p (line' key)}.ncard = {key | p (line key)}.ncard + if p (some v) then 1 else 0 := by
  have hfinite : {key | p (line key)}.Finite := by
    apply h.finite.subset
    intro key hkey hblank
    rw [Set.mem_ofPred_eq, hblank] at hkey
    exact hnone hkey
  have hrow := ncard_update_row hfinite (k, count k + 1) (some v)
  rw [h.fresh k, if_neg hnone, Nat.add_zero] at hrow
  rwa [happend.written]

end Logs

/-! Tables whose rows are numbered from zero: new rows come at the end, old ones may be replaced. -/

section Registers

variable {V : Type} {row : Nat → Option V} {next id : Nat} {p : V → Bool} {v v' : V}

/-- The numbers up to `next` have rows, and no others. -/
def Contiguous (row : Nat → Option V) (next : Nat) : Prop := ∀ id, (∃ v, row id = some v) ↔ id < next

theorem contiguous_empty : Contiguous (fun _ => (none : Option V)) 0 := by
  intro id
  simp

theorem Contiguous.fresh (h : Contiguous row next) : row next = none := by
  cases hrow : row next with
  | none => rfl
  | some v =>
    have hlt := (h next).mp ⟨v, hrow⟩
    omega

theorem Contiguous.lt (h : Contiguous row next) (hrow : row id = some v) : id < next := (h id).mp ⟨v, hrow⟩

theorem Contiguous.append (h : Contiguous row next) (v : V) :
    Contiguous (Function.update row next (some v)) (next + 1) := by
  intro id
  by_cases hid : id = next
  · rw [hid, Function.update_self]
    simp
  · rw [Function.update_of_ne hid, h id]
    omega

theorem Contiguous.replace (h : Contiguous row next) (hrow : row id = some v) (v' : V) :
    Contiguous (Function.update row id (some v')) next := by
  intro x
  by_cases hx : x = id
  · have hlt := h.lt hrow
    rw [hx, Function.update_self]
    simp [hlt]
  · rw [Function.update_of_ne hx]
    exact h x

/-- The rows with a property, in their order. -/
def having (row : Nat → Option V) (next : Nat) (p : V → Bool) : List Nat :=
  (List.range next).filter fun id => (row id).any p

theorem having_append (row : Nat → Option V) (next : Nat) (p : V → Bool) (v : V) :
    having (Function.update row next (some v)) (next + 1) p =
      having row next p ++ if p v then [next] else [] := by
  have hold : (List.range next).filter (fun id => (Function.update row next (some v) id).any p) =
      (List.range next).filter fun id => (row id).any p := by
    apply List.filter_congr
    intro id hid
    have hne : id ≠ next := by
      have hlt := List.mem_range.mp hid
      omega
    rw [Function.update_of_ne hne]
  unfold having
  rw [List.range_succ, List.filter_append, hold, List.filter_singleton, Function.update_self,
    Option.any_some]
  cases p v with
  | true => rfl
  | false => rfl

/-- A row that is replaced by one alike leaves the list. -/
theorem having_replace (next : Nat) (p : V → Bool) (hrow : row id = some v) (v' : V)
    (hp : p v' = p v) :
    having (Function.update row id (some v')) next p = having row next p := by
  apply List.filter_congr
  intro x _
  by_cases hx : x = id
  · rw [hx, Function.update_self, hrow, Option.any_some, Option.any_some, hp]
  · rw [Function.update_of_ne hx]

/-- How many rows have a property. -/
def tallied (row : Nat → Option V) (next : Nat) (p : V → Bool) : Nat := (having row next p).length

theorem tallied_append (row : Nat → Option V) (next : Nat) (p : V → Bool) (v : V) :
    tallied (Function.update row next (some v)) (next + 1) p =
      tallied row next p + if p v then 1 else 0 := by
  unfold tallied
  rw [having_append, List.length_append]
  cases p v with
  | true => rfl
  | false => rfl

/-- A row that is replaced changes the number by its own share. -/
theorem tallied_replace (hlt : id < next) (hrow : row id = some v) (p : V → Bool) (v' : V) :
    tallied (Function.update row id (some v')) next p + (if p v then 1 else 0) =
      tallied row next p + if p v' then 1 else 0 := by
  have hsum : ∀ r : Nat → Option V, (tallied r next p : Int) =
      ∑ x ∈ Finset.range next, (r x).elim 0 fun w => if p w then 1 else 0 := by
    intro r
    rw [tallied, having, ← List.countP_eq_length_filter]
    clear hlt
    induction next with
    | zero => rfl
    | succ next ih =>
      rw [List.range_succ, List.countP_append, Finset.sum_range_succ, ← ih, List.countP_singleton]
      cases r next with
      | none => simp
      | some w => cases hw : p w <;> simp [hw]
  have hmoved := sum_update_row (Finset.range next)
    (fun _ (entry : Option V) => entry.elim (0 : Int) fun w => if p w then 1 else 0) row
    (Finset.mem_range.mpr hlt) (some v')
  rw [← hsum, ← hsum, hrow] at hmoved
  simp only [Option.elim_some] at hmoved
  split_ifs at hmoved ⊢ <;> omega

/-- What the rows weigh together. -/
def weighed (row : Nat → Option V) (next : Nat) (weight : V → Int) : Int :=
  ∑ id ∈ Finset.range next, (row id).elim 0 weight

theorem weighed_append (row : Nat → Option V) (next : Nat) (weight : V → Int) (v : V) :
    weighed (Function.update row next (some v)) (next + 1) weight =
      weighed row next weight + weight v := by
  have hnew : next ∉ Finset.range next := by simp
  unfold weighed
  rw [Finset.sum_range_succ, Function.update_self,
    sum_update_row_of_notMem _ (fun _ (entry : Option V) => entry.elim 0 weight) _ hnew]
  rfl

theorem weighed_replace (hlt : id < next) (hrow : row id = some v) (weight : V → Int) (v' : V) :
    weighed (Function.update row id (some v')) next weight =
      weighed row next weight - weight v + weight v' := by
  have hmoved := sum_update_row (Finset.range next)
    (fun _ (entry : Option V) => entry.elim 0 weight) row (Finset.mem_range.mpr hlt) (some v')
  rw [hrow] at hmoved
  exact hmoved

end Registers

section Pages

variable {A B : Type} {f : A → Option B} {l : List A}

/-- What is cut out of a list of which every element counts is cut out of what it stands for. -/
theorem filterMap_drop_of_forall (h : ∀ x ∈ l, ∃ y, f x = some y) (n : Nat) :
    (l.drop n).filterMap f = (l.filterMap f).drop n := by
  induction l generalizing n with
  | nil => simp
  | cons x l ih =>
    obtain ⟨⟨y, hx⟩, hl⟩ := List.forall_mem_cons.mp h
    cases n with
    | zero => rfl
    | succ n => rw [List.drop_succ_cons, List.filterMap_cons_some hx, List.drop_succ_cons, ih hl]

theorem filterMap_take_of_forall (h : ∀ x ∈ l, ∃ y, f x = some y) (n : Nat) :
    (l.take n).filterMap f = (l.filterMap f).take n := by
  induction l generalizing n with
  | nil => simp
  | cons x l ih =>
    obtain ⟨⟨y, hx⟩, hl⟩ := List.forall_mem_cons.mp h
    cases n with
    | zero => rfl
    | succ n =>
      rw [List.take_succ_cons, List.filterMap_cons_some hx, List.filterMap_cons_some hx, List.take_succ_cons,
        ih hl]

theorem length_filterMap_of_forall (h : ∀ x ∈ l, ∃ y, f x = some y) : (l.filterMap f).length = l.length := by
  induction l with
  | nil => rfl
  | cons x l ih =>
    obtain ⟨⟨y, hx⟩, hl⟩ := List.forall_mem_cons.mp h
    rw [List.filterMap_cons_some hx, List.length_cons, List.length_cons, ih hl]

/-- A page that is read by its places is a slice. -/
theorem places_page (l : List A) (f : A → Option B) (count start : Nat) :
    (List.range' start count).filterMap (fun i => l[i]?.bind f) = ((l.drop start).take count).filterMap f := by
  induction count generalizing start with
  | zero => simp
  | succ count ih =>
    rw [List.range'_succ, List.filterMap_cons, ih]
    by_cases hin : start < l.length
    · rw [List.getElem?_eq_getElem hin, Option.bind_some, List.drop_eq_getElem_cons hin, List.take_succ_cons,
        List.filterMap_cons]
    · rw [List.getElem?_eq_none (by omega), Option.bind_none, List.drop_eq_nil_of_le (by omega),
        List.drop_eq_nil_of_le (by omega)]
      simp

/-- Where the end of the list cuts a page short, nothing is left to read. -/
theorem take_page (l : List A) (start limit : Nat) :
    (l.drop start).take (min l.length (start + limit) - start) = (l.drop start).take limit := by
  rw [List.take_eq_take_iff, List.length_drop]
  omega

end Pages

end ChainVerse
