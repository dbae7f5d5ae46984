import ChainVerse.Framework.Machine
import Mathlib.Data.Set.Insert

namespace ChainVerse

/-! Two computations side by side: both succeed with related values, or both are refused for one
reason. -/

section Lockstep

variable {ε α α' β β' : Type}

/-- The two computations agree, up to a relation between their values. -/
inductive Alike (R : α → β → Prop) : Except ε α → Except ε β → Prop where
  | ok {a : α} {b : β} (related : R a b) : Alike R (.ok a) (.ok b)
  | error (e : ε) : Alike R (.error e) (.error e)

variable {R : α → β → Prop} {Q : α' → β' → Prop} {x : Except ε α} {y : Except ε β}

theorem Alike.cases (h : Alike R x y) : (∃ a b, x = .ok a ∧ y = .ok b ∧ R a b) ∨
    ∃ e, x = .error e ∧ y = .error e := by
  cases h with
  | ok hrelated => exact .inl ⟨_, _, rfl, rfl, hrelated⟩
  | error e => exact .inr ⟨e, rfl, rfl⟩

theorem alike_refl (x : Except ε α) : Alike Eq x x := by
  cases x with
  | ok a => exact .ok rfl
  | error e => exact .error e

theorem Alike.bind {f : α → Except ε α'} {g : β → Except ε β'} (h : Alike R x y)
    (hfg : ∀ a b, R a b → Alike Q (f a) (g b)) : Alike Q (x >>= f) (y >>= g) := by
  cases h with
  | ok hrelated => exact hfg _ _ hrelated
  | error e => exact .error e

/-- A guard that both computations pass, or neither. -/
theorem Alike.guard (guard : Except ε Unit) {f : Unit → Except ε α'} {g : Unit → Except ε β'}
    (h : guard = .ok () → Alike Q (f ()) (g ())) : Alike Q (guard >>= f) (guard >>= g) := by
  cases guard with
  | ok => exact h rfl
  | error e => exact .error e

theorem Alike.map {f : α → α'} {g : β → β'} (h : Alike R x y)
    (hfg : ∀ a b, R a b → Q (f a) (g b)) : Alike Q (f <$> x) (g <$> y) := by
  cases h with
  | ok hrelated => exact .ok (hfg _ _ hrelated)
  | error e => exact .error e

namespace Machine

variable {S I O E : Type} (m : Machine S I O E)

/-- How each call of a sequence ends: `none` where it is accepted, else why it is refused. -/
def verdicts (s : S) : List I → List (Option E)
  | [] => []
  | i :: is =>
    match m.step s i with
    | .ok (_, s') => none :: verdicts s' is
    | .error e => some e :: verdicts s is

/-- Every call of a sequence finds the store as `P` asks. -/
def Along (P : S → I → Prop) (s : S) : List I → Prop
  | [] => True
  | i :: is => P s i ∧ Along P (m.next s i) is

instance decidableAlong {P : S → I → Prop} [∀ s i, Decidable (P s i)] (s : S) :
    (is : List I) → Decidable (m.Along P s is)
  | [] => isTrue trivial
  | i :: is =>
    @instDecidableAnd _ _ _ (decidableAlong (m.next s i) is)

variable {m}

theorem Along.and {P : S → I → Prop} {Q : I → Prop} {s : S} {is : List I} (h : m.Along P s is)
    (hQ : ∀ i ∈ is, Q i) : m.Along (fun s i => Q i ∧ P s i) s is := by
  induction is generalizing s with
  | nil => trivial
  | cons i is ih =>
    have htail : ∀ j ∈ is, Q j := fun j hj => hQ j (List.mem_cons_of_mem i hj)
    exact ⟨⟨hQ i List.mem_cons_self, h.1⟩, ih h.2 htail⟩

theorem verdicts_cons_ok {s s' : S} {i : I} {o : O} (h : m.step s i = .ok (o, s')) (is : List I) :
    m.verdicts s (i :: is) = none :: m.verdicts s' is := by
  simp [verdicts, h]

theorem verdicts_cons_error {s : S} {i : I} {e : E} (h : m.step s i = .error e) (is : List I) :
    m.verdicts s (i :: is) = some e :: m.verdicts s is := by
  simp [verdicts, h]

/-- Stores that each call leaves related, with one verdict, stay related over a sequence of calls. -/
theorem run_lockstep {R : S → S → Prop} {P : S → I → Prop}
    (hstep : ∀ s t i, R s t → P s i →
      Alike (fun after after' : O × S => R after.2 after'.2) (m.step s i) (m.step t i))
    {s t : S} (h : R s t) {is : List I} (his : m.Along P s is) :
    m.verdicts s is = m.verdicts t is ∧ R (m.run s is) (m.run t is) := by
  induction is generalizing s t with
  | nil => exact ⟨rfl, h⟩
  | cons i is ih =>
    obtain ⟨hi, htail⟩ := his
    rcases (hstep s t i h hi).cases with ⟨after, after', hs, ht, hrelated⟩ | ⟨e, hs, ht⟩
    · rw [m.next_ok hs] at htail
      obtain ⟨hverdicts, hrun⟩ := ih hrelated htail
      rw [verdicts_cons_ok hs, verdicts_cons_ok ht, hverdicts, run_cons, run_cons, m.next_ok hs,
        m.next_ok ht]
      exact ⟨rfl, hrun⟩
    · rw [m.next_error hs] at htail
      obtain ⟨hverdicts, hrun⟩ := ih h htail
      rw [verdicts_cons_error hs, verdicts_cons_error ht, hverdicts, run_cons, run_cons,
        m.next_error hs, m.next_error ht]
      exact ⟨rfl, hrun⟩

end Machine

end Lockstep

/-! Two machines of different kinds that accept the same calls, and tables that agree under a renaming
of their keys. -/

section Together

variable {S T I J O Q E F : Type}

/-- One call of each machine: accepted by both, with related stores after it, or refused by both. -/
inductive Together (R : S → T → Prop) : Except E (O × S) → Except F (Q × T) → Prop where
  | accepted {o : O} {q : Q} {s : S} {t : T} (related : R s t) : Together R (.ok (o, s)) (.ok (q, t))
  | refused (e : E) (f : F) : Together R (.error e) (.error f)

namespace Machine

/-- Which calls of a sequence are accepted. -/
def acceptances (m : Machine S I O E) (s : S) : List I → List Bool
  | [] => []
  | i :: is =>
    match m.step s i with
    | .ok (_, s') => true :: acceptances m s' is
    | .error _ => false :: acceptances m s is

variable {m : Machine S I O E} {n : Machine T J Q F} {R : S → T → Prop} {f : I → J}

theorem acceptances_cons (s : S) (i : I) (is : List I) :
    m.acceptances s (i :: is) = m.acceptances s [i] ++ m.acceptances (m.next s i) is := by
  rcases h : m.step s i with e | ⟨o, s'⟩
  · rw [m.next_error h]
    simp only [acceptances, h, List.singleton_append]
  · rw [m.next_ok h]
    simp only [acceptances, h, List.singleton_append]

theorem acceptances_length (s : S) (is : List I) : (m.acceptances s is).length = is.length := by
  induction is generalizing s with
  | nil => rfl
  | cons i is ih =>
    rw [acceptances_cons, List.length_append, ih, List.length_cons, Nat.add_comm]
    rcases h : m.step s i with e | ⟨o, s'⟩ <;> simp [acceptances, h]

/-- A call taken together ends alike and leaves related stores. -/
theorem together_next {s : S} {t : T} {i : I} {j : J} (h : R s t)
    (hboth : Together R (m.step s i) (n.step t j)) :
    m.acceptances s [i] = n.acceptances t [j] ∧ R (m.next s i) (n.next t j) := by
  cases hm : m.step s i with
  | ok after =>
    cases hn : n.step t j with
    | ok after' =>
      rw [hm, hn] at hboth
      cases hboth with
      | accepted hrelated =>
        rw [m.next_ok hm, n.next_ok hn]
        exact ⟨by simp only [acceptances, hm, hn], hrelated⟩
    | error e' =>
      rw [hm, hn] at hboth
      cases hboth
  | error e =>
    cases hn : n.step t j with
    | ok after' =>
      rw [hm, hn] at hboth
      cases hboth
    | error e' =>
      rw [m.next_error hm, n.next_error hn]
      exact ⟨by simp only [acceptances, hm, hn], h⟩

/-- What holds of every call of a sequence, after the calls before it, holds of the first and of every
other. -/
theorem forall_splits_cons {A : List I → I → Prop} {j : I} {is : List I} :
    (∀ earlier i later, j :: is = earlier ++ i :: later → A earlier i) ↔
      A [] j ∧ ∀ earlier i later, is = earlier ++ i :: later → A (j :: earlier) i := by
  constructor
  · intro hall
    refine ⟨hall [] j is rfl, ?_⟩
    intro earlier i later his
    exact hall (j :: earlier) i later (congrArg (j :: ·) his)
  · intro hall earlier i later his
    cases earlier with
    | nil =>
      cases his
      exact hall.1
    | cons k earlier =>
      obtain ⟨rfl, hrest⟩ := List.cons.inj his
      exact hall.2 earlier i later hrest

variable {P : T → I → Prop}

/-- Machines whose related stores take every call together on which `P` holds have related stores after a
sequence of such calls. -/
theorem run_together (hstep : ∀ s t i, R s t → P t i → Together R (m.step s i) (n.step t (f i)))
    {s : S} {t : T} (h : R s t) {is : List I}
    (his : ∀ earlier i later, is = earlier ++ i :: later → P (n.run t (earlier.map f)) i) :
    R (m.run s is) (n.run t (is.map f)) := by
  induction is generalizing s t with
  | nil => exact h
  | cons i is ih =>
    obtain ⟨hi, htail⟩ := forall_splits_cons.mp his
    exact ih (together_next h (hstep s t i h hi)).2 htail

/-- Where the machines part on every call on which `P` fails, they accept the same calls of a sequence
exactly when `P` holds on each. -/
theorem acceptances_eq_iff
    (hstep : ∀ s t i, R s t → P t i → Together R (m.step s i) (n.step t (f i)))
    (hpart : ∀ s t i, R s t → ¬P t i → m.acceptances s [i] ≠ n.acceptances t [f i])
    {s : S} {t : T} (h : R s t) (is : List I) :
    m.acceptances s is = n.acceptances t (is.map f) ↔
      ∀ earlier i later, is = earlier ++ i :: later → P (n.run t (earlier.map f)) i := by
  induction is generalizing s t with
  | nil => simp [acceptances]
  | cons i is ih =>
    rw [forall_splits_cons, List.map_cons, acceptances_cons, n.acceptances_cons]
    by_cases hi : P t i
    · obtain ⟨hhead, hnext⟩ := together_next h (hstep s t i h hi)
      rw [hhead, List.append_cancel_left_eq, ih hnext]
      exact (and_iff_right hi).symm
    · have hhead := hpart s t i h hi
      constructor
      · intro hsame
        have hlength : (m.acceptances s [i]).length = (n.acceptances t [f i]).length := by
          rw [acceptances_length, acceptances_length, List.length_singleton, List.length_singleton]
        exact absurd (List.append_inj hsame hlength).1 hhead
      · intro hall
        exact absurd hall.1 hi

end Machine

end Together

section Mirrors

variable {K X V : Type} {f : X → K} {table : K → Option V} {rows : X → Option V}

/-- The table has the given rows under their names, and no others. -/
structure Mirrored (f : X → K) (table : K → Option V) (rows : X → Option V) : Prop where
  inside : ∀ x, table (f x) = rows x
  outside : ∀ k, k ∉ Set.range f → table k = none

theorem mirrored_empty : Mirrored f (fun _ => (none : Option V)) fun _ => none where
  inside _ := rfl
  outside _ _ := rfl

theorem Mirrored.some_iff (h : Mirrored f table rows) {k : K} {v : V} :
    table k = some v ↔ ∃ x, f x = k ∧ rows x = some v := by
  constructor
  · intro hk
    by_cases hrange : k ∈ Set.range f
    · obtain ⟨x, rfl⟩ := hrange
      exact ⟨x, rfl, (h.inside x).symm.trans hk⟩
    · rw [h.outside k hrange] at hk
      cases hk
  · intro hx
    obtain ⟨x, rfl, hrow⟩ := hx
    rw [h.inside, hrow]

/-- The same row written on both sides. -/
theorem Mirrored.update [DecidableEq K] [DecidableEq X] (h : Mirrored f table rows)
    (hf : f.Injective) (x : X) (v : Option V) :
    Mirrored f (Function.update table (f x) v) (Function.update rows x v) := by
  constructor
  · intro y
    by_cases hy : y = x
    · rw [hy, Function.update_self, Function.update_self]
    · rw [Function.update_of_ne hy, Function.update_of_ne (hf.ne hy), h.inside]
  · intro k hk
    have hne : k ≠ f x := by
      intro heq
      exact hk ⟨x, heq.symm⟩
    rw [Function.update_of_ne hne, h.outside k hk]

end Mirrors

end ChainVerse
