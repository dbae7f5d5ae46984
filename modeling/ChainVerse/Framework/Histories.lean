import ChainVerse.Framework.Machine
import Mathlib.Logic.Function.Basic
import Mathlib.Logic.Relation
import Mathlib.Tactic.Common
import Mathlib.Data.List.Chain
import Mathlib.Data.List.GetD

namespace ChainVerse

/-! Chains of nodes that each point at the one after and the one before. -/

section Chains

variable {N V : Type} {next prev : N → Option N} {a b : N}

/-- The two pointers are each other's inverse, and no chain comes back. -/
structure Chained (next prev : N → Option N) : Prop where
  inverse : ∀ a b, next a = some b ↔ prev b = some a
  acyclic : ∀ a, ¬ Relation.TransGen (fun x y => next x = some y) a a

theorem chained_empty : Chained (fun _ : N => none) fun _ => none where
  inverse a b := by simp
  acyclic a h := by
    obtain ⟨b, hab, _⟩ := Relation.TransGen.head'_iff.mp h
    cases hab

/-- What neighbours share is shared along a whole chain. -/
theorem shared_along {f : N → V} (hf : ∀ a b, next a = some b → f b = f a)
    (h : Relation.TransGen (fun x y => next x = some y) a b) : f b = f a := by
  induction h with
  | single hab => exact hf _ _ hab
  | tail _ hbc ih => exact (hf _ _ hbc).trans ih

variable [DecidableEq N]

/-- A step of the longer chain is the new one or one of the old ones. -/
theorem append_step {x y : N} (h : Function.update next a (some b) x = some y) :
    x = a ∧ y = b ∨ next x = some y := by
  by_cases hx : x = a
  · rw [hx, Function.update_self, Option.some.injEq] at h
    exact .inl ⟨hx, h.symm⟩
  · rw [Function.update_of_ne hx] at h
    exact .inr h

/-- A node of its own is put behind the last one of a chain. -/
theorem Chained.append (h : Chained next prev) (ha : next a = none) (hnext : next b = none)
    (hprev : prev b = none) (hne : a ≠ b) :
    Chained (Function.update next a (some b)) (Function.update prev b (some a)) := by
  refine ⟨?_, ?_⟩
  · intro x y
    by_cases hx : x = a
    · by_cases hy : y = b
      · rw [hx, hy, Function.update_self, Function.update_self]
        simp
      · rw [hx, Function.update_self, Function.update_of_ne hy, ← h.inverse, ha, Option.some.injEq]
        simp [Ne.symm hy]
    · rw [Function.update_of_ne hx]
      by_cases hy : y = b
      · rw [hy, Function.update_self, h.inverse, hprev, Option.some.injEq]
        simp [Ne.symm hx]
      · rw [Function.update_of_ne hy]
        exact h.inverse x y
  · have hlast : ∀ y, Function.update next a (some b) b ≠ some y := by
      intro y hy
      rw [Function.update_of_ne hne.symm, hnext] at hy
      cases hy
    -- A way that does not end at the new node does not use it.
    have hold : ∀ x y, Relation.TransGen (fun x y => Function.update next a (some b) x = some y) x y →
        y = b ∨ Relation.TransGen (fun x y => next x = some y) x y := by
      intro x y hway
      induction hway with
      | single hstep => exact (append_step hstep).imp And.right .single
      | tail _ hstep ih =>
        rcases ih with rfl | hbefore
        · exact absurd hstep (hlast _)
        · exact (append_step hstep).imp And.right hbefore.tail
    intro x hcycle
    rcases hold x x hcycle with rfl | hbefore
    · obtain ⟨y, hstep, _⟩ := Relation.TransGen.head'_iff.mp hcycle
      exact hlast y hstep
    · exact h.acyclic x hbefore

end Chains

/-! Lists that grow at their end: the changes of a value, what has happened since a reset, and what has
happened after what. -/

section Trails

variable {C V : Type} {before after : C → V} {a b : V} {cs : List C} {c : C}

/-- Changes that lead from `a` to `b`, each from where the one before it led. -/
structure Trail (before after : C → V) (a : V) (cs : List C) (b : V) : Prop where
  first : ∀ c ∈ cs.head?, before c = a
  linked : cs.IsChain fun c d => before d = after c
  last : b = (cs.getLast?.map after).getD a

theorem trail_nil : Trail before after a [] a where
  first _ h := nomatch h
  linked := .nil
  last := rfl

/-- A trail goes on with a change from where it led. -/
theorem Trail.snoc (h : Trail before after a cs b) (hc : before c = b) :
    Trail before after a (cs ++ [c]) (after c) := by
  refine ⟨?_, ?_, ?_⟩
  · cases cs with
    | nil =>
      intro d hd
      cases hd
      exact hc.trans h.last
    | cons e es => exact h.first
  · apply h.linked.append (.singleton c)
    intro d hd e he
    cases he
    have hlast := h.last
    rw [Option.mem_def.mp hd] at hlast
    exact hc.trans hlast
  · rw [List.getLast?_concat]
    rfl

end Trails

section Since

variable {A : Type} {p reset : A → Prop} {l : List A} {a : A}

/-- Something has happened that no later element of the list has undone. -/
def Since (p reset : A → Prop) (l : List A) : Prop :=
  ∃ earlier x later, l = earlier ++ x :: later ∧ p x ∧ ∀ y ∈ later, ¬ reset y

theorem not_since_nil : ¬Since p reset ([] : List A) := by
  rintro ⟨earlier, x, later, hsplit, _⟩
  exact absurd hsplit.symm (List.append_ne_nil_of_right_ne_nil _ (List.cons_ne_nil _ _))

/-- It holds after one more element when that element is of the kind, or when it held before and
that element undoes nothing. -/
theorem since_snoc : Since p reset (l ++ [a]) ↔ p a ∨ Since p reset l ∧ ¬ reset a := by
  constructor
  · intro h
    obtain ⟨earlier, x, later, hsplit, hx, hlater⟩ := h
    rcases List.eq_nil_or_concat later with rfl | ⟨rest, y, rfl⟩
    · obtain ⟨_, hlast⟩ := List.append_inj' hsplit rfl
      cases hlast
      exact .inl hx
    · rw [List.concat_eq_append, ← List.cons_append, ← List.append_assoc] at hsplit
      obtain ⟨hrest, hlast⟩ := List.append_inj' hsplit rfl
      cases hlast
      refine .inr ⟨⟨earlier, x, rest, hrest, hx, ?_⟩, ?_⟩
      · intro y hy
        apply hlater
        rw [List.concat_eq_append]
        exact List.mem_append_left _ hy
      · apply hlater
        rw [List.concat_eq_append]
        exact List.mem_concat_self
  · intro h
    rcases h with ha | ⟨⟨earlier, x, later, rfl, hx, hlater⟩, ha⟩
    · exact ⟨l, a, [], rfl, ha, fun y hy => absurd hy List.not_mem_nil⟩
    · refine ⟨earlier, x, later ++ [a], List.append_assoc _ _ _, hx, ?_⟩
      intro y hy
      rcases List.mem_append.mp hy with hold | hnew
      · exact hlater y hold
      · rwa [List.mem_singleton.mp hnew]

section Machines

variable {S I O E : Type} {m : Machine S I O E} {Inv P : S → Prop} {sets resets : Entry S I O → Prop} {s : S}

/-- What each accepted call sets, takes away or leaves as it is holds after a run exactly when the last call
that touched it has set it. -/
theorem Machine.run_since_on (hinv : ∀ is, Inv (m.run s is)) (h0 : ¬P s)
    (hstep : ∀ s i o s', Inv s → m.step s i = .ok (o, s') →
      (P s' ↔ sets ⟨s, i, o, s'⟩ ∨ P s ∧ ¬resets ⟨s, i, o, s'⟩)) (is : List I) :
    P (m.run s is) ↔ Since sets resets (m.journal s is) := by
  apply Machine.run_journal_invariant_on (A := fun e => Inv e.pre) (P := fun s es => P s ↔ Since sets resets es)
  · exact ⟨fun h => absurd h h0, fun h => absurd h not_since_nil⟩
  · intro es s i o s' hs h hline
    rw [since_snoc, ← h]
    exact hstep s i o s' hs hline
  · exact fun e he => Machine.journal_found hinv he

theorem Machine.run_since (h0 : ¬P s)
    (hstep : ∀ s i o s', m.step s i = .ok (o, s') →
      (P s' ↔ sets ⟨s, i, o, s'⟩ ∨ P s ∧ ¬resets ⟨s, i, o, s'⟩)) (is : List I) :
    P (m.run s is) ↔ Since sets resets (m.journal s is) :=
  @Machine.run_since_on _ _ _ _ _ (fun _ => True) _ _ _ _ (fun _ => trivial) h0
    (fun s i o s' _ => hstep s i o s') is

end Machines

end Since

section Happened

variable {A : Type} {p : List A → A → Prop} {l : List A} {a : A}

/-- The list has an element of a kind that depends on what stands before it. -/
def Happened (p : List A → A → Prop) (l : List A) : Prop :=
  ∃ earlier x later, l = earlier ++ x :: later ∧ p earlier x

theorem Happened.snoc (h : Happened p l) (a : A) : Happened p (l ++ [a]) := by
  obtain ⟨earlier, x, later, rfl, hx⟩ := h
  exact ⟨earlier, x, later ++ [a], List.append_assoc _ _ _, hx⟩

theorem happened_last (h : p l a) : Happened p (l ++ [a]) := ⟨l, a, [], rfl, h⟩

end Happened

section Yields

variable {A B : Type} {f : A → Option B} {l : List A} {a : A} {b : B}

/-- What the elements of a list yield, after one more element. -/
theorem mem_filterMap_snoc :
    b ∈ (l ++ [a]).filterMap f ↔ b ∈ l.filterMap f ∨ f a = some b := by
  rw [List.filterMap_append, List.mem_append]
  simp only [List.mem_filterMap, List.mem_singleton, exists_eq_left]

theorem mem_filterMap_snoc_none (h : f a = none) :
    b ∈ (l ++ [a]).filterMap f ↔ b ∈ l.filterMap f := by
  rw [mem_filterMap_snoc, h]
  simp

end Yields

end ChainVerse
