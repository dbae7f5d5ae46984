import Mathlib.Tactic.Common

namespace ChainVerse

/-! Guarded computations. A call either returns or is refused with a reason; these lemmas
read a successful sequence of guards back as the conjunction of what each one checked. -/

section Guards

variable {ε α β : Type}

/-- Refuse with `e` when `bad` holds, otherwise go on. -/
def refuseIf (bad : Prop) [Decidable bad] (e : ε) : Except ε Unit :=
  if bad then .error e else .ok ()

/-- The value of `x`, or a refusal with `e` when there is none. -/
def orRefuse (x : Option α) (e : ε) : Except ε α :=
  match x with
  | some a => .ok a
  | none => .error e

/-- A sequenced computation succeeds exactly when each part does in turn. -/
@[simp] theorem bind_eq_ok {x : Except ε α} {f : α → Except ε β} {b : β} :
    (x >>= f) = .ok b ↔ ∃ a, x = .ok a ∧ f a = .ok b := by
  cases x <;> simp [bind, Except.bind]

@[simp] theorem bind_eq_error {x : Except ε α} {f : α → Except ε β} {e : ε} :
    (x >>= f) = .error e ↔ x = .error e ∨ ∃ a, x = .ok a ∧ f a = .error e := by
  cases x <;> simp [bind, Except.bind]

@[simp] theorem ok_bind (a : α) (f : α → Except ε β) : (Except.ok a >>= f) = f a := rfl

@[simp] theorem error_bind (e : ε) (f : α → Except ε β) :
    ((.error e : Except ε α) >>= f) = .error e := rfl

@[simp] theorem pure_eq_ok {a b : α} : (pure a : Except ε α) = .ok b ↔ a = b := by
  simp [pure, Except.pure]

@[simp] theorem pure_ne_error {a : α} {e : ε} : (pure a : Except ε α) ≠ .error e := by
  simp [pure, Except.pure]

@[simp] theorem map_eq_ok {x : Except ε α} {f : α → β} {b : β} :
    f <$> x = .ok b ↔ ∃ a, x = .ok a ∧ f a = b := by
  cases x <;> simp [Functor.map, Except.map]

@[simp] theorem map_eq_error {x : Except ε α} {f : α → β} {e : ε} :
    f <$> x = .error e ↔ x = .error e := by
  cases x <;> simp [Functor.map, Except.map]

@[simp] theorem refuseIf_eq_ok {bad : Prop} [Decidable bad] {e : ε} {u : Unit} :
    refuseIf bad e = .ok u ↔ ¬ bad := by
  by_cases h : bad <;> simp [refuseIf, h]

@[simp] theorem refuseIf_eq_error {bad : Prop} [Decidable bad] {e e' : ε} :
    refuseIf bad e = .error e' ↔ bad ∧ e = e' := by
  by_cases h : bad <;> simp [refuseIf, h]

@[simp] theorem toOption_eq_some {x : Except ε α} {a : α} : x.toOption = some a ↔ x = .ok a := by
  cases x <;> simp [Except.toOption]

@[simp] theorem orRefuse_eq_ok {x : Option α} {e : ε} {a : α} :
    orRefuse x e = .ok a ↔ x = some a := by
  cases x <;> simp [orRefuse]

@[simp] theorem orRefuse_eq_error {x : Option α} {e e' : ε} :
    orRefuse x e = .error e' ↔ x = none ∧ e = e' := by
  cases x <;> simp [orRefuse]

section Lists

variable {f : α → Except ε β} {xs : List α} {ys : List β}

theorem mapM_cons_eq_ok {x : α} :
    (x :: xs).mapM f = .ok ys ↔ ∃ y rest, f x = .ok y ∧ xs.mapM f = .ok rest ∧ y :: rest = ys := by
  rw [List.mapM_cons]
  simp only [bind_eq_ok, pure_eq_ok]
  constructor
  · rintro ⟨y, hy, rest, hrest, heq⟩
    exact ⟨y, rest, hy, hrest, heq⟩
  · rintro ⟨y, rest, hy, hrest, heq⟩
    exact ⟨y, hy, rest, hrest, heq⟩

/-- A traversal succeeds exactly when each of its elements does. -/
theorem exists_mapM_eq_ok : (∃ ys, xs.mapM f = .ok ys) ↔ ∀ x ∈ xs, ∃ y, f x = .ok y := by
  induction xs with
  | nil => simp
  | cons x xs ih =>
    simp only [mapM_cons_eq_ok, List.forall_mem_cons, ← ih]
    constructor
    · rintro ⟨_, y, rest, hy, hrest, _⟩
      exact ⟨⟨y, hy⟩, rest, hrest⟩
    · rintro ⟨⟨y, hy⟩, rest, hrest⟩
      exact ⟨_, y, rest, hy, hrest, rfl⟩

theorem mapM_eq_map {g : α → β} (hg : ∀ x y, f x = .ok y → g x = y) (h : xs.mapM f = .ok ys) :
    ys = xs.map g := by
  induction xs generalizing ys with
  | nil =>
    simp only [List.mapM_nil, pure_eq_ok] at h
    exact h.symm
  | cons x xs ih =>
    obtain ⟨y, rest, hy, hrest, rfl⟩ := mapM_cons_eq_ok.mp h
    rw [List.map_cons, hg x y hy, ih hrest]

theorem mem_mapM {y : β} (h : xs.mapM f = .ok ys) (hy : y ∈ ys) : ∃ x ∈ xs, f x = .ok y := by
  induction xs generalizing ys with
  | nil =>
    simp only [List.mapM_nil, pure_eq_ok] at h
    simp [← h] at hy
  | cons x xs ih =>
    obtain ⟨z, rest, hz, hrest, rfl⟩ := mapM_cons_eq_ok.mp h
    rcases List.mem_cons.mp hy with rfl | hy
    · exact ⟨x, List.mem_cons_self, hz⟩
    · obtain ⟨x', hx', hfx'⟩ := ih hrest hy
      exact ⟨x', List.mem_cons_of_mem x hx', hfx'⟩

/-- A traversal that succeeds has the value of each of its elements. -/
theorem mapM_mem {x : α} (h : xs.mapM f = .ok ys) (hx : x ∈ xs) : ∃ y ∈ ys, f x = .ok y := by
  induction xs generalizing ys with
  | nil => cases hx
  | cons z xs ih =>
    obtain ⟨y, rest, hy, hrest, rfl⟩ := mapM_cons_eq_ok.mp h
    rcases List.mem_cons.mp hx with rfl | hx
    · exact ⟨y, List.mem_cons_self, hy⟩
    · obtain ⟨y', hy', hfx⟩ := ih hrest hx
      exact ⟨y', List.mem_cons_of_mem y hy', hfx⟩

/-- A fold whose steps all succeed succeeds. -/
theorem exists_foldlM_eq_ok {g : β → α → Except ε β}
    (h : ∀ x ∈ xs, ∀ acc, ∃ next, g acc x = .ok next) (acc : β) :
    ∃ result, xs.foldlM g acc = .ok result := by
  induction xs generalizing acc with
  | nil => exact ⟨acc, rfl⟩
  | cons x xs ih =>
    obtain ⟨next, hnext⟩ := h x List.mem_cons_self acc
    obtain ⟨result, hresult⟩ := ih (fun y hy => h y (List.mem_cons_of_mem x hy)) next
    refine ⟨result, ?_⟩
    rw [List.foldlM_cons, hnext, ok_bind, hresult]

end Lists

@[simp] theorem exists_unit {p : Unit → Prop} : (∃ u, p u) ↔ p () :=
  ⟨fun ⟨(), h⟩ => h, fun h => ⟨(), h⟩⟩

-- Tried before a search through all values of a finite type.
instance (priority := 1100) decidableOk {x : Except ε α} : Decidable (∃ a, x = .ok a) :=
  match x with
  | .ok a => isTrue ⟨a, rfl⟩
  | .error _ => isFalse fun ⟨_, h⟩ => nomatch h

instance (priority := 1100) decidableOkAnd {x : Except ε α} {p : α → Prop} [DecidablePred p] :
    Decidable (∃ a, x = .ok a ∧ p a) :=
  match x with
  | .ok a => decidable_of_iff (p a) ⟨fun h => ⟨a, rfl, h⟩, fun ⟨_, h, hp⟩ => Except.ok.inj h ▸ hp⟩
  | .error _ => isFalse fun ⟨_, h, _⟩ => nomatch h

end Guards

end ChainVerse
