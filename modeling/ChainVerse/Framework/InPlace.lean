import ChainVerse.Framework.Guards
import Mathlib.Algebra.BigOperators.Group.List.Basic
import Mathlib.Algebra.Order.Ring.Int

namespace ChainVerse

/-! Methods that write to their receiver in place: what a method has written before it fails stays
written. A method is all or nothing when its failures leave no such trace. -/

/-- A method on a mutable receiver. -/
abbrev Method (S E α : Type) := ExceptT E (StateM S) α

/-- One call of a sequence, refused or not, with the receiver around it. -/
structure Line (S I E O : Type) where
  pre : S
  input : I
  result : Except E O
  post : S

namespace Method

variable {S I E O α β : Type}

/-- The result of a method, and what it leaves in the receiver. -/
def call (f : Method S E α) (s : S) : Except E α × S := f s

/-- A computation that does not touch the receiver. -/
def check (x : Except E α) : Method S E α := fun s => (x, s)

section AllOrNothing

/-- The method either succeeds with `Q`, or fails without a trace. -/
def AllOrNothing (f : Method S E α) (s : S) (Q : α → S → Prop) : Prop :=
  (∃ a s', f.call s = (.ok a, s') ∧ Q a s') ∨ ∃ e, f.call s = (.error e, s)

variable {f : Method S E α} {s : S} {Q : α → S → Prop} {R : β → S → Prop}

theorem AllOrNothing.of_call {a : α} {s' : S} (h : f.call s = (.ok a, s')) (hQ : Q a s') :
    AllOrNothing f s Q :=
  .inl ⟨a, s', h, hQ⟩

/-- What is checked before anything is written. -/
theorem AllOrNothing.check {x : Except E α} {g : α → Method S E β}
    (h : ∀ a, x = .ok a → AllOrNothing (g a) s R) : AllOrNothing (Method.check x >>= g) s R := by
  cases x with
  | error e => exact .inr ⟨e, rfl⟩
  | ok a => exact h a rfl

theorem AllOrNothing.get {g : S → Method S E β} (h : AllOrNothing (g s) s R) :
    AllOrNothing (MonadState.get >>= g) s R := h

theorem AllOrNothing.map {g : α → β} (h : AllOrNothing f s fun a s' => R (g a) s') :
    AllOrNothing (g <$> f) s R := by
  rcases h with ⟨a, s', hcall, hR⟩ | ⟨e, hcall⟩
  · refine .inl ⟨g a, s', ?_, hR⟩
    change (ExceptT.map g f : Method S E β) s = _
    simp only [Method.call] at hcall
    simp only [ExceptT.map, ExceptT.mk, bind, StateT.bind, hcall]
    rfl
  · refine .inr ⟨e, ?_⟩
    change (ExceptT.map g f : Method S E β) s = _
    simp only [Method.call] at hcall
    simp only [ExceptT.map, ExceptT.mk, bind, StateT.bind, hcall]
    rfl

end AllOrNothing

section Sequences

variable (perform : I → Method S E O)

/-- The calls of a sequence, one after the other on one receiver. -/
def trace (s : S) : List I → List (Line S I E O)
  | [] => []
  | i :: is => ⟨s, i, ((perform i).call s).1, ((perform i).call s).2⟩ ::
      trace ((perform i).call s).2 is

/-- The receiver after a sequence of calls. -/
def final (s : S) (is : List I) : S := is.foldl (fun s i => ((perform i).call s).2) s

/-- What the accepted calls of a sequence add up to. -/
def total (w : I → Int) (lines : List (Line S I E O)) : Int :=
  (lines.map fun line => if line.result.isOk then w line.input else 0).sum

theorem total_cons (w : I → Int) (line : Line S I E O) (lines : List (Line S I E O)) :
    total w (line :: lines) = (if line.result.isOk then w line.input else 0) + total w lines := by
  rw [total, List.map_cons, List.sum_cons]
  rfl

theorem total_sub (v w : I → Int) (lines : List (Line S I E O)) :
    total (fun i => v i - w i) lines = total v lines - total w lines := by
  induction lines with
  | nil => rfl
  | cons line lines ih =>
    rw [total_cons, total_cons, total_cons, ih]
    by_cases hok : line.result.isOk = true
    · rw [if_pos hok, if_pos hok, if_pos hok]
      omega
    · rw [if_neg hok, if_neg hok, if_neg hok]
      omega

variable {perform} {Q : S → I → S → Prop} {Inv : S → Prop} {f : S → Int} {w : I → Int}

/-- A line of a refused call has the same receiver twice. -/
theorem trace_refused (hatomic : ∀ s i, AllOrNothing (perform i) s fun _ => Q s i) {s : S}
    {is : List I} {line : Line S I E O} (h : line ∈ trace perform s is)
    (hrefused : line.result.isOk = false) : line.post = line.pre := by
  induction is generalizing s with
  | nil => cases h
  | cons i is ih =>
    rcases List.mem_cons.mp h with rfl | hlater
    · rcases hatomic s i with ⟨o, s', hcall, _⟩ | ⟨e, hcall⟩
      · rw [hcall] at hrefused
        cases hrefused
      · rw [hcall]
    · exact ih hlater

/-- What every accepted call preserves holds after every sequence of calls. -/
theorem final_invariant (hatomic : ∀ s i, AllOrNothing (perform i) s fun _ => Q s i)
    (hstep : ∀ s i s', Inv s → Q s i s' → Inv s') {s : S} (h0 : Inv s) (is : List I) :
    Inv (final perform s is) := by
  induction is generalizing s with
  | nil => exact h0
  | cons i is ih =>
    have hnext : Inv ((perform i).call s).2 := by
      rcases hatomic s i with ⟨o, s', hcall, hQ⟩ | ⟨e, hcall⟩
      · rw [hcall]
        exact hstep s i s' h0 hQ
      · rw [hcall]
        exact h0
    exact ih hnext

/-- A measure that each accepted call moves by `w` has moved by the total of `w`. -/
theorem final_balance (hatomic : ∀ s i, AllOrNothing (perform i) s fun _ => Q s i)
    (hstep : ∀ s i s', Q s i s' → f s' = f s + w i) (s : S) (is : List I) :
    f (final perform s is) = f s + total w (trace perform s is) := by
  induction is generalizing s with
  | nil => exact (add_zero _).symm
  | cons i is ih =>
    have hrest := ih ((perform i).call s).2
    rw [trace, total_cons]
    rw [final, List.foldl_cons, ← final, hrest]
    rcases hatomic s i with ⟨o, s', hcall, hQ⟩ | ⟨e, hcall⟩
    · rw [hcall, hstep s i s' hQ, add_assoc]
      rfl
    · rw [hcall]
      exact congrArg _ (zero_add _).symm

end Sequences

end Method

end ChainVerse
