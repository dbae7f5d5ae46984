import ChainVerse.Framework.Guards
import Mathlib.Algebra.BigOperators.Group.List.Basic
import Mathlib.Algebra.Group.Basic
import Mathlib.Data.List.Induction

namespace ChainVerse

/-- A store behind an interface: a call either answers and moves the store on, or is refused
and leaves the store as it was. -/
structure Machine (S I O E : Type) where
  step : S → I → Except E (O × S)

/-- One line of a journal: an accepted call with the stores around it. -/
structure Entry (S I O : Type) where
  pre : S
  input : I
  output : O
  post : S

namespace Machine

variable {S I O E : Type} (m : Machine S I O E)

/-- The store after a call; a refused call is rolled back. -/
def next (s : S) (i : I) : S :=
  match m.step s i with
  | .ok (_, s') => s'
  | .error _ => s

/-- The store after a sequence of calls. -/
def run (s : S) (is : List I) : S := is.foldl m.next s

/-- The accepted calls of a sequence, in order. -/
def journal (s : S) : List I → List (Entry S I O)
  | [] => []
  | i :: is =>
    match m.step s i with
    | .ok (o, s') => ⟨s, i, o, s'⟩ :: journal s' is
    | .error _ => journal s is

@[simp] theorem run_nil (s : S) : m.run s [] = s := rfl

@[simp] theorem run_cons (s : S) (i : I) (is : List I) :
    m.run s (i :: is) = m.run (m.next s i) is := rfl

theorem run_append (s : S) (is js : List I) : m.run s (is ++ js) = m.run (m.run s is) js :=
  List.foldl_append

theorem next_ok {s s' : S} {i : I} {o : O} (h : m.step s i = .ok (o, s')) : m.next s i = s' := by
  simp [next, h]

theorem next_error {s : S} {i : I} {e : E} (h : m.step s i = .error e) : m.next s i = s := by
  simp [next, h]

/-- A call is either refused without effect or is one accepted step. -/
theorem next_cases (s : S) (i : I) :
    m.next s i = s ∨ ∃ o, m.step s i = .ok (o, m.next s i) := by
  rcases h : m.step s i with e | ⟨o, s'⟩
  · exact .inl (m.next_error h)
  · exact .inr ⟨o, by rw [m.next_ok h]⟩

theorem journal_cons_ok {s s' : S} {i : I} {o : O} (h : m.step s i = .ok (o, s'))
    (is : List I) : m.journal s (i :: is) = ⟨s, i, o, s'⟩ :: m.journal s' is := by
  simp [journal, h]

theorem journal_cons_error {s : S} {i : I} {e : E} (h : m.step s i = .error e) (is : List I) :
    m.journal s (i :: is) = m.journal s is := by
  simp [journal, h]

theorem journal_append (s : S) (is js : List I) :
    m.journal s (is ++ js) = m.journal s is ++ m.journal (m.run s is) js := by
  induction is generalizing s with
  | nil => rfl
  | cons i is ih =>
    rw [List.cons_append, run_cons]
    rcases h : m.step s i with e | ⟨o, s'⟩
    · rw [m.journal_cons_error h, m.journal_cons_error h, m.next_error h, ih]
    · rw [m.journal_cons_ok h, m.journal_cons_ok h, m.next_ok h, ih, List.cons_append]

section Invariants

variable {m} {Inv : S → Prop}

/-- What every accepted step on an admitted call preserves holds after every sequence of admitted
calls. -/
theorem run_invariant_on {P : I → Prop} {s : S} (h0 : Inv s)
    (hstep : ∀ s i o s', P i → Inv s → m.step s i = .ok (o, s') → Inv s') {is : List I}
    (his : ∀ i ∈ is, P i) : Inv (m.run s is) := by
  induction is generalizing s with
  | nil => exact h0
  | cons i is ih =>
    have htail : ∀ j ∈ is, P j := fun j hj => his j (List.mem_cons_of_mem i hj)
    rw [run_cons]
    rcases m.next_cases s i with h | ⟨o, h⟩
    · rw [h]
      exact ih h0 htail
    · exact ih (hstep _ _ _ _ (his i List.mem_cons_self) h0 h) htail

/-- What every accepted step preserves holds after every sequence of calls. -/
theorem run_invariant {s : S} (h0 : Inv s)
    (hstep : ∀ s i o s', Inv s → m.step s i = .ok (o, s') → Inv s') (is : List I) :
    Inv (m.run s is) :=
  run_invariant_on (P := fun _ => True) h0 (fun s i o s' _ => hstep s i o s') fun _ _ => trivial

/-- A reflexive and transitive relation kept by every step relates the two ends of a run. -/
theorem run_relation {R : S → S → Prop} (hrefl : ∀ s, R s s)
    (htrans : ∀ a b c, R a b → R b c → R a c) {s : S} (h0 : Inv s)
    (hinv : ∀ s i o s', Inv s → m.step s i = .ok (o, s') → Inv s')
    (hstep : ∀ s i o s', Inv s → m.step s i = .ok (o, s') → R s s') (is : List I) :
    R s (m.run s is) := by
  induction is generalizing s with
  | nil => exact hrefl s
  | cons i is ih =>
    rw [run_cons]
    rcases m.next_cases s i with h | ⟨o, h⟩
    · rw [h]; exact ih h0
    · exact htrans _ _ _ (hstep _ _ _ _ h0 h) (ih (hinv _ _ _ _ h0 h))

/-- A journal line is the step of one of the calls, taken in the store that the calls before it
reach. -/
theorem journal_prefix {s : S} {is : List I} {e : Entry S I O} (he : e ∈ m.journal s is) :
    m.step e.pre e.input = .ok (e.output, e.post) ∧
      ∃ is', is' ++ [e.input] <+: is ∧ e.pre = m.run s is' := by
  induction is generalizing s with
  | nil => simp [journal] at he
  | cons i is ih =>
    rcases h : m.step s i with err | ⟨o, s'⟩
    · rw [m.journal_cons_error h] at he
      obtain ⟨hs, js, hjs, hpre⟩ := ih he
      exact ⟨hs, i :: js, List.cons_prefix_cons.mpr ⟨rfl, hjs⟩, by
        rw [run_cons, m.next_error h, hpre]⟩
    · rw [m.journal_cons_ok h, List.mem_cons] at he
      rcases he with rfl | he
      · exact ⟨h, [], List.cons_prefix_cons.mpr ⟨rfl, List.nil_prefix⟩, rfl⟩
      · obtain ⟨hs, js, hjs, hpre⟩ := ih he
        exact ⟨hs, i :: js, List.cons_prefix_cons.mpr ⟨rfl, hjs⟩, by
          rw [run_cons, m.next_ok h, hpre]⟩

/-- Every journal line is a step, taken in a store that some prefix of the calls reaches. -/
theorem journal_step {s : S} {is : List I} {e : Entry S I O} (he : e ∈ m.journal s is) :
    m.step e.pre e.input = .ok (e.output, e.post) ∧ ∃ is', is' <+: is ∧ e.pre = m.run s is' := by
  obtain ⟨hstep, js, hjs, hpre⟩ := journal_prefix he
  exact ⟨hstep, js, (List.prefix_append js _).trans hjs, hpre⟩

/-- Every accepted call of a sequence has its journal line. -/
theorem mem_journal {s s' : S} {earlier later : List I} {i : I} {o : O}
    (h : m.step (m.run s earlier) i = .ok (o, s')) :
    ⟨m.run s earlier, i, o, s'⟩ ∈ m.journal s (earlier ++ i :: later) := by
  rw [m.journal_append, m.journal_cons_ok h]
  exact List.mem_append_cons_self

/-- The calls of a run divide where its journal does. -/
theorem journal_split {s : S} {is : List I} {earlier later : List (Entry S I O)} {e : Entry S I O}
    (h : m.journal s is = earlier ++ e :: later) :
    ∃ js ks, is = js ++ e.input :: ks ∧ m.journal s js = earlier ∧ m.run s js = e.pre ∧
      m.step e.pre e.input = .ok (e.output, e.post) := by
  induction is generalizing s earlier with
  | nil =>
    rw [journal] at h
    exact absurd h.symm (List.append_ne_nil_of_right_ne_nil _ (List.cons_ne_nil _ _))
  | cons i is ih =>
    rcases hs : m.step s i with err | ⟨o, s'⟩
    · rw [m.journal_cons_error hs] at h
      obtain ⟨js, ks, rfl, hjournal, hrun, hstep⟩ := ih h
      refine ⟨i :: js, ks, rfl, ?_, ?_, hstep⟩
      · rw [m.journal_cons_error hs, hjournal]
      · rw [run_cons, m.next_error hs, hrun]
    · rw [m.journal_cons_ok hs] at h
      cases earlier with
      | nil =>
        obtain ⟨rfl, _⟩ := List.cons.inj h
        exact ⟨[], is, rfl, rfl, rfl, hs⟩
      | cons first rest =>
        obtain ⟨rfl, hrest⟩ := List.cons.inj h
        obtain ⟨js, ks, rfl, hjournal, hrun, hstep⟩ := ih hrest
        refine ⟨i :: js, ks, rfl, ?_, ?_, hstep⟩
        · rw [m.journal_cons_ok hs, hjournal]
        · rw [run_cons, m.next_ok hs, hrun]

/-- The calls up to a line lead to the store that the line leaves, with the lines up to it. -/
theorem journal_upto {s : S} {is : List I} {earlier later : List (Entry S I O)} {e : Entry S I O}
    (h : m.journal s is = earlier ++ e :: later) :
    ∃ js, js <+: is ∧ m.run s js = e.post ∧ m.journal s js = earlier ++ [e] := by
  obtain ⟨js, ks, rfl, hjournal, hrun, hstep⟩ := journal_split h
  refine ⟨js ++ [e.input], ⟨ks, by rw [List.append_assoc, List.singleton_append]⟩, ?_, ?_⟩
  · rw [run_append, hrun, run_cons, run_nil, m.next_ok hstep]
  · rw [m.journal_append, hjournal, hrun, m.journal_cons_ok hstep]
    rfl

/-- The first lines of a journal are the journal of the first calls. -/
theorem journal_take {s : S} {is : List I} {first rest : List (Entry S I O)}
    (h : m.journal s is = first ++ rest) : ∃ js, js <+: is ∧ m.journal s js = first := by
  rcases List.eq_nil_or_concat first with rfl | ⟨earlier, e, rfl⟩
  · exact ⟨[], List.nil_prefix, rfl⟩
  · rw [List.concat_eq_append, List.append_assoc, List.singleton_append] at h
    obtain ⟨js, hjs, _, hjournal⟩ := journal_upto h
    rw [List.concat_eq_append]
    exact ⟨js, hjs, hjournal⟩

/-- The lines that follow a line are the journal of calls from the store that the line leaves. -/
theorem journal_window {s : S} {is : List I} {earlier mid later : List (Entry S I O)} {e : Entry S I O}
    (h : m.journal s is = earlier ++ e :: (mid ++ later)) : ∃ js, m.journal e.post js = mid := by
  obtain ⟨js, ks, rfl, hjournal, hrun, hstep⟩ := journal_split h
  rw [m.journal_append, hjournal, hrun, m.journal_cons_ok hstep] at h
  obtain ⟨_, hrest⟩ := List.cons.inj (List.append_cancel_left h)
  obtain ⟨ls, _, hmid⟩ := journal_take hrest
  exact ⟨ls, hmid⟩

/-- The calls of a journal are those of the run that were accepted, in their order. -/
theorem journal_inputs (s : S) (is : List I) : ((m.journal s is).map Entry.input).Sublist is := by
  induction is generalizing s with
  | nil => exact List.Sublist.slnil
  | cons i is ih =>
    rcases h : m.step s i with err | ⟨o, s'⟩
    · rw [m.journal_cons_error h]
      exact (ih s).cons i
    · rw [m.journal_cons_ok h, List.map_cons]
      exact (ih s').cons_cons i

/-- The line of one call is taken in the store that the call finds. -/
theorem journal_singleton {s : S} {i : I} {e : Entry S I O} (he : e ∈ m.journal s [i]) :
    e.pre = s ∧ m.step s i = .ok (e.output, e.post) := by
  rcases h : m.step s i with err | ⟨o, s'⟩
  · rw [m.journal_cons_error h] at he
    cases he
  · rw [m.journal_cons_ok h, journal] at he
    obtain rfl := List.mem_singleton.mp he
    exact ⟨rfl, rfl⟩

/-- After every journal line the run goes on from the store that the line left. -/
theorem journal_rest {s : S} {is : List I} {e : Entry S I O} (he : e ∈ m.journal s is) :
    ∃ js, m.run s is = m.run e.post js := by
  induction is generalizing s with
  | nil => simp [journal] at he
  | cons i is ih =>
    rw [run_cons]
    rcases h : m.step s i with err | ⟨o, s'⟩
    · rw [m.journal_cons_error h] at he
      rw [m.next_error h]
      exact ih he
    · rw [m.journal_cons_ok h, List.mem_cons] at he
      rw [m.next_ok h]
      rcases he with rfl | he
      · exact ⟨is, rfl⟩
      · exact ih he

/-- What does not hold at the start of a run and holds at its end comes to hold at one of its lines. -/
theorem exists_turn {P : S → Prop} {s : S} {is : List I} (hstart : ¬P s) (hend : P (m.run s is)) :
    ∃ e ∈ m.journal s is, ¬P e.pre ∧ P e.post := by
  induction is generalizing s with
  | nil => exact absurd hend hstart
  | cons i is ih =>
    rw [run_cons] at hend
    rcases h : m.step s i with err | ⟨o, s'⟩
    · rw [m.next_error h] at hend
      rw [m.journal_cons_error h]
      exact ih hstart hend
    · rw [m.next_ok h] at hend
      rw [m.journal_cons_ok h]
      by_cases hs' : P s'
      · exact ⟨_, List.mem_cons_self, hstart, hs'⟩
      · obtain ⟨e, he, hturn⟩ := ih hs' hend
        exact ⟨e, List.mem_cons_of_mem _ he, hturn⟩

/-- What does not hold after some line of a run and holds at its end comes to hold at a line. -/
theorem exists_return {P : S → Prop} {s : S} {is : List I} {e : Entry S I O} (he : e ∈ m.journal s is)
    (hpost : ¬P e.post) (hend : P (m.run s is)) : ∃ e ∈ m.journal s is, ¬P e.pre ∧ P e.post := by
  obtain ⟨earlier, later, hes⟩ := List.append_of_mem he
  obtain ⟨js, ks, rfl, hjournal, hrun, hstep⟩ := journal_split hes
  rw [run_append, hrun, run_cons, m.next_ok hstep] at hend
  obtain ⟨turn, hturn, hboth⟩ := exists_turn hpost hend
  refine ⟨turn, ?_, hboth⟩
  rw [m.journal_append, hrun, m.journal_cons_ok hstep]
  exact List.mem_append_right _ (List.mem_cons_of_mem _ hturn)

/-- A journal line of admitted calls is taken in a store that satisfies the invariant. -/
theorem journal_invariant_on {P : I → Prop} {s : S} (h0 : Inv s)
    (hstep : ∀ s i o s', P i → Inv s → m.step s i = .ok (o, s') → Inv s') {is : List I}
    (his : ∀ i ∈ is, P i) {e : Entry S I O} (he : e ∈ m.journal s is) : Inv e.pre := by
  obtain ⟨_, js, hjs, hpre⟩ := journal_step he
  rw [hpre]
  exact run_invariant_on h0 hstep fun j hj => his j (hjs.subset hj)

/-- A journal line is taken in a store that satisfies the invariant. -/
theorem journal_invariant {s : S} (h0 : Inv s)
    (hstep : ∀ s i o s', Inv s → m.step s i = .ok (o, s') → Inv s') {is : List I}
    {e : Entry S I O} (he : e ∈ m.journal s is) : Inv e.pre :=
  journal_invariant_on (P := fun _ => True) h0 (fun s i o s' _ => hstep s i o s')
    (fun _ _ => trivial) he

/-- What holds at the end of every run holds wherever a line of a run is taken. -/
theorem journal_found {s : S} (h : ∀ is, Inv (m.run s is)) {is : List I} {e : Entry S I O}
    (he : e ∈ m.journal s is) : Inv e.pre := by
  obtain ⟨_, js, _, hpre⟩ := journal_step he
  rw [hpre]
  exact h js

/-- What holds of the first store with an empty journal, and is carried on by each accepted step with
an admitted line, holds of every run with admitted lines. -/
theorem run_journal_invariant_on {A : Entry S I O → Prop} {P : S → List (Entry S I O) → Prop} {s : S}
    (h0 : P s []) (hstep : ∀ es s i o s', A ⟨s, i, o, s'⟩ → P s es → m.step s i = .ok (o, s') →
      P s' (es ++ [⟨s, i, o, s'⟩])) {is : List I} (hlines : ∀ e ∈ m.journal s is, A e) :
    P (m.run s is) (m.journal s is) := by
  induction is using List.reverseRecOn with
  | nil => exact h0
  | append_singleton is i ih =>
    rw [journal_append] at hlines
    obtain ⟨hrest, hline⟩ := List.forall_mem_append.mp hlines
    have hrun := ih hrest
    rw [run_append, journal_append, run_cons, run_nil]
    rcases hs : m.step (m.run s is) i with e | ⟨o, s'⟩
    · rw [m.next_error hs, m.journal_cons_error hs, journal, List.append_nil]
      exact hrun
    · rw [m.journal_cons_ok hs] at hline
      rw [m.next_ok hs, m.journal_cons_ok hs, journal]
      exact hstep _ _ _ _ _ (hline _ List.mem_cons_self) hrun hs

/-- The same of every run, where every line is admitted. -/
theorem run_journal_invariant {P : S → List (Entry S I O) → Prop} {s : S} (h0 : P s [])
    (hstep : ∀ es s i o s', P s es → m.step s i = .ok (o, s') → P s' (es ++ [⟨s, i, o, s'⟩]))
    (is : List I) : P (m.run s is) (m.journal s is) :=
  run_journal_invariant_on (A := fun _ => True) h0 (fun es s i o s' _ => hstep es s i o s')
    fun _ _ => trivial

/-- A property of the runs that an accepted call keeps when, and only when, its line is proper: it holds
all along a run when every line of the run is proper, and only then. -/
theorem along_iff {A : Entry S I O → Prop} {Inv Good : S → List (Entry S I O) → Prop}
    {proper : List (Entry S I O) → Entry S I O → Prop} {s : S} (h0 : Inv s []) (hgood : Good s [])
    (hinv : ∀ es s i o s', A ⟨s, i, o, s'⟩ → Inv s es → m.step s i = .ok (o, s') →
      Inv s' (es ++ [⟨s, i, o, s'⟩]))
    (hstep : ∀ es s i o s', A ⟨s, i, o, s'⟩ → Inv s es → Good s es → m.step s i = .ok (o, s') →
      (Good s' (es ++ [⟨s, i, o, s'⟩]) ↔ proper es ⟨s, i, o, s'⟩))
    {is : List I} (hlines : ∀ e ∈ m.journal s is, A e) :
    (∀ js, js <+: is → Good (m.run s js) (m.journal s js)) ↔
      ∀ earlier e later, m.journal s is = earlier ++ e :: later → proper earlier e := by
  have hall : ∀ js, js <+: is → Inv (m.run s js) (m.journal s js) := by
    intro js hjs
    obtain ⟨ks, rfl⟩ := hjs
    apply run_journal_invariant_on h0 hinv
    intro e he
    apply hlines
    rw [journal_append]
    exact List.mem_append_left _ he
  constructor
  · intro hgoods earlier e later hsplit
    have hline : A e := hlines e (hsplit ▸ List.mem_append_cons_self)
    obtain ⟨js, ks, rfl, rfl, hpre, hs⟩ := journal_split hsplit
    have hbefore := hgoods js ⟨e.input :: ks, rfl⟩
    have hreached := hall js ⟨e.input :: ks, rfl⟩
    have hafter := hgoods (js ++ [e.input]) ⟨ks, by rw [List.append_assoc, List.singleton_append]⟩
    rw [run_append, journal_append, hpre, run_cons, run_nil, m.next_ok hs, m.journal_cons_ok hs,
      journal] at hafter
    rw [hpre] at hbefore hreached
    exact (hstep _ _ _ _ _ hline hreached hbefore hs).mp hafter
  · intro hproper js
    induction js using List.reverseRecOn with
    | nil =>
      intro _
      exact hgood
    | append_singleton js i ih =>
      intro hjs
      have hprefix : js <+: is := (List.prefix_append js [i]).trans hjs
      have hbefore := ih hprefix
      have hreached := hall js hprefix
      obtain ⟨ks, rfl⟩ := hjs
      rw [run_append, journal_append, run_cons, run_nil]
      rcases hs : m.step (m.run s js) i with e | ⟨o, s'⟩
      · rw [m.next_error hs, m.journal_cons_error hs, journal, List.append_nil]
        exact hbefore
      · have hsplit : m.journal s (js ++ [i] ++ ks) =
            m.journal s js ++ ⟨m.run s js, i, o, s'⟩ :: m.journal s' ks := by
          rw [List.append_assoc, List.singleton_append, journal_append, m.journal_cons_ok hs]
        have hline := hlines _ (hsplit ▸ List.mem_append_cons_self)
        rw [m.next_ok hs, m.journal_cons_ok hs, journal]
        exact (hstep _ _ _ _ _ hline hreached hbefore hs).mpr (hproper _ _ _ hsplit)

/-- A counter whose values each step hands out in order has, over a run, handed out every value
from where it stood to where it stands, once. -/
theorem run_numbering {f : S → Nat} {g : Entry S I O → List Nat} {s : S} (h0 : Inv s)
    (hinv : ∀ s i o s', Inv s → m.step s i = .ok (o, s') → Inv s')
    (hstep : ∀ s i o s', Inv s → m.step s i = .ok (o, s') →
      f s ≤ f s' ∧ g ⟨s, i, o, s'⟩ = List.range' (f s) (f s' - f s)) (is : List I) :
    f s ≤ f (m.run s is) ∧
      (m.journal s is).flatMap g = List.range' (f s) (f (m.run s is) - f s) := by
  induction is generalizing s with
  | nil => simp [journal]
  | cons i is ih =>
    rcases h : m.step s i with e | ⟨o, s'⟩
    · rw [run_cons, m.next_error h, m.journal_cons_error h]
      exact ih h0
    · obtain ⟨hle, hhanded⟩ := hstep _ _ _ _ h0 h
      obtain ⟨hle', hrest⟩ := ih (hinv _ _ _ _ h0 h)
      rw [run_cons, m.next_ok h, m.journal_cons_ok h, List.flatMap_cons, hhanded, hrest]
      have hstart : f s' = f s + 1 * (f s' - f s) := by omega
      have hlength : f (m.run s' is) - f s = (f s' - f s) + (f (m.run s' is) - f s') := by omega
      refine ⟨Nat.le_trans hle hle', ?_⟩
      conv_lhs => rw [hstart]
      rw [hlength, ← List.range'_append, ← hstart]

end Invariants

section Tally

variable {M : Type} [AddCommGroup M] (w : Entry S I O → M)

/-- The total of a quantity over the accepted calls. -/
def tally (s : S) (is : List I) : M := ((m.journal s is).map w).sum

@[simp] theorem tally_nil (s : S) : m.tally w s [] = 0 := rfl

variable {m w}

theorem tally_cons_ok {s s' : S} {i : I} {o : O} (h : m.step s i = .ok (o, s')) (is : List I) :
    m.tally w s (i :: is) = w ⟨s, i, o, s'⟩ + m.tally w s' is := by
  simp [tally, m.journal_cons_ok h]

theorem tally_cons_error {s : S} {i : I} {e : E} (h : m.step s i = .error e) (is : List I) :
    m.tally w s (i :: is) = m.tally w s is := by
  simp [tally, m.journal_cons_error h]

theorem tally_add (v : Entry S I O → M) (s : S) (is : List I) :
    m.tally (fun e => v e + w e) s is = m.tally v s is + m.tally w s is := by
  simp [tally, List.sum_map_add]

theorem tally_neg (v : Entry S I O → M) (s : S) (is : List I) :
    m.tally (fun e => -v e) s is = -m.tally v s is := by
  unfold tally
  induction m.journal s is with
  | nil => simp
  | cons e es ih => simp only [List.map_cons, List.sum_cons, ih, neg_add]

/-- Books that balance at every step balance over a run: a measure that each accepted step
moves by `w` has moved by the total of `w`. -/
theorem run_balance {Inv : S → Prop} {f : S → M} {s : S} (h0 : Inv s)
    (hinv : ∀ s i o s', Inv s → m.step s i = .ok (o, s') → Inv s')
    (hstep : ∀ s i o s', Inv s → m.step s i = .ok (o, s') → f s' = f s + w ⟨s, i, o, s'⟩)
    (is : List I) : f (m.run s is) = f s + m.tally w s is := by
  induction is generalizing s with
  | nil => simp
  | cons i is ih =>
    rcases h : m.step s i with e | ⟨o, s'⟩
    · rw [run_cons, m.next_error h, ih h0, tally_cons_error h]
    · rw [run_cons, m.next_ok h, ih (hinv _ _ _ _ h0 h), tally_cons_ok h,
        hstep _ _ _ _ h0 h, add_assoc]

end Tally

end Machine

end ChainVerse
