import ChainVerse.Framework.Simulations
import ChainVerse.Host.Environment
import Mathlib.Data.Set.Card
import ChainVerse.Framework.Tables

namespace ChainVerse.LibraryRights.Reference

/-! The model of the lending domain that the repository checks its contract against, over any works and
patrons. -/

variable {W P : Type} [DecidableEq W] [DecidableEq P]

def loanSecs : Nat := 30 * 24 * 60 * 60
def holdSecs : Nat := 7 * 24 * 60 * 60

inductive Action (W P : Type) where
  | putWork (work : W)
  | borrow (work : W) (patron : P)
  | giveBack (work : W) (patron : P)
  | placeHold (work : W) (patron : P)
  | claimHold (work : W) (patron : P)
  | advanceTime (secs : Nat)
  deriving DecidableEq, Repr

structure Hold where
  /-- The order of placement. -/
  seq : Nat
  expiresAt : Nat
  deriving DecidableEq, Repr

structure Model (W P : Type) where
  now : Nat
  workRegistered : W → Bool
  loanExpiry : W × P → Option Nat
  hold : W × P → Option Hold
  nextSeq : Nat
  borrows : Nat
  terminations : Nat

/-- `Model::new`. -/
def Model.fresh (now : Nat) : Model W P where
  now := now
  workRegistered := fun _ => false
  loanExpiry := fun _ => none
  hold := fun _ => none
  nextSeq := 0
  borrows := 0
  terminations := 0

def Model.hasLoan (m : Model W P) (work : W) (patron : P) : Bool :=
  (m.loanExpiry (work, patron)).isSome

def Model.hasHold (m : Model W P) (work : W) (patron : P) : Bool := (m.hold (work, patron)).isSome

/-- The model after an action that it accepts; where the sum of an expiry traps, it accepts nothing. Its
clock saturates as the ledger's does, where the sum of the source would trap, and its counters are
unbounded. -/
def Model.apply (m : Model W P) : Action W P → Option (Model W P)
  | .putWork work => some { m with workRegistered := Function.update m.workRegistered work true }
  | .borrow work patron =>
    if m.workRegistered work = false then none
    else if m.hasLoan work patron = true then none
    else
      (fitsU 64 (m.now + loanSecs)).map fun expiry =>
        { m with
          loanExpiry := Function.update m.loanExpiry (work, patron) (some expiry)
          borrows := m.borrows + 1 }
  | .giveBack work patron =>
    if m.hasLoan work patron = true then
      some { m with
        loanExpiry := Function.update m.loanExpiry (work, patron) none
        terminations := m.terminations + 1 }
    else some m
  | .placeHold work patron =>
    if m.workRegistered work = false then none
    else if m.hasHold work patron = true then none
    else
      (fitsU 64 (m.now + holdSecs)).map fun expiresAt =>
        { m with
          hold := Function.update m.hold (work, patron) (some { seq := m.nextSeq, expiresAt })
          nextSeq := m.nextSeq + 1 }
  | .claimHold work patron =>
    match m.hold (work, patron) with
    | none => none
    | some hold =>
      if hold.expiresAt < m.now then none
      else if m.hasLoan work patron = true then none
      else
        (fitsU 64 (m.now + loanSecs)).map fun expiry =>
          { m with
            loanExpiry := Function.update m.loanExpiry (work, patron) (some expiry)
            borrows := m.borrows + 1
            hold := Function.update m.hold (work, patron) none }
  | .advanceTime secs => some { m with now := saturatingAdd m.now secs }

/-- The patron has a hold that is still live, and no loan, of the work. -/
structure Model.Claimable (m : Model W P) (work : W) (patron : P) : Prop where
  live : ∃ hold, m.hold (work, patron) = some hold ∧ m.now ≤ hold.expiresAt
  unlent : m.loanExpiry (work, patron) = none
  fits : m.now + loanSecs < 2^64

theorem claimable_iff {m : Model W P} {work : W} {patron : P} :
    m.Claimable work patron ↔ m.apply (.claimHold work patron) ≠ none := by
  have hloan : m.hasLoan work patron = true ↔ m.loanExpiry (work, patron) ≠ none :=
    Option.isSome_iff_ne_none
  have hclaim : m.apply (.claimHold work patron) ≠ none ↔ ∃ hold,
      m.hold (work, patron) = some hold ∧ ¬ hold.expiresAt < m.now ∧
        ¬ m.hasLoan work patron = true ∧ m.now + loanSecs < 2^64 := by
    rw [Model.apply]
    rcases m.hold (work, patron) with _ | hold
    · simp
    · simp only [Option.some.injEq, exists_eq_left']
      split_ifs with hlate hlent
      · simp [hlate]
      · simp [hlent]
      · simp [hlate, hlent, fitsU]
  rw [hclaim, hloan]
  constructor
  · rintro ⟨⟨hold, hheld, hlive⟩, hunlent, hfits⟩
    exact ⟨hold, hheld, by omega, not_not_intro hunlent, hfits⟩
  · rintro ⟨hold, hheld, hlive, hunlent, hfits⟩
    exact ⟨⟨hold, hheld, by omega⟩, not_not.mp hunlent, hfits⟩

def machine (W P : Type) [DecidableEq W] [DecidableEq P] :
    Machine (Model W P) (Action W P) Unit Unit where
  step m action := ((), ·) <$> orRefuse (m.apply action) ()

/-- The loans that were made are those that were ended and those that are still there. -/
structure Model.Counted (m : Model W P) : Prop where
  finite : {x | m.loanExpiry x ≠ none}.Finite
  count : m.borrows = m.terminations + {x | m.loanExpiry x ≠ none}.ncard

section Counting

variable {m m' : Model W P} {x : W × P}

omit [DecidableEq W] [DecidableEq P] in
theorem Model.counted_fresh (now : Nat) : (Model.fresh now : Model W P).Counted := by
  constructor <;> simp [Model.fresh]

theorem Model.Counted.made (hm : m.Counted) (hx : m.loanExpiry x = none) {expiry : Nat}
    (hloans : m'.loanExpiry = Function.update m.loanExpiry x (some expiry))
    (hborrows : m'.borrows = m.borrows + 1) (hterminations : m'.terminations = m.terminations) :
    m'.Counted := by
  have hmoved := ncard_update_row (p := (· ≠ none)) hm.finite x (some expiry)
  rw [hx, if_neg (by simp), if_pos (by simp)] at hmoved
  have hcount := hm.count
  constructor
  · rw [hloans]
    exact finite_update_row (p := (· ≠ none)) hm.finite x (some expiry)
  · rw [hborrows, hterminations, hloans]
    omega

theorem Model.Counted.ended (hm : m.Counted) (hx : m.loanExpiry x ≠ none)
    (hloans : m'.loanExpiry = Function.update m.loanExpiry x none)
    (hborrows : m'.borrows = m.borrows) (hterminations : m'.terminations = m.terminations + 1) :
    m'.Counted := by
  have hmoved := ncard_update_row (p := (· ≠ none)) hm.finite x none
  rw [if_pos hx, if_neg (by simp)] at hmoved
  have hcount := hm.count
  constructor
  · rw [hloans]
    exact finite_update_row (p := (· ≠ none)) hm.finite x none
  · rw [hborrows, hterminations, hloans]
    omega

omit [DecidableEq W] [DecidableEq P] in
/-- An action that touches no loan. -/
theorem Model.Counted.kept (hm : m.Counted) (hloans : m'.loanExpiry = m.loanExpiry)
    (hborrows : m'.borrows = m.borrows) (hterminations : m'.terminations = m.terminations) :
    m'.Counted := by
  constructor
  · rw [hloans]
    exact hm.finite
  · rw [hborrows, hterminations, hloans]
    exact hm.count

theorem Model.Counted.apply (hm : m.Counted) {action : Action W P} (h : m.apply action = some m') :
    m'.Counted := by
  cases action with
  | putWork work =>
    rw [Model.apply, Option.some.injEq] at h
    subst h
    exact hm.kept rfl rfl rfl
  | borrow work patron =>
    rw [Model.apply] at h
    split_ifs at h with hwork hlent
    obtain ⟨expiry, _, rfl⟩ := Option.map_eq_some_iff.mp h
    have hlacks : m.loanExpiry (work, patron) = none := by simpa [Model.hasLoan] using hlent
    exact hm.made hlacks rfl rfl rfl
  | giveBack work patron =>
    rw [Model.apply] at h
    split_ifs at h with hlent
    · rw [Option.some.injEq] at h
      subst h
      exact hm.ended (Option.isSome_iff_ne_none.mp hlent) rfl rfl rfl
    · rw [Option.some.injEq] at h
      subst h
      exact hm
  | placeHold work patron =>
    rw [Model.apply] at h
    split_ifs at h with hwork hheld
    obtain ⟨expiresAt, _, rfl⟩ := Option.map_eq_some_iff.mp h
    exact hm.kept rfl rfl rfl
  | claimHold work patron =>
    rw [Model.apply] at h
    cases hheld : m.hold (work, patron) with
    | none =>
      rw [hheld] at h
      cases h
    | some hold =>
      simp only [hheld] at h
      split_ifs at h with hexpired hlent
      obtain ⟨expiry, _, rfl⟩ := Option.map_eq_some_iff.mp h
      have hlacks : m.loanExpiry (work, patron) = none := by simpa [Model.hasLoan] using hlent
      exact hm.made hlacks rfl rfl rfl
  | advanceTime secs =>
    rw [Model.apply, Option.some.injEq] at h
    subst h
    exact hm.kept rfl rfl rfl

theorem counted_run (now : Nat) (actions : List (Action W P)) :
    ((machine W P).run (Model.fresh now) actions).Counted := by
  refine (machine W P).run_invariant (Model.counted_fresh now) ?_ actions
  intro m action o m' hm hstep
  simp only [machine, map_eq_ok, Prod.mk.injEq] at hstep
  obtain ⟨_, happly, _, rfl⟩ := hstep
  exact hm.apply (orRefuse_eq_ok.mp happly)

end Counting

end ChainVerse.LibraryRights.Reference
