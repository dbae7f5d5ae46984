import ChainVerse.Framework.InPlace
import ChainVerse.Host.Bytes
import Mathlib.Data.Rat.Floor

namespace ChainVerse.Math

section Account

inductive MathError where
  | overflow
  | underflow
  | divideByZero
  | negativeResult
  | negativeAmount
  deriving DecidableEq, Repr

section CheckedPrimitives

/-- The value when it fits an `i128`. -/
def toI128 (x : Int) : Option I128 := if h : -2^127 ≤ x ∧ x < 2^127 then some ⟨x, h⟩ else none

@[simp] theorem toI128_eq_some {x : Int} {y : I128} : toI128 x = some y ↔ x = y.val := by
  rw [toI128]
  split
  · rw [Option.some.injEq, Subtype.ext_iff]
  case isFalse h =>
    refine ⟨fun hnone => (nomatch hnone), ?_⟩
    intro heq
    exact absurd (heq ▸ y.property) h

def addI128 (a b : I128) : Except MathError I128 := orRefuse (toI128 (a.val + b.val)) .overflow

def subI128 (a b : I128) : Except MathError I128 := orRefuse (toI128 (a.val - b.val)) .underflow

def requireNonNegative (amount : I128) : Except MathError I128 := do
  refuseIf (amount.val < 0) .negativeAmount
  pure amount

@[simp] theorem addI128_eq_ok {a b c : I128} : addI128 a b = .ok c ↔ a.val + b.val = c.val := by
  simp [addI128]

@[simp] theorem subI128_eq_ok {a b c : I128} : subI128 a b = .ok c ↔ a.val - b.val = c.val := by
  simp [subI128]

@[simp] theorem requireNonNegative_eq_ok {a b : I128} :
    requireNonNegative a = .ok b ↔ 0 ≤ a.val ∧ a = b := by
  simp [requireNonNegative]

end CheckedPrimitives

/-- A patron's financial position with the library. -/
@[ext] structure DebtAccount where
  /-- Refundable balance. -/
  deposit : I128
  /-- Fines and charges not yet settled. -/
  outstanding : I128
  deriving DecidableEq

def DebtAccount.new : DebtAccount where
  deposit := ⟨0, by decide⟩
  outstanding := ⟨0, by decide⟩

def DebtAccount.isWellFormed (self : DebtAccount) : Bool :=
  0 ≤ self.deposit.val && 0 ≤ self.outstanding.val

/-- A method on an account. -/
abbrev AccountMethod := Method DebtAccount MathError

section Methods

open Method (check)

/-- `self.deposit = amount`, and the same for the other field. -/
def setDeposit (amount : I128) : AccountMethod Unit :=
  modify fun self => { self with deposit := amount }

def setOutstanding (amount : I128) : AccountMethod Unit :=
  modify fun self => { self with outstanding := amount }

def deposit (amount : I128) : AccountMethod Unit := do
  let _ ← check (requireNonNegative amount)
  let self ← get
  let sum ← check (addI128 self.deposit amount)
  setDeposit sum

def charge (amount : I128) : AccountMethod Unit := do
  let _ ← check (requireNonNegative amount)
  let self ← get
  let sum ← check (addI128 self.outstanding amount)
  setOutstanding sum

/-- Takes an amount off what is owed, and no more than that. -/
def reduce (amount : I128) : AccountMethod Unit := do
  let _ ← check (requireNonNegative amount)
  let self ← get
  let _ ← check (refuseIf (self.outstanding.val < amount.val) .negativeResult)
  let rest ← check (subI128 self.outstanding amount)
  setOutstanding rest

def pay (amount : I128) : AccountMethod Unit := reduce amount

def waive (amount : I128) : AccountMethod Unit := reduce amount

/-- The first figure is written before the second one is computed. -/
def payFromDeposit (amount : I128) : AccountMethod I128 := do
  let _ ← check (requireNonNegative amount)
  let self ← get
  let _ ← check (refuseIf (self.outstanding.val < amount.val ∨ self.deposit.val < amount.val) .negativeResult)
  let held ← check (subI128 self.deposit amount)
  setDeposit held
  let self ← get
  let owed ← check (subI128 self.outstanding amount)
  setOutstanding owed
  pure amount

def withdraw (amount : I128) : AccountMethod Unit := do
  let _ ← check (requireNonNegative amount)
  let self ← get
  let _ ← check (refuseIf (0 < self.outstanding.val) .negativeResult)
  let _ ← check (refuseIf (self.deposit.val < amount.val) .negativeResult)
  let rest ← check (subI128 self.deposit amount)
  setDeposit rest

end Methods

/-- The operations on an account. -/
inductive Operation where
  | deposit (amount : I128)
  | charge (amount : I128)
  | pay (amount : I128)
  | waive (amount : I128)
  | payFromDeposit (amount : I128)
  | withdraw (amount : I128)
  deriving DecidableEq

/-- An operation, with the amount it returns if it returns one. -/
def perform : Operation → AccountMethod (Option I128)
  | .deposit amount => (fun _ => none) <$> Math.deposit amount
  | .charge amount => (fun _ => none) <$> Math.charge amount
  | .pay amount => (fun _ => none) <$> Math.pay amount
  | .waive amount => (fun _ => none) <$> Math.waive amount
  | .payFromDeposit amount => some <$> Math.payFromDeposit amount
  | .withdraw amount => (fun _ => none) <$> Math.withdraw amount

end Account

open Method (AllOrNothing trace final total)

variable {account account' : DebtAccount} {amount : I128}

/-- What an accepted operation does to the account. -/
inductive Effect (account : DebtAccount) : Operation → DebtAccount → Prop where
  | deposit {amount sum : I128} (nonneg : 0 ≤ amount.val)
      (added : account.deposit.val + amount.val = sum.val) :
      Effect account (.deposit amount) { account with deposit := sum }
  | charge {amount sum : I128} (nonneg : 0 ≤ amount.val)
      (added : account.outstanding.val + amount.val = sum.val) :
      Effect account (.charge amount) { account with outstanding := sum }
  | pay {amount rest : I128} (owed : amount ≤ account.outstanding)
      (taken : account.outstanding.val - amount.val = rest.val) :
      Effect account (.pay amount) { account with outstanding := rest }
  | waive {amount rest : I128} (owed : amount ≤ account.outstanding)
      (taken : account.outstanding.val - amount.val = rest.val) :
      Effect account (.waive amount) { account with outstanding := rest }
  | payFromDeposit {amount held rest : I128} (owed : amount ≤ account.outstanding)
      (covered : amount ≤ account.deposit) (drawn : account.deposit.val - amount.val = held.val)
      (taken : account.outstanding.val - amount.val = rest.val) :
      Effect account (.payFromDeposit amount) { deposit := held, outstanding := rest }
  | withdraw {amount rest : I128} (covered : amount ≤ account.deposit)
      (drawn : account.deposit.val - amount.val = rest.val) :
      Effect account (.withdraw amount) { account with deposit := rest }

section Methods

theorem deposit_effect :
    AllOrNothing (deposit amount) account fun _ account' =>
      Effect account (.deposit amount) account' := by
  apply AllOrNothing.check
  intro checked hchecked
  apply AllOrNothing.get
  apply AllOrNothing.check
  intro sum hsum
  have hnonneg := (requireNonNegative_eq_ok.mp hchecked).1
  exact .of_call rfl (.deposit hnonneg (addI128_eq_ok.mp hsum))

theorem charge_effect :
    AllOrNothing (charge amount) account fun _ account' =>
      Effect account (.charge amount) account' := by
  apply AllOrNothing.check
  intro checked hchecked
  apply AllOrNothing.get
  apply AllOrNothing.check
  intro sum hsum
  have hnonneg := (requireNonNegative_eq_ok.mp hchecked).1
  exact .of_call rfl (.charge hnonneg (addI128_eq_ok.mp hsum))

/-- What is owed goes down by the amount, and not below zero. -/
theorem reduce_effect {Q : DebtAccount → Prop}
    (hQ : ∀ rest : I128, amount ≤ account.outstanding →
      account.outstanding.val - amount.val = rest.val → Q { account with outstanding := rest }) :
    AllOrNothing (reduce amount) account fun _ account' => Q account' := by
  apply AllOrNothing.check
  intro checked hchecked
  apply AllOrNothing.get
  apply AllOrNothing.check
  intro _ howed
  apply AllOrNothing.check
  intro rest hrest
  rw [refuseIf_eq_ok, not_lt] at howed
  exact .of_call rfl (hQ rest howed (subI128_eq_ok.mp hrest))

/-- By the time the deposit is written, the second subtraction can no longer fail. -/
theorem payFromDeposit_effect :
    AllOrNothing (payFromDeposit amount) account fun _ account' =>
      Effect account (.payFromDeposit amount) account' := by
  apply AllOrNothing.check
  intro checked hchecked
  apply AllOrNothing.get
  apply AllOrNothing.check
  intro _ hbounds
  apply AllOrNothing.check
  intro held hheld
  rw [refuseIf_eq_ok, not_or, not_lt, not_lt] at hbounds
  obtain ⟨howed, hcovered⟩ := hbounds
  have hnonneg := (requireNonNegative_eq_ok.mp hchecked).1
  have hleft : 0 ≤ account.outstanding.val - amount.val := Int.sub_nonneg_of_le howed
  have hfits := account.outstanding.property.2
  have hrest : subI128 account.outstanding amount =
      .ok ⟨account.outstanding.val - amount.val, by omega, by omega⟩ := subI128_eq_ok.mpr rfl
  apply AllOrNothing.of_call
  · show (setDeposit held >>= fun _ => _ : AccountMethod I128).call account = (.ok amount, _)
    change (Method.check (subI128 account.outstanding amount) >>= _ : AccountMethod I128).call
      { account with deposit := held } = _
    rw [hrest]
    rfl
  · exact .payFromDeposit howed hcovered (subI128_eq_ok.mp hheld) rfl

theorem withdraw_effect :
    AllOrNothing (withdraw amount) account fun _ account' =>
      Effect account (.withdraw amount) account' := by
  apply AllOrNothing.check
  intro checked hchecked
  apply AllOrNothing.get
  apply AllOrNothing.check
  intro _ hclear
  apply AllOrNothing.check
  intro _ hcovered
  apply AllOrNothing.check
  intro rest hrest
  rw [refuseIf_eq_ok, not_lt] at hcovered
  exact .of_call rfl (.withdraw hcovered (subI128_eq_ok.mp hrest))

/-- Every operation either applies fully or leaves the account untouched. -/
theorem perform_effect (account : DebtAccount) (op : Operation) :
    AllOrNothing (perform op) account fun _ account' => Effect account op account' := by
  cases op with
  | deposit amount => exact .map deposit_effect
  | charge amount => exact .map charge_effect
  | pay amount => exact .map (reduce_effect fun _ => .pay)
  | waive amount => exact .map (reduce_effect fun _ => .waive)
  | payFromDeposit amount => exact .map payFromDeposit_effect
  | withdraw amount => exact .map withdraw_effect

end Methods

section Totals

def charged : Operation → Int
  | .charge amount => amount.val
  | _ => 0

def paid : Operation → Int
  | .pay amount => amount.val
  | _ => 0

def waived : Operation → Int
  | .waive amount => amount.val
  | _ => 0

def paidFromDeposit : Operation → Int
  | .payFromDeposit amount => amount.val
  | _ => 0

def deposited : Operation → Int
  | .deposit amount => amount.val
  | _ => 0

def withdrawn : Operation → Int
  | .withdraw amount => amount.val
  | _ => 0

variable {op : Operation}

theorem Effect.outstanding (h : Effect account op account') :
    account'.outstanding.val = account.outstanding.val +
      (charged op - paid op - waived op - paidFromDeposit op) := by
  cases h <;> simp only [charged, paid, waived, paidFromDeposit] <;> omega

theorem Effect.held (h : Effect account op account') :
    account'.deposit.val = account.deposit.val +
      (deposited op - withdrawn op - paidFromDeposit op) := by
  cases h <;> simp only [deposited, withdrawn, paidFromDeposit] <;> omega

/-- Neither figure goes below zero. -/
theorem Effect.wellFormed (h : Effect account op account') (hw : account.isWellFormed = true) :
    account'.isWellFormed = true := by
  simp only [DebtAccount.isWellFormed, Bool.and_eq_true, decide_eq_true_eq] at hw ⊢
  obtain ⟨hdeposit, houtstanding⟩ := hw
  cases h with
  | deposit hnonneg hadded => exact ⟨hadded ▸ Int.add_nonneg hdeposit hnonneg, houtstanding⟩
  | charge hnonneg hadded => exact ⟨hdeposit, hadded ▸ Int.add_nonneg houtstanding hnonneg⟩
  | pay howed htaken => exact ⟨hdeposit, htaken ▸ Int.sub_nonneg_of_le howed⟩
  | waive howed htaken => exact ⟨hdeposit, htaken ▸ Int.sub_nonneg_of_le howed⟩
  | payFromDeposit howed hcovered hdrawn htaken =>
    exact ⟨hdrawn ▸ Int.sub_nonneg_of_le hcovered, htaken ▸ Int.sub_nonneg_of_le howed⟩
  | withdraw hcovered hdrawn => exact ⟨hdrawn ▸ Int.sub_nonneg_of_le hcovered, houtstanding⟩

end Totals

/-- Over every sequence of operations on a new account the figures stay at or above zero and reconcile
with what was accepted, and what is refused changes nothing. -/
theorem debt_account_conserved (ops : List Operation) :
    let lines := trace perform .new ops
    let account := final perform .new ops
    account.isWellFormed = true ∧
      account.outstanding.val = total charged lines - total paid lines - total waived lines -
        total paidFromDeposit lines ∧
      account.deposit.val =
        total deposited lines - total withdrawn lines - total paidFromDeposit lines ∧
      ∀ line ∈ lines, line.result.isOk = false → line.post = line.pre := by
  intro lines account
  have hwellFormed : account.isWellFormed = true :=
    Method.final_invariant perform_effect (fun _ _ _ hw h => h.wellFormed hw) (by decide) ops
  have howed := Method.final_balance (f := fun account : DebtAccount => account.outstanding.val)
    perform_effect (fun _ _ _ h => h.outstanding) .new ops
  have hheld := Method.final_balance (f := fun account : DebtAccount => account.deposit.val)
    perform_effect (fun _ _ _ h => h.held) .new ops
  rw [Method.total_sub, Method.total_sub, Method.total_sub] at howed
  rw [Method.total_sub, Method.total_sub] at hheld
  refine ⟨hwellFormed, ?_, ?_, ?_⟩
  · exact howed.trans (zero_add _)
  · exact hheld.trans (zero_add _)
  · exact fun line hline => Method.trace_refused perform_effect hline

section Ratios

/-- Which way an inexact division is resolved. -/
inductive Rounding where
  | down
  | up
  deriving DecidableEq, Repr

def mulI128 (a b : I128) : Except MathError I128 := orRefuse (toI128 (a.val * b.val)) .overflow

@[simp] theorem mulI128_eq_ok {a b c : I128} : mulI128 a b = .ok c ↔ a.val * b.val = c.val := by
  simp [mulI128]

theorem tdiv_bounds (x : I128) {d : Int} (hd : 0 < d) :
    -2^127 ≤ x.val.tdiv d ∧ x.val.tdiv d < 2^127 := by
  obtain ⟨hlow, hhigh⟩ := x.property
  rcases Int.le_total 0 x.val with hpos | hneg
  · have hle : x.val.tdiv d ≤ x.val := by
      rw [Int.tdiv_eq_ediv_of_nonneg hpos]
      exact Int.ediv_le_self _ hpos
    have hnonneg := Int.tdiv_nonneg hpos hd.le
    omega
  · have hnegated : (-x.val).tdiv d ≤ -x.val := by
      rw [Int.tdiv_eq_ediv_of_nonneg (by omega)]
      exact Int.ediv_le_self _ (by omega)
    have hnonneg := Int.tdiv_nonneg (by omega : 0 ≤ -x.val) hd.le
    rw [Int.neg_tdiv] at hnegated hnonneg
    omega

/-- `/` by a positive denominator, which never overflows. -/
def quotient (x denominator : I128) (h : 0 < denominator.val) : I128 :=
  ⟨x.val.tdiv denominator.val, tdiv_bounds x h⟩

/-- `a * b / denominator`, the product first. -/
def mulDiv (a b denominator : I128) (rounding : Rounding) : Except MathError I128 := do
  let _ ← requireNonNegative a
  let _ ← requireNonNegative b
  if h : 0 < denominator.val then do
    let product ← mulI128 a b
    match rounding with
    | .down => pure (quotient product denominator h)
    | .up =>
      if product.val.tmod denominator.val = 0 then pure (quotient product denominator h)
      else addI128 (quotient product denominator h) ⟨1, by decide⟩
  else .error (if denominator.val = 0 then .divideByZero else .negativeAmount)

/-- The operands that `mulDiv` takes. -/
def Takes (a b denominator : I128) : Prop := 0 ≤ a.val ∧ 0 ≤ b.val ∧ 0 < denominator.val

/-- The exact quotient, rounded. -/
def roundedQuotient (product denominator : Int) : Rounding → Int
  | .down => ⌊(product / denominator : ℚ)⌋
  | .up => ⌈(product / denominator : ℚ)⌉

section Quotients

variable {p d : Int}

theorem floor_quotient (p : Int) (hd : 0 < d) : ⌊(p / d : ℚ)⌋ = p / d := by
  obtain ⟨n, rfl⟩ := Int.eq_ofNat_of_zero_le hd.le
  exact Rat.floor_intCast_div_natCast p n

theorem ceil_quotient (p : Int) (hd : 0 < d) :
    ⌈(p / d : ℚ)⌉ = if p % d = 0 then p / d else p / d + 1 := by
  obtain ⟨n, rfl⟩ := Int.eq_ofNat_of_zero_le hd.le
  have hceil : ⌈(p / (n : Int) : ℚ)⌉ = -((-p) / (n : Int)) := Rat.ceil_intCast_div_natCast p n
  rw [hceil, Int.neg_ediv, Int.sign_eq_one_of_pos hd]
  simp only [Int.dvd_iff_emod_eq_zero]
  split_ifs <;> omega

end Quotients

section Exactness

variable {a b denominator : I128} {rounding : Rounding}

/-- Operands that are not taken never reach the multiplication. -/
theorem mulDiv_refuses (h : ¬ Takes a b denominator) :
    mulDiv a b denominator rounding = .error .negativeAmount ∨
      mulDiv a b denominator rounding = .error .divideByZero := by
  unfold mulDiv requireNonNegative refuseIf
  by_cases ha : a.val < 0
  · left
    rw [if_pos ha]
    rfl
  · by_cases hb : b.val < 0
    · left
      rw [if_neg ha, if_pos hb]
      rfl
    · have hd : ¬ 0 < denominator.val := fun hd => h ⟨by omega, by omega, hd⟩
      rw [if_neg ha, if_neg hb]
      simp only [ok_bind, pure, Except.pure, dif_neg hd]
      by_cases hzero : denominator.val = 0
      · right
        rw [if_pos hzero]
      · left
        rw [if_neg hzero]

theorem mulDiv_overflows (h : Takes a b denominator) (hlarge : 2^127 ≤ a.val * b.val) :
    mulDiv a b denominator rounding = .error .overflow := by
  obtain ⟨ha, hb, hd⟩ := h
  have hproduct : mulI128 a b = .error .overflow := by
    rw [mulI128, toI128, dif_neg fun hfits => absurd hfits.2 (not_lt.mpr hlarge)]
    rfl
  rw [mulDiv, requireNonNegative_eq_ok.mpr ⟨ha, rfl⟩, requireNonNegative_eq_ok.mpr ⟨hb, rfl⟩]
  simp only [ok_bind, dif_pos hd, hproduct, error_bind]

/-- A product that fits is divided exactly, up to the rounding. -/
theorem mulDiv_rounds (rounding : Rounding) (h : Takes a b denominator) (hfits : a.val * b.val < 2^127) :
    ∃ result, mulDiv a b denominator rounding = .ok result ∧
      result.val = roundedQuotient (a.val * b.val) denominator.val rounding := by
  obtain ⟨ha, hb, hd⟩ := h
  have hnonneg : 0 ≤ a.val * b.val := Int.mul_nonneg ha hb
  obtain ⟨product, hproduct⟩ : ∃ product : I128, a.val * b.val = product.val :=
    ⟨⟨a.val * b.val, by omega, hfits⟩, rfl⟩
  rw [hproduct] at hnonneg
  have hquotient : (quotient product denominator hd).val = product.val / denominator.val :=
    Int.tdiv_eq_ediv_of_nonneg hnonneg
  have hremainder : product.val.tmod denominator.val = product.val % denominator.val :=
    Int.tmod_eq_emod_of_nonneg hnonneg
  rw [mulDiv, requireNonNegative_eq_ok.mpr ⟨ha, rfl⟩, requireNonNegative_eq_ok.mpr ⟨hb, rfl⟩]
  simp only [ok_bind, dif_pos hd, mulI128_eq_ok.mpr hproduct, hproduct, hremainder]
  cases rounding with
  | down =>
    refine ⟨_, rfl, ?_⟩
    rw [hquotient, roundedQuotient, floor_quotient _ hd]
  | up =>
    rw [roundedQuotient, ceil_quotient _ hd]
    by_cases hexact : product.val % denominator.val = 0
    · simp only [if_pos hexact]
      exact ⟨_, rfl, hquotient⟩
    · simp only [if_neg hexact]
      -- With a remainder the denominator is at least 2, so that the quotient is no limit of the type.
      have htwo : 2 ≤ denominator.val := by
        by_contra hone
        have hunit : denominator.val = 1 := by omega
        rw [hunit, Int.emod_one] at hexact
        exact hexact rfl
      have hlow := Int.ediv_nonneg hnonneg hd.le
      have hhalf : product.val / denominator.val * 2 ≤ product.val :=
        (Int.mul_le_mul_of_nonneg_left htwo hlow).trans (Int.ediv_mul_le _ hd.ne')
      have hbound := product.property.2
      refine ⟨⟨product.val / denominator.val + 1, by omega, by omega⟩, ?_, rfl⟩
      rw [addI128_eq_ok, hquotient]

/-- `mulDiv` overflows exactly when the product does; otherwise it is the floor or the ceiling of the
exact quotient, and these are at most one apart. -/
theorem mulDiv_exact (h : Takes a b denominator) :
    (∀ rounding, mulDiv a b denominator rounding = .error .overflow ↔
      ¬ (-2^127 ≤ a.val * b.val ∧ a.val * b.val < 2^127)) ∧
    (-2^127 ≤ a.val * b.val ∧ a.val * b.val < 2^127 →
      ∃ low high, mulDiv a b denominator .down = .ok low ∧ mulDiv a b denominator .up = .ok high ∧
        low.val = ⌊(a.val * b.val / denominator.val : ℚ)⌋ ∧
        high.val = ⌈(a.val * b.val / denominator.val : ℚ)⌉ ∧ high.val ≤ low.val + 1) := by
  have hnonneg : 0 ≤ a.val * b.val := Int.mul_nonneg h.1 h.2.1
  constructor
  · intro rounding
    constructor
    · intro hoverflow hfits
      obtain ⟨result, hresult, _⟩ := mulDiv_rounds rounding h hfits.2
      rw [hoverflow] at hresult
      cases hresult
    · intro hlarge
      exact mulDiv_overflows h (by omega)
  · intro hfits
    obtain ⟨low, hlow, hfloor⟩ := mulDiv_rounds .down h hfits.2
    obtain ⟨high, hhigh, hceil⟩ := mulDiv_rounds .up h hfits.2
    simp only [roundedQuotient, Int.cast_mul] at hfloor hceil
    refine ⟨low, high, hlow, hhigh, hfloor, hceil, ?_⟩
    rw [hfloor, hceil]
    exact Int.ceil_le_floor_add_one _

/-- 21 / 10. -/
theorem mulDiv_exact_sample :
    ∃ low high, mulDiv ⟨7, by decide⟩ ⟨3, by decide⟩ ⟨10, by decide⟩ .down = .ok low ∧
      mulDiv ⟨7, by decide⟩ ⟨3, by decide⟩ ⟨10, by decide⟩ .up = .ok high ∧
      high.val ≤ low.val + 1 := by
  obtain ⟨low, high, hlow, hhigh, _, _, hapart⟩ :=
    (@mulDiv_exact ⟨7, by decide⟩ ⟨3, by decide⟩ ⟨10, by decide⟩
      ⟨by decide, by decide, by decide⟩).2 (by decide)
  exact ⟨low, high, hlow, hhigh, hapart⟩

end Exactness

end Ratios

end ChainVerse.Math
