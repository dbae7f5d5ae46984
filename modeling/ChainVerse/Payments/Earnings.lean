import ChainVerse.Framework.Accounts
import ChainVerse.Framework.Histories
import ChainVerse.Host.Tokens

namespace ChainVerse.PaymentContract

inductive ContractError where
  | alreadyInitialized
  | notAdmin
  | notInitialized
  | invalidFee
  | alreadyEnrolled
  | notEnrolled
  | paymentFailed
  | refundWindowExpired
  | insufficientBalance
  | invalidAmount
  deriving DecidableEq, Repr

abbrev Outcome (α : Type) := Except (Abort ContractError) α

structure PaymentRecord where
  student : Address
  courseId : Symbol
  amount : Int
  paidAt : Nat
  deriving DecidableEq, Repr

/-- The contract's storage, next to the token books. -/
structure State where
  admin : Option Address
  token : Option Address
  /-- In hundredths of a percent, zero where nothing is stored. -/
  feePercent : Nat
  /-- A day where nothing is stored. -/
  refundWindowSeconds : Nat
  enrollment : Address × Symbol → Bool
  paymentRecord : Address × Symbol → Option PaymentRecord
  instructorBalance : Address → Int
  tokens : Tokens

def State.empty (tokens : Tokens) : State where
  admin := none
  token := none
  feePercent := 0
  refundWindowSeconds := 86400
  enrollment := fun _ => false
  paymentRecord := fun _ => none
  instructorBalance := fun _ => 0
  tokens

variable {contract : Address}

section EntryPoints

def calculateFee (amount : Int) (feePercent : Nat) : Outcome Int := do
  refuseIf (2000 < feePercent) (.err .invalidFee)
  let product ← orRefuse (fitsI128 (amount * feePercent)) .overflow
  pure (product.tdiv 10000)

def initializeContract (env : Env contract) (s : State) (admin token : Address)
    (feePercent refundWindowSeconds : Nat) : Outcome State := do
  requireAuth env admin
  refuseIf (s.admin ≠ none) (.err .alreadyInitialized)
  refuseIf (2000 < feePercent) (.err .invalidFee)
  pure { s with admin := some admin, token := some token, feePercent, refundWindowSeconds }

def setFee (env : Env contract) (s : State) (caller : Address) (feePercent : Nat) : Outcome State := do
  let admin ← orRefuse s.admin (.err .notInitialized)
  refuseIf (caller ≠ admin) (.err .notAdmin)
  requireAuth env caller
  refuseIf (2000 < feePercent) (.err .invalidFee)
  pure { s with feePercent }

/-- Where no token is stored, the transfer is asked of the contract with the id zero, and there is none. -/
def payForCourse (env : Env contract) (s : State) (student : Address) (courseId : Symbol)
    (instructor : Address) (amount : Int) : Outcome State := do
  requireAuth env student
  refuseIf (amount ≤ 0) (.err .invalidAmount)
  refuseIf (s.enrollment (student, courseId) = true) (.err .alreadyEnrolled)
  let fee ← calculateFee amount s.feePercent
  let instructorAmount := amount - fee
  let token ← orRefuse s.token .refused
  let tokens ← s.tokens.transfer env ⟨token, student, contract, amount⟩
  let record : PaymentRecord := { student, courseId, amount, paidAt := env.timestamp }
  let balance ← orRefuse (fitsI128 (s.instructorBalance instructor + instructorAmount)) .overflow
  pure { s with
    tokens
    enrollment := Function.update s.enrollment (student, courseId) true
    paymentRecord := Function.update s.paymentRecord (student, courseId) (some record)
    instructorBalance := Function.update s.instructorBalance instructor balance }

/-- The record of the payment stays, and so do the instructor's earnings. -/
def refund (env : Env contract) (s : State) (student : Address) (courseId : Symbol) : Outcome State := do
  let admin ← orRefuse s.admin (.err .notInitialized)
  requireAuth env admin
  refuseIf (s.enrollment (student, courseId) = false) (.err .notEnrolled)
  let payment ← orRefuse (s.paymentRecord (student, courseId)) (.err .paymentFailed)
  let deadline ← orRefuse (fitsU 64 (payment.paidAt + s.refundWindowSeconds)) .overflow
  refuseIf (deadline < env.timestamp) (.err .refundWindowExpired)
  let token ← orRefuse s.token .refused
  let tokens ← s.tokens.transfer env ⟨token, contract, student, payment.amount⟩
  pure { s with tokens, enrollment := Function.update s.enrollment (student, courseId) false }

def withdrawEarnings (env : Env contract) (s : State) (instructor : Address) : Outcome State := do
  requireAuth env instructor
  let balance := s.instructorBalance instructor
  refuseIf (balance ≤ 0) (.err .insufficientBalance)
  let token ← orRefuse s.token .refused
  let tokens ← s.tokens.transfer env ⟨token, contract, instructor, balance⟩
  pure { s with tokens, instructorBalance := Function.update s.instructorBalance instructor 0 }

end EntryPoints

/-- The entry points that write, and transfers by others than the contract. -/
inductive Call where
  | initializeContract (admin token : Address) (feePercent refundWindowSeconds : Nat)
  | setFee (caller : Address) (feePercent : Nat)
  | payForCourse (student : Address) (courseId : Symbol) (instructor : Address) (amount : Int)
  | refund (student : Address) (courseId : Symbol)
  | withdrawEarnings (instructor : Address)
  | transferElsewhere (t : Transfer)
  deriving DecidableEq

structure Input (contract : Address) where
  env : Env contract
  call : Call

/-- One call applied to the state. -/
def execute (env : Env contract) (s : State) : Call → Outcome State
  | .initializeContract admin token feePercent refundWindowSeconds =>
    initializeContract env s admin token feePercent refundWindowSeconds
  | .setFee caller feePercent => setFee env s caller feePercent
  | .payForCourse student courseId instructor amount =>
    payForCourse env s student courseId instructor amount
  | .refund student courseId => refund env s student courseId
  | .withdrawEarnings instructor => withdrawEarnings env s instructor
  | .transferElsewhere t => do
    refuseIf (t.sender = contract) .refused
    let tokens ← s.tokens.transfer env t
    pure { s with tokens }

def machine (contract : Address) : Machine State (Input contract) Unit (Abort ContractError) where
  step s i := ((), ·) <$> execute i.env s i.call

/-- An accepted call of a run, with the stores around it. -/
abbrev Step (contract : Address) := Entry State (Input contract) Unit

section Steps

variable {env : Env contract} {s s' : State} {call : Call}

/-- The fee on an amount where it does not overflow. -/
def feeOn (amount : Int) (feePercent : Nat) : Int := (amount * feePercent).tdiv 10000

/-- What an accepted call can have done. -/
inductive Effect (env : Env contract) (s : State) : Call → State → Prop where
  | initialized (admin token : Address) (feePercent refundWindowSeconds : Nat) (vacant : s.admin = none)
      (bounded : feePercent ≤ 2000) :
      Effect env s (.initializeContract admin token feePercent refundWindowSeconds)
        { s with admin := some admin, token := some token, feePercent, refundWindowSeconds }
  | priced (caller : Address) (feePercent : Nat) (configured : s.admin = some caller)
      (signed : env.signers caller = true) (bounded : feePercent ≤ 2000) :
      Effect env s (.setFee caller feePercent) { s with feePercent }
  | paid (student : Address) (courseId : Symbol) (instructor : Address) (amount : Int) (token : Address)
      (signed : env.signers student = true) (positive : 0 < amount)
      (absent : s.enrollment (student, courseId) = false) (bounded : s.feePercent ≤ 2000)
      (named : s.token = some token) (funded : amount ≤ s.tokens.balance token student) :
      Effect env s (.payForCourse student courseId instructor amount)
        { s with
          tokens := s.tokens.move ⟨token, student, contract, amount⟩
          enrollment := Function.update s.enrollment (student, courseId) true
          paymentRecord := Function.update s.paymentRecord (student, courseId)
            (some { student, courseId, amount, paidAt := env.timestamp })
          instructorBalance := credit s.instructorBalance (instructor, amount - feeOn amount s.feePercent) }
  | refunded (student : Address) (courseId : Symbol) (admin token : Address) (payment : PaymentRecord)
      (configured : s.admin = some admin) (signed : env.signers admin = true)
      (enrolled : s.enrollment (student, courseId) = true)
      (recorded : s.paymentRecord (student, courseId) = some payment)
      (early : env.timestamp ≤ payment.paidAt + s.refundWindowSeconds) (named : s.token = some token)
      (funded : payment.amount ≤ s.tokens.balance token contract) :
      Effect env s (.refund student courseId)
        { s with
          tokens := s.tokens.move ⟨token, contract, student, payment.amount⟩
          enrollment := Function.update s.enrollment (student, courseId) false }
  | withdrawn (instructor token : Address) (signed : env.signers instructor = true)
      (earned : 0 < s.instructorBalance instructor) (named : s.token = some token)
      (funded : s.instructorBalance instructor ≤ s.tokens.balance token contract) :
      Effect env s (.withdrawEarnings instructor)
        { s with
          tokens := s.tokens.move ⟨token, contract, instructor, s.instructorBalance instructor⟩
          instructorBalance := Function.update s.instructorBalance instructor 0 }
  | elsewhere (t : Transfer) (sender : t.sender ≠ contract) (nonneg : 0 ≤ t.amount) :
      Effect env s (.transferElsewhere t) { s with tokens := s.tokens.move t }

theorem calculateFee_eq_ok {amount fee : Int} {feePercent : Nat}
    (h : calculateFee amount feePercent = .ok fee) : feePercent ≤ 2000 ∧ feeOn amount feePercent = fee := by
  simp only [calculateFee, bind_eq_ok, exists_unit, refuseIf_eq_ok, orRefuse_eq_ok, fitsI128_eq_some,
    pure_eq_ok, not_lt] at h
  obtain ⟨hbounded, _, ⟨_, rfl⟩, rfl⟩ := h
  exact ⟨hbounded, rfl⟩

theorem execute_effect (h : execute env s call = .ok s') : Effect env s call s' := by
  cases call with
  | initializeContract admin token feePercent refundWindowSeconds =>
    simp only [execute, initializeContract, bind_eq_ok, exists_unit, refuseIf_eq_ok, pure_eq_ok, not_not,
      not_lt] at h
    obtain ⟨_, hvacant, hbounded, rfl⟩ := h
    exact .initialized admin token feePercent refundWindowSeconds hvacant hbounded
  | setFee caller feePercent =>
    simp only [execute, setFee, bind_eq_ok, exists_unit, orRefuse_eq_ok, refuseIf_eq_ok, requireAuth_eq_ok,
      pure_eq_ok, not_not, not_lt] at h
    obtain ⟨admin, hconfigured, rfl, hsigned, hbounded, rfl⟩ := h
    exact .priced caller feePercent hconfigured hsigned hbounded
  | payForCourse student courseId instructor amount =>
    simp only [execute, payForCourse, bind_eq_ok, exists_unit, orRefuse_eq_ok, refuseIf_eq_ok,
      requireAuth_eq_ok, Tokens.transfer_eq_ok, fitsI128_eq_some, pure_eq_ok, not_le, Bool.not_eq_true] at h
    obtain ⟨hsigned, hpositive, habsent, fee, hfee, token, hnamed, _, ⟨_, _, hfunded, rfl⟩, _, ⟨_, rfl⟩, rfl⟩ := h
    obtain ⟨hbounded, rfl⟩ := calculateFee_eq_ok hfee
    exact .paid student courseId instructor amount token hsigned hpositive habsent hbounded hnamed hfunded
  | refund student courseId =>
    simp only [execute, refund, bind_eq_ok, exists_unit, orRefuse_eq_ok, refuseIf_eq_ok, requireAuth_eq_ok,
      Tokens.transfer_eq_ok, fitsU_eq_some, pure_eq_ok, not_lt, Bool.not_eq_false] at h
    obtain ⟨admin, hconfigured, hsigned, henrolled, payment, hrecorded, _, ⟨_, rfl⟩, hearly, token, hnamed, _,
      ⟨_, _, hfunded, rfl⟩, rfl⟩ := h
    exact .refunded student courseId admin token payment hconfigured hsigned henrolled hrecorded hearly hnamed
      hfunded
  | withdrawEarnings instructor =>
    simp only [execute, withdrawEarnings, bind_eq_ok, exists_unit, orRefuse_eq_ok, refuseIf_eq_ok,
      requireAuth_eq_ok, Tokens.transfer_eq_ok, pure_eq_ok, not_le] at h
    obtain ⟨hsigned, hearned, token, hnamed, _, ⟨_, _, hfunded, rfl⟩, rfl⟩ := h
    exact .withdrawn instructor token hsigned hearned hnamed hfunded
  | transferElsewhere t =>
    simp only [execute, bind_eq_ok, exists_unit, refuseIf_eq_ok, Tokens.transfer_eq_ok, pure_eq_ok] at h
    obtain ⟨hsender, _, ⟨_, hnonneg, _, rfl⟩, rfl⟩ := h
    exact .elsewhere t hsender hnonneg

theorem step_effect {i : Input contract} {u : Unit} (h : (machine contract).step s i = .ok (u, s')) :
    Effect i.env s i.call s' := by
  simp only [machine, map_eq_ok, Prod.mk.injEq] at h
  obtain ⟨_, h, _, rfl⟩ := h
  exact execute_effect h

end Steps

section Accounting

variable {env : Env contract} {s s' : State} {call : Call} {k : Address}

/-- What the contract holds of a token for instructors. -/
noncomputable def State.owed (s : State) (k : Address) : Int :=
  if s.token = some k then holdings s.instructorBalance else 0

/-- The part of a payment that no instructor gets. -/
def keptFee (k : Address) (e : Step contract) : Int :=
  match e.input.call with
  | .payForCourse _ _ _ amount => if e.pre.token = some k then feeOn amount e.pre.feePercent else 0
  | _ => 0

/-- What a refund pays back. -/
def refunded (k : Address) (e : Step contract) : Int :=
  match e.input.call with
  | .refund student courseId =>
    if e.pre.token = some k then ((e.pre.paymentRecord (student, courseId)).elim 0 PaymentRecord.amount) else 0
  | _ => 0

/-- What others send to the contract. -/
def donated (k : Address) (e : Step contract) : Int :=
  match e.input.call with
  | .transferElsewhere t => if k = t.token ∧ contract = t.recipient then t.amount else 0
  | _ => 0

/-- What holds of every store that calls reach. -/
structure Booked (contract : Address) (s : State) : Prop where
  sound : Sound s.instructorBalance
  vacant : s.admin = none → s.token = none ∧ s.instructorBalance = fun _ => 0
  students : ∀ key, s.enrollment key = true → key.1 ≠ contract
  recorded : ∀ key, s.enrollment key = true → ∃ r, s.paymentRecord key = some r

theorem booked_empty (tokens : Tokens) : Booked contract (State.empty tokens) where
  sound := sound_zero
  vacant _ := ⟨rfl, rfl⟩
  students _ h := Bool.noConfusion h
  recorded _ h := Bool.noConfusion h

/-- The fee is at most a fifth of the payment. -/
theorem fee_within {amount : Int} {feePercent : Nat} (hpositive : 0 < amount) (hbounded : feePercent ≤ 2000) :
    0 ≤ feeOn amount feePercent ∧ 5 * feeOn amount feePercent ≤ amount := by
  have hproduct : 0 ≤ amount * feePercent := Int.mul_nonneg hpositive.le (Int.natCast_nonneg _)
  have hpart : amount * feePercent ≤ amount * 2000 := by
    apply Int.mul_le_mul_of_nonneg_left _ hpositive.le
    omega
  rw [feeOn, Int.tdiv_eq_ediv_of_nonneg hproduct]
  omega

theorem Booked.configured (hs : Booked contract s) (h : s.token = some k) : s.admin ≠ none := by
  intro hvacant
  rw [(hs.vacant hvacant).1] at h
  cases h

theorem Booked.step (hs : Booked contract s) (h : Effect env s call s') : Booked contract s' := by
  cases h with
  | initialized => exact ⟨hs.sound, (fun h => nomatch h), hs.students, hs.recorded⟩
  | priced => exact ⟨hs.sound, hs.vacant, hs.students, hs.recorded⟩
  | paid student courseId instructor amount token signed positive absent bounded named =>
    have hfee := fee_within positive bounded
    refine ⟨?_, fun h => absurd h (hs.configured named), ?_, ?_⟩
    · apply hs.sound.update
      have hearned := hs.sound.nonneg instructor
      dsimp only
      omega
    · apply (Function.forall_update_iff s.enrollment fun key enrolled => enrolled = true → key.1 ≠ contract).mpr
      exact ⟨fun _ => env.signer_ne_contract signed, fun key _ => hs.students key⟩
    · intro key hkey
      dsimp only at hkey ⊢
      by_cases hpaid : key = (student, courseId)
      · rw [hpaid, Function.update_self]
        exact ⟨_, rfl⟩
      · rw [Function.update_of_ne hpaid] at hkey ⊢
        exact hs.recorded key hkey
  | refunded student courseId =>
    refine ⟨hs.sound, hs.vacant, ?_, ?_⟩
    · apply (Function.forall_update_iff s.enrollment fun key enrolled => enrolled = true → key.1 ≠ contract).mpr
      exact ⟨fun habsent => Bool.noConfusion habsent, fun key _ => hs.students key⟩
    · apply (Function.forall_update_iff s.enrollment fun key enrolled =>
        enrolled = true → ∃ r, s.paymentRecord key = some r).mpr
      exact ⟨fun habsent => Bool.noConfusion habsent, fun key _ => hs.recorded key⟩
  | withdrawn instructor _ _ _ named =>
    exact ⟨hs.sound.update instructor le_rfl, fun h => absurd h (hs.configured named), hs.students, hs.recorded⟩
  | elsewhere => exact ⟨hs.sound, hs.vacant, hs.students, hs.recorded⟩

/-- What an accepted call does to the contract's tokens beyond what it owes. -/
theorem Booked.accounts {i : Input contract} {u : Unit} (hs : Booked contract s)
    (h : Effect i.env s i.call s') :
    s'.tokens.balance k contract - s'.owed k = s.tokens.balance k contract - s.owed k +
      (keptFee k ⟨s, i, u, s'⟩ + donated k ⟨s, i, u, s'⟩ + -refunded k ⟨s, i, u, s'⟩) := by
  obtain ⟨env, call⟩ := i
  dsimp only at h
  cases h with
  | initialized admin token feePercent refundWindowSeconds vacant =>
    obtain ⟨hunnamed, hnothing⟩ := hs.vacant vacant
    simp [State.owed, keptFee, donated, refunded, hunnamed, hnothing, holdings_zero]
  | priced => simp [State.owed, keptFee, donated, refunded]
  | paid student courseId instructor amount token signed positive absent bounded named =>
    have hstudent := env.signer_ne_contract signed
    have howed := holdings_update hs.sound instructor
      (s.instructorBalance instructor + (amount - feeOn amount s.feePercent))
    simp only [State.owed, keptFee, donated, refunded, Tokens.move_balance, credit, named, howed,
      Option.some.injEq]
    by_cases hk : token = k
    · simp [hk, hstudent.symm]
      omega
    · simp [hk, Ne.symm hk]
  | refunded student courseId admin token payment configured signed enrolled recorded early named =>
    have hstudent : student ≠ contract := hs.students _ enrolled
    simp only [State.owed, keptFee, donated, PaymentContract.refunded, Tokens.move_balance, named, recorded,
      Option.some.injEq, Option.elim]
    by_cases hk : token = k
    · simp [hk, hstudent.symm]
      omega
    · simp [hk, Ne.symm hk]
  | withdrawn instructor token signed earned named =>
    have hinstructor := env.signer_ne_contract signed
    have howed := holdings_update hs.sound instructor 0
    simp only [State.owed, keptFee, donated, refunded, Tokens.move_balance, named, howed, Option.some.injEq]
    by_cases hk : token = k
    · simp [hk, hinstructor.symm]
    · simp [hk, Ne.symm hk]
  | elsewhere t sender =>
    simp only [State.owed, keptFee, donated, refunded, Tokens.move_balance, sender.symm, and_false, if_false]
    omega

theorem run_booked (tokens : Tokens) (is : List (Input contract)) :
    Booked contract ((machine contract).run (State.empty tokens) is) :=
  Machine.run_invariant (booked_empty tokens) (fun _ _ _ _ hs h => hs.step (step_effect h)) is

theorem run_accounts (tokens : Tokens) (is : List (Input contract)) (k : Address) :
    let s := (machine contract).run (State.empty tokens) is
    let total (w : Step contract → Int) := (machine contract).tally w (State.empty tokens) is
    s.tokens.balance k contract + total (refunded k) =
      tokens.balance k contract + s.owed k + total (keptFee k) + total (donated k) := by
  intro s total
  have hmoved := @Machine.run_balance _ _ _ _ (machine contract) _ _
    (fun e => keptFee k e + donated k e + -refunded k e) (Booked contract)
    (fun s => s.tokens.balance k contract - s.owed k) (State.empty tokens) (booked_empty tokens)
    (fun _ _ _ _ hs h => hs.step (step_effect h)) (fun _ _ _ _ hs h => hs.accounts (step_effect h)) is
  have hnothing : (State.empty tokens).owed k = 0 := if_neg nofun
  have htokens : (State.empty tokens).tokens.balance k contract = tokens.balance k contract := rfl
  rw [Machine.tally_add, Machine.tally_add, Machine.tally_neg, hnothing, htokens] at hmoved
  dsimp only [s, total]
  omega

/-- The one way a withdrawal fails for lack of funds. -/
theorem withdraw_unfunded {instructor : Address}
    (h : withdrawEarnings env s instructor = .error .balance) :
    ∃ k, s.token = some k ∧ s.tokens.balance k contract < s.instructorBalance instructor := by
  simp only [withdrawEarnings, bind_eq_error, exists_unit, requireAuth_eq_ok, requireAuth_eq_error,
    refuseIf_eq_ok, refuseIf_eq_error, orRefuse_eq_ok, orRefuse_eq_error, Tokens.transfer_eq_balance,
    pure_ne_error, reduceCtorEq, and_false, false_or, or_false, exists_false] at h
  obtain ⟨_, _, k, hnamed, _, _, hshort⟩ := h
  exact ⟨k, hnamed, hshort⟩

/-- The contract's tokens are those it started with, the instructors' earnings, the fees and what was sent to
it, less all refunds. As the refunds are not taken from the earnings, it can pay an instructor as long as the
other three make up for them. -/
theorem earnings_are_covered_but_for_refunds (tokens : Tokens) (is : List (Input contract)) :
    let s := (machine contract).run (State.empty tokens) is
    let total (w : Step contract → Int) := (machine contract).tally w (State.empty tokens) is
    Sound s.instructorBalance ∧
      (∀ k, s.tokens.balance k contract + total (refunded k) =
        tokens.balance k contract + s.owed k + total (keptFee k) + total (donated k)) ∧
      ∀ k, s.token = some k →
        total (refunded k) ≤ tokens.balance k contract + total (keptFee k) + total (donated k) →
        ∀ (env : Env contract) (instructor : Address), withdrawEarnings env s instructor ≠ .error .balance := by
  intro s total
  have hsound : Sound s.instructorBalance := (run_booked tokens is).sound
  refine ⟨hsound, run_accounts tokens is, ?_⟩
  intro k hnamed hcovered env instructor hfailed
  obtain ⟨k', hnamed', hshort⟩ := withdraw_unfunded hfailed
  obtain rfl := Option.some.inj (hnamed.symm.trans hnamed')
  have haccounts : s.tokens.balance k contract + total (refunded k) =
      tokens.balance k contract + s.owed k + total (keptFee k) + total (donated k) := run_accounts tokens is k
  have howed : s.owed k = holdings s.instructorBalance := if_pos hnamed
  have hpart := hsound.le_holdings instructor
  omega

end Accounting

section Refunds

variable {env : Env contract} {s s' : State} {call : Call} {key : Address × Symbol} {r : PaymentRecord}

/-- The student has paid for the course with this record. -/
def PaidWith (key : Address × Symbol) (r : PaymentRecord) (e : Step contract) : Prop :=
  ∃ instructor amount, e.input.call = .payForCourse key.1 key.2 instructor amount ∧
    r = { student := key.1, courseId := key.2, amount, paidAt := e.input.env.timestamp }

/-- The student has been refunded for the course. -/
def Refunds (key : Address × Symbol) (e : Step contract) : Prop := e.input.call = .refund key.1 key.2

/-- The student is enrolled in the course by this payment. -/
def State.Enrolled (s : State) (key : Address × Symbol) (r : PaymentRecord) : Prop :=
  s.enrollment key = true ∧ s.paymentRecord key = some r

/-- A student is enrolled after a payment, or as long as there is no refund. -/
theorem Effect.enrolled {i : Input contract} {u : Unit} (h : Effect i.env s i.call s') :
    s'.Enrolled key r ↔ PaidWith key r ⟨s, i, u, s'⟩ ∨ s.Enrolled key r ∧ ¬Refunds key ⟨s, i, u, s'⟩ := by
  obtain ⟨env, call⟩ := i
  dsimp only at h
  cases h with
  | initialized | priced | withdrawn | elsewhere => simp [State.Enrolled, PaidWith, Refunds]
  | paid student courseId instructor amount token signed positive absent =>
    by_cases hkey : key = (student, courseId)
    · simp [State.Enrolled, PaidWith, hkey, absent, eq_comm]
    · have hother : ¬(student = key.1 ∧ courseId = key.2) := by
        rintro ⟨rfl, rfl⟩
        exact hkey rfl
      simp [State.Enrolled, PaidWith, Refunds, hkey]
      tauto
  | refunded student courseId =>
    by_cases hkey : key = (student, courseId)
    · simp [State.Enrolled, PaidWith, Refunds, hkey]
    · have hother : ¬(student = key.1 ∧ courseId = key.2) := by
        rintro ⟨rfl, rfl⟩
        exact hkey rfl
      simp [State.Enrolled, PaidWith, Refunds, hkey, hother]

theorem run_enrolled (tokens : Tokens) (is : List (Input contract)) (key : Address × Symbol)
    (r : PaymentRecord) : ((machine contract).run (State.empty tokens) is).Enrolled key r ↔
      Since (PaidWith key r) (Refunds key) ((machine contract).journal (State.empty tokens) is) := by
  apply Machine.run_since (P := fun s : State => s.Enrolled key r)
  · rintro ⟨habsent, _⟩
    cases habsent
  · exact fun s i _ s' h => (step_effect h).enrolled

/-- A student is enrolled in a course exactly when it has paid for it and has not been refunded since. A refund
is signed by the admin, comes within the window after that last payment, and sends exactly its amount to the
student. -/
theorem refunds_return_the_last_payment (tokens : Tokens) (is : List (Input contract)) :
    let s := (machine contract).run (State.empty tokens) is
    let es := (machine contract).journal (State.empty tokens) is
    (∀ key, s.enrollment key = true ↔ ∃ r, Since (PaidWith key r) (Refunds key) es) ∧
      (∀ key r, s.Enrolled key r ↔ Since (PaidWith key r) (Refunds key) es) ∧
      ∀ earlier e later key, es = earlier ++ e :: later → Refunds key e →
        ∃ r admin token, Since (PaidWith key r) (Refunds key) earlier ∧
          e.pre.admin = some admin ∧ e.input.env.signers admin = true ∧
          e.input.env.timestamp ≤ r.paidAt + e.pre.refundWindowSeconds ∧
          e.pre.token = some token ∧ e.post.tokens = e.pre.tokens.move ⟨token, contract, key.1, r.amount⟩ := by
  intro s es
  refine ⟨?_, run_enrolled tokens is, ?_⟩
  · intro key
    constructor
    · intro henrolled
      obtain ⟨r, hr⟩ := (run_booked tokens is).recorded key henrolled
      exact ⟨r, (run_enrolled tokens is key r).mp ⟨henrolled, hr⟩⟩
    · rintro ⟨r, hsince⟩
      exact ((run_enrolled tokens is key r).mpr hsince).1
  · intro earlier e later key hsplit hrefund
    obtain ⟨js, _, _, hearlier, hpre, hstep⟩ := Machine.journal_split hsplit
    have heffect := step_effect hstep
    rw [hrefund] at heffect
    obtain ⟨pre, i, u, post⟩ := e
    dsimp only at heffect hpre ⊢
    cases heffect with
    | refunded _ _ admin token payment configured signed enrolled recorded early named =>
      refine ⟨payment, admin, token, ?_, configured, signed, early, named, rfl⟩
      rw [← hearlier, ← run_enrolled, hpre]
      exact ⟨enrolled, recorded⟩

end Refunds

end ChainVerse.PaymentContract
