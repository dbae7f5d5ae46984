import ChainVerse.Framework.Machine
import ChainVerse.Host.Issuance
import ChainVerse.Host.Tokens
import Mathlib.Logic.Function.Basic

namespace ChainVerse.LibraryDeposits

section Contract

inductive DepositError where
  | notInitialized
  | alreadyInitialized
  | unauthorized
  | notFound
  | invalidAmount
  | alreadyClosed
  | insufficientBalance
  | overflow
  deriving DecidableEq, Repr

abbrev Outcome (α : Type) := Except (Abort DepositError) α

inductive DepositStatus where
  | locked
  | released
  | charged
  deriving DecidableEq, Repr

structure Deposit where
  loanId : Bytes32
  patron : Address
  token : Address
  originalAmount : Int
  remainingAmount : Int
  status : DepositStatus
  deriving DecidableEq, Repr

/-- The contract's storage, with the token books it moves. -/
structure State where
  admin : Option Address
  treasury : Option Address
  /-- Zero where nothing is stored. -/
  depositCount : Nat
  deposit : Bytes32 → Option Deposit
  tokens : Tokens

/-- A freshly deployed contract next to the given token books. -/
def State.empty (tokens : Tokens) : State where
  admin := none
  treasury := none
  depositCount := 0
  deposit := fun _ => none
  tokens := tokens

variable {contract : Address}

section Helpers

def requireAdmin (env : Env contract) (s : State) (caller : Address) : Outcome Unit := do
  let admin ← orRefuse s.admin (.err .notInitialized)
  refuseIf (caller ≠ admin) (.err .unauthorized)
  requireAuth env caller

def loadDeposit (s : State) (id : Bytes32) : Outcome Deposit :=
  orRefuse (s.deposit id) (.err .notFound)

def saveDeposit (s : State) (id : Bytes32) (deposit : Deposit) : State :=
  { s with deposit := Function.update s.deposit id (some deposit) }

/-- The bytes that a deposit id is the hash of. -/
def depositPreimage (crypto : Crypto) (count timestamp : Nat) (loanId : Bytes32)
    (patron : Address) : List Byte :=
  beBytes 8 count ++ beBytes 8 timestamp ++ bytes32 loanId ++ crypto.addressXdr patron

def nextDepositId (env : Env contract) (crypto : Crypto) (s : State) (loanId : Bytes32)
    (patron : Address) : Outcome (Bytes32 × State) := do
  let next ← orRefuse (fitsU 64 (s.depositCount + 1)) (.err .overflow)
  pure (crypto.sha256 (depositPreimage crypto next env.timestamp loanId patron),
    { s with depositCount := next })

def getTreasury (s : State) : Outcome Address := orRefuse s.treasury (.err .notInitialized)

/-- `token::Client::transfer` with the books in the store. -/
def transfer (env : Env contract) (s : State) (t : Transfer) : Outcome State := do
  let tokens ← Tokens.transfer env s.tokens t
  pure { s with tokens := tokens }

end Helpers

section EntryPoints

def initializeContract (env : Env contract) (s : State) (admin treasury : Address) :
    Outcome State := do
  refuseIf (s.admin.isSome = true) (.err .alreadyInitialized)
  requireAuth env admin
  pure { s with admin := some admin, treasury := some treasury }

def lockDeposit (env : Env contract) (crypto : Crypto) (s : State) (patron : Address)
    (loanId : Bytes32) (token : Address) (amount : Int) : Outcome (Bytes32 × State) := do
  let _admin ← orRefuse s.admin (.err .notInitialized)
  refuseIf (amount ≤ 0) (.err .invalidAmount)
  requireAuth env patron
  let s ← transfer env s ⟨token, patron, contract, amount⟩
  let (id, s) ← nextDepositId env crypto s loanId patron
  let deposit : Deposit :=
    { loanId, patron, token, originalAmount := amount, remainingAmount := amount, status := .locked }
  pure (id, saveDeposit s id deposit)

def releaseDeposit (env : Env contract) (s : State) (caller : Address) (depositId : Bytes32) :
    Outcome State := do
  let deposit ← loadDeposit s depositId
  refuseIf (deposit.status ≠ .locked) (.err .alreadyClosed)
  let admin ← orRefuse s.admin (.err .notInitialized)
  refuseIf (caller ≠ admin ∧ caller ≠ deposit.patron) (.err .unauthorized)
  requireAuth env caller
  let refund := deposit.remainingAmount
  let s ← transfer env s ⟨deposit.token, contract, deposit.patron, refund⟩
  pure (saveDeposit s depositId { deposit with remainingAmount := 0, status := .released })

def partialCharge (env : Env contract) (s : State) (caller : Address) (depositId : Bytes32)
    (chargeAmount : Int) : Outcome State := do
  requireAdmin env s caller
  refuseIf (chargeAmount ≤ 0) (.err .invalidAmount)
  let deposit ← loadDeposit s depositId
  refuseIf (deposit.status ≠ .locked) (.err .alreadyClosed)
  refuseIf (deposit.remainingAmount < chargeAmount) (.err .insufficientBalance)
  let treasury ← getTreasury s
  let s ← transfer env s ⟨deposit.token, contract, treasury, chargeAmount⟩
  let remaining ← orRefuse (fitsI128 (deposit.remainingAmount - chargeAmount)) (.err .overflow)
  pure (saveDeposit s depositId { deposit with remainingAmount := remaining })

def fullCharge (env : Env contract) (s : State) (caller : Address) (depositId : Bytes32) :
    Outcome State := do
  requireAdmin env s caller
  let deposit ← loadDeposit s depositId
  refuseIf (deposit.status ≠ .locked) (.err .alreadyClosed)
  let remaining := deposit.remainingAmount
  refuseIf (remaining ≤ 0) (.err .invalidAmount)
  let treasury ← getTreasury s
  let s ← transfer env s ⟨deposit.token, contract, treasury, remaining⟩
  pure (saveDeposit s depositId { deposit with remainingAmount := 0, status := .charged })

end EntryPoints

/-- The state-changing entry points, and the transfers between others that move the token books
without the contract. -/
inductive Call where
  | initializeContract (admin treasury : Address)
  | lockDeposit (patron : Address) (loanId : Bytes32) (token : Address) (amount : Int)
  | releaseDeposit (caller : Address) (depositId : Bytes32)
  | partialCharge (caller : Address) (depositId : Bytes32) (chargeAmount : Int)
  | fullCharge (caller : Address) (depositId : Bytes32)
  | transferElsewhere (transfer : Transfer)
  deriving DecidableEq, Repr

structure Input (contract : Address) where
  env : Env contract
  call : Call

/-- One entry point applied to the state; `lock_deposit` returns the id of the deposit. -/
def execute (crypto : Crypto) (env : Env contract) (s : State) :
    Call → Outcome (Option Bytes32 × State)
  | .initializeContract admin treasury => (none, ·) <$> initializeContract env s admin treasury
  | .lockDeposit patron loanId token amount =>
    Prod.map some id <$> lockDeposit env crypto s patron loanId token amount
  | .releaseDeposit caller depositId => (none, ·) <$> releaseDeposit env s caller depositId
  | .partialCharge caller depositId chargeAmount =>
    (none, ·) <$> partialCharge env s caller depositId chargeAmount
  | .fullCharge caller depositId => (none, ·) <$> fullCharge env s caller depositId
  | .transferElsewhere t => do
    refuseIf (t.sender = contract ∨ t.recipient = contract) .refused
    let s ← transfer env s t
    pure (none, s)

def machine (contract : Address) (crypto : Crypto) :
    Machine State (Input contract) (Option Bytes32) (Abort DepositError) where
  step s i := execute crypto i.env s i.call

end Contract

variable {contract : Address} {crypto : Crypto} {env : Env contract} {s s' : State}

/-- An accepted call of a run, with the stores around it. -/
abbrev Step (contract : Address) := Entry State (Input contract) (Option Bytes32)

/-- Money that a call takes out of a locked deposit: to whom it goes, how much it is, and the status
in which it leaves the deposit. -/
inductive Payment (s : State) (id : Bytes32) (deposit : Deposit) :
    Call → Address → Int → DepositStatus → Prop where
  | release {caller : Address} :
      Payment s id deposit (.releaseDeposit caller id) deposit.patron deposit.remainingAmount
        .released
  | partialCharge {caller treasury : Address} {amount : Int} (owner : s.treasury = some treasury)
      (positive : 0 < amount) (covered : amount ≤ deposit.remainingAmount) :
      Payment s id deposit (.partialCharge caller id amount) treasury amount .locked
  | fullCharge {caller treasury : Address} (owner : s.treasury = some treasury)
      (positive : 0 < deposit.remainingAmount) :
      Payment s id deposit (.fullCharge caller id) treasury deposit.remainingAmount .charged

/-- Everything an accepted call can have done, with its answer. -/
inductive Effect (crypto : Crypto) (env : Env contract) (s : State) :
    Call → Option Bytes32 → State → Prop where
  | appoint {admin treasury : Address} (absent : s.admin = none) :
      Effect crypto env s (.initializeContract admin treasury) none
        { s with admin := some admin, treasury := some treasury }
  | lock {patron token : Address} {loanId id : Bytes32} {amount : Int} (positive : 0 < amount)
      (signed : env.signers patron = true) (fits : s.depositCount + 1 < 2^64)
      (hashed : id = crypto.sha256
        (depositPreimage crypto (s.depositCount + 1) env.timestamp loanId patron)) :
      Effect crypto env s (.lockDeposit patron loanId token amount) (some id)
        { s with
          depositCount := s.depositCount + 1
          deposit := Function.update s.deposit id
            (some ⟨loanId, patron, token, amount, amount, .locked⟩)
          tokens := s.tokens.move ⟨token, patron, contract, amount⟩ }
  | pay {call : Call} {id : Bytes32} {deposit : Deposit} {recipient : Address} {amount : Int}
      {status : DepositStatus} (found : s.deposit id = some deposit)
      (locked : deposit.status = .locked)
      (payment : Payment s id deposit call recipient amount status) :
      Effect crypto env s call none
        { s with
          deposit := Function.update s.deposit id (some { deposit with
            remainingAmount := deposit.remainingAmount - amount, status := status })
          tokens := s.tokens.move ⟨deposit.token, contract, recipient, amount⟩ }
  | elsewhere {t : Transfer} (sender : t.sender ≠ contract) (recipient : t.recipient ≠ contract) :
      Effect crypto env s (.transferElsewhere t) none { s with tokens := s.tokens.move t }

section Inversion

theorem transfer_ok {t : Transfer} :
    transfer env s t = .ok s' ↔ (env.tokenRefuses t = false ∧ 0 ≤ t.amount ∧
      t.amount ≤ s.tokens.balance t.token t.sender) ∧ { s with tokens := s.tokens.move t } = s' := by
  simp only [transfer, bind_eq_ok, Tokens.transfer_eq_ok, pure_eq_ok]
  constructor
  · intro hparts
    obtain ⟨_, ⟨hallows, hamount, hcovered, rfl⟩, rfl⟩ := hparts
    exact ⟨⟨hallows, hamount, hcovered⟩, rfl⟩
  · intro hparts
    obtain ⟨⟨hallows, hamount, hcovered⟩, rfl⟩ := hparts
    exact ⟨_, ⟨hallows, hamount, hcovered, rfl⟩, rfl⟩

theorem lockDeposit_effect {patron token : Address} {loanId id : Bytes32} {amount : Int}
    (h : lockDeposit env crypto s patron loanId token amount = .ok (id, s')) :
    Effect crypto env s (.lockDeposit patron loanId token amount) (some id) s' := by
  simp only [lockDeposit, nextDepositId, bind_eq_ok, orRefuse_eq_ok, refuseIf_eq_ok, exists_unit,
    not_le, requireAuth_eq_ok, transfer_ok, fitsU_eq_some, pure_eq_ok, Prod.mk.injEq] at h
  obtain ⟨_, _, hpositive, hsigned, _, ⟨_, rfl⟩, ⟨_, _⟩, ⟨_, ⟨hfits, rfl⟩, rfl, rfl⟩, rfl, rfl⟩ := h
  exact .lock hpositive hsigned hfits rfl

theorem releaseDeposit_effect {caller : Address} {id : Bytes32}
    (h : releaseDeposit env s caller id = .ok s') :
    Effect crypto env s (.releaseDeposit caller id) none s' := by
  simp only [releaseDeposit, loadDeposit, bind_eq_ok, orRefuse_eq_ok, refuseIf_eq_ok, exists_unit,
    not_not, transfer_ok, pure_eq_ok] at h
  obtain ⟨deposit, hfound, hlocked, _, _, _, _, _, ⟨_, rfl⟩, rfl⟩ := h
  have hpay : Effect crypto env s (.releaseDeposit caller id) none _ :=
    .pay hfound hlocked .release
  rwa [Int.sub_self] at hpay

theorem partialCharge_effect {caller : Address} {id : Bytes32} {amount : Int}
    (h : partialCharge env s caller id amount = .ok s') :
    Effect crypto env s (.partialCharge caller id amount) none s' := by
  simp only [partialCharge, loadDeposit, getTreasury, bind_eq_ok, orRefuse_eq_ok, refuseIf_eq_ok,
    exists_unit, not_le, not_lt, not_not, transfer_ok, fitsI128_eq_some, pure_eq_ok] at h
  obtain ⟨_, hpositive, deposit, hfound, hlocked, hcovered, treasury, howner, _, ⟨_, rfl⟩, _,
    ⟨_, rfl⟩, rfl⟩ := h
  have hpay : Effect crypto env s (.partialCharge caller id amount) none _ :=
    .pay hfound hlocked (.partialCharge howner hpositive hcovered)
  rwa [← hlocked] at hpay

theorem fullCharge_effect {caller : Address} {id : Bytes32}
    (h : fullCharge env s caller id = .ok s') :
    Effect crypto env s (.fullCharge caller id) none s' := by
  simp only [fullCharge, loadDeposit, getTreasury, bind_eq_ok, orRefuse_eq_ok, refuseIf_eq_ok,
    exists_unit, not_le, not_not, transfer_ok, pure_eq_ok] at h
  obtain ⟨_, deposit, hfound, hlocked, hpositive, treasury, howner, _, ⟨_, rfl⟩, rfl⟩ := h
  have hpay : Effect crypto env s (.fullCharge caller id) none _ :=
    .pay hfound hlocked (.fullCharge howner hpositive)
  rwa [Int.sub_self] at hpay

/-- What an accepted entry point has done. -/
theorem step_effect {i : Input contract} {o : Option Bytes32}
    (h : (machine contract crypto).step s i = .ok (o, s')) :
    Effect crypto i.env s i.call o s' := by
  obtain ⟨env, call⟩ := i
  cases call with
  | initializeContract =>
    simp only [machine, execute, map_eq_ok, initializeContract, bind_eq_ok, refuseIf_eq_ok,
      exists_unit, pure_eq_ok, Bool.not_eq_true, Option.isSome_eq_false_iff,
      Option.isNone_iff_eq_none, Prod.mk.injEq] at h
    obtain ⟨_, ⟨habsent, _, rfl⟩, rfl, rfl⟩ := h
    exact .appoint habsent
  | lockDeposit =>
    simp only [machine, execute, map_eq_ok, Prod.map, Prod.mk.injEq, id] at h
    obtain ⟨⟨_, _⟩, hlock, rfl, rfl⟩ := h
    exact lockDeposit_effect hlock
  | releaseDeposit =>
    simp only [machine, execute, map_eq_ok, Prod.mk.injEq] at h
    obtain ⟨_, hrelease, rfl, rfl⟩ := h
    exact releaseDeposit_effect hrelease
  | partialCharge =>
    simp only [machine, execute, map_eq_ok, Prod.mk.injEq] at h
    obtain ⟨_, hcharge, rfl, rfl⟩ := h
    exact partialCharge_effect hcharge
  | fullCharge =>
    simp only [machine, execute, map_eq_ok, Prod.mk.injEq] at h
    obtain ⟨_, hcharge, rfl, rfl⟩ := h
    exact fullCharge_effect hcharge
  | transferElsewhere =>
    simp only [machine, execute, bind_eq_ok, refuseIf_eq_ok, exists_unit, not_or, transfer_ok,
      pure_eq_ok, Prod.mk.injEq] at h
    obtain ⟨⟨hsender, hrecipient⟩, _, ⟨_, rfl⟩, rfl, rfl⟩ := h
    exact .elsewhere hsender hrecipient

end Inversion

end ChainVerse.LibraryDeposits
