import ChainVerse.Framework.Machine
import ChainVerse.Host.Bytes
import Mathlib.Logic.Function.Basic

namespace ChainVerse.LibraryFines

section Signed

inductive FineError where
  | notInitialized
  | alreadyInitialized
  | unauthorized
  | notFound
  | invalidSignature
  | nonceAlreadyUsed
  | assessmentExpired
  | capExceeded
  | cumulativeCapExceeded
  | gracePeriodActive
  | waiverExceedsDebt
  | invalidAmount
  | overflow
  | policyNotFound
  deriving DecidableEq, Repr

abbrev Outcome (α : Type) := Except (Abort FineError) α

/-- The cryptographic functions that the contract calls. -/
structure Crypto where
  sha256 : List Byte → Bytes32
  /-- Whether the key is a valid one and `verify_strict` accepts the signature of the message. -/
  verifyStrict : Bytes32 → List Byte → BitVec 512 → Bool

inductive FineStatus where
  | active
  | waived
  | settled
  deriving DecidableEq, Repr

structure FinePolicy where
  perAssessmentCap : Int
  cumulativeCap : Int
  gracePeriod : Nat
  deriving DecidableEq, Repr

structure FineRecord where
  loanId : Bytes32
  policyId : Bytes32
  ruleVersion : Nat
  amount : Int
  accruedAt : Nat
  status : FineStatus
  deriving DecidableEq, Repr

/-- The count and the debts are zero where nothing is stored. -/
structure State where
  admin : Option Address
  institutionPubkey : Option Bytes32
  fineCount : Nat
  policy : Bytes32 → Option FinePolicy
  fine : Bytes32 → Option FineRecord
  nonceUsed : Bytes32 → Bool
  loanDebt : Bytes32 → Int

def State.empty : State where
  admin := none
  institutionPubkey := none
  fineCount := 0
  policy := fun _ => none
  fine := fun _ => none
  nonceUsed := fun _ => false
  loanDebt := fun _ => 0

variable {contract : Address}

section Helpers

def requireAdmin (env : Env contract) (s : State) (caller : Address) : Outcome Unit := do
  let admin ← orRefuse s.admin (.err .notInitialized)
  refuseIf (caller ≠ admin) (.err .unauthorized)
  requireAuth env caller

def domainTag : List Byte := "CHAINVERSE_FINE:".toList.map fun c => BitVec.ofNat 8 c.toNat

/-- The payload that the institution signs. -/
def buildFinePayload (loanId policyId : Bytes32) (ruleVersion : Nat) (amount : Int)
    (loanStart : Nat) (nonce : Bytes32) (expiry : Nat) : List Byte :=
  domainTag ++ bytes32 loanId ++ bytes32 policyId ++ beBytes 4 ruleVersion ++ i128Bytes amount ++
    beBytes 8 loanStart ++ bytes32 nonce ++ beBytes 8 expiry

/-- The bytes that a fine id is the hash of. -/
def finePreimage (count timestamp : Nat) (loanId nonce : Bytes32) : List Byte :=
  beBytes 8 count ++ beBytes 8 timestamp ++ bytes32 loanId ++ bytes32 nonce

def nextFineId (env : Env contract) (crypto : Crypto) (s : State) (loanId nonce : Bytes32) :
    Outcome (Bytes32 × State) := do
  let next ← orRefuse (fitsU 64 (s.fineCount + 1)) (.err .overflow)
  pure (crypto.sha256 (finePreimage next env.timestamp loanId nonce),
    { s with fineCount := next })

def saveFine (s : State) (id : Bytes32) (record : FineRecord) : State :=
  { s with fine := Function.update s.fine id (some record) }

def setLoanDebt (s : State) (loanId : Bytes32) (debt : Int) : State :=
  { s with loanDebt := Function.update s.loanDebt loanId debt }

end Helpers

section EntryPoints

def initializeContract (env : Env contract) (s : State) (admin : Address)
    (institutionPubkey : Bytes32) : Outcome State := do
  refuseIf (s.admin.isSome = true) (.err .alreadyInitialized)
  requireAuth env admin
  pure { s with admin := some admin, institutionPubkey := some institutionPubkey }

def rotateInstitutionKey (env : Env contract) (s : State) (caller : Address)
    (newPubkey : Bytes32) : Outcome State := do
  requireAdmin env s caller
  pure { s with institutionPubkey := some newPubkey }

def setPolicy (env : Env contract) (s : State) (caller : Address) (policyId : Bytes32)
    (perAssessmentCap cumulativeCap : Int) (gracePeriod : Nat) : Outcome State := do
  requireAdmin env s caller
  refuseIf (perAssessmentCap ≤ 0 ∨ cumulativeCap ≤ 0) (.err .invalidAmount)
  pure { s with
    policy := Function.update s.policy policyId
      (some ⟨perAssessmentCap, cumulativeCap, gracePeriod⟩) }

/-- Anybody may hand in an assessment that the institution has signed. -/
def assessFine (env : Env contract) (crypto : Crypto) (s : State) (loanId policyId : Bytes32)
    (ruleVersion : Nat) (amount : Int) (loanStart : Nat) (nonce : Bytes32) (expiry : Nat)
    (sig : BitVec 512) : Outcome (Bytes32 × State) := do
  refuseIf (amount ≤ 0) (.err .invalidAmount)
  let pubkey ← orRefuse s.institutionPubkey (.err .notInitialized)
  let payload := buildFinePayload loanId policyId ruleVersion amount loanStart nonce expiry
  refuseIf (crypto.verifyStrict pubkey payload sig = false) (.err .invalidSignature)
  refuseIf (expiry ≤ env.timestamp) (.err .assessmentExpired)
  refuseIf (s.nonceUsed nonce = true) (.err .nonceAlreadyUsed)
  let s := { s with nonceUsed := Function.update s.nonceUsed nonce true }
  let policy ← orRefuse (s.policy policyId) (.err .policyNotFound)
  let graceEnd ← orRefuse (fitsU 64 (loanStart + policy.gracePeriod)) (.err .overflow)
  refuseIf (env.timestamp < graceEnd) (.err .gracePeriodActive)
  refuseIf (policy.perAssessmentCap < amount) (.err .capExceeded)
  let newDebt ← orRefuse (fitsI128 (s.loanDebt loanId + amount)) (.err .overflow)
  refuseIf (policy.cumulativeCap < newDebt) (.err .cumulativeCapExceeded)
  let (fineId, s) ← nextFineId env crypto s loanId nonce
  let s := saveFine s fineId
    ⟨loanId, policyId, ruleVersion, amount, env.timestamp, .active⟩
  pure (fineId, setLoanDebt s loanId newDebt)

def waiveFine (env : Env contract) (s : State) (caller : Address) (fineId : Bytes32)
    (waiveAmount : Int) : Outcome State := do
  requireAdmin env s caller
  refuseIf (waiveAmount ≤ 0) (.err .invalidAmount)
  let record ← orRefuse (s.fine fineId) (.err .notFound)
  refuseIf (record.amount < waiveAmount) (.err .waiverExceedsDebt)
  let newAmount ← orRefuse (fitsI128 (record.amount - waiveAmount)) (.err .overflow)
  let newDebt ← orRefuse (fitsI128 (s.loanDebt record.loanId - waiveAmount)) (.err .overflow)
  let record := { record with
    amount := newAmount, status := if newAmount = 0 then .waived else record.status }
  pure (setLoanDebt (saveFine s fineId record) record.loanId newDebt)

end EntryPoints

/-- The state-changing entry points. -/
inductive Call where
  | initializeContract (admin : Address) (institutionPubkey : Bytes32)
  | rotateInstitutionKey (caller : Address) (newPubkey : Bytes32)
  | setPolicy (caller : Address) (policyId : Bytes32) (perAssessmentCap cumulativeCap : Int)
      (gracePeriod : Nat)
  | assessFine (loanId policyId : Bytes32) (ruleVersion : Nat) (amount : Int) (loanStart : Nat)
      (nonce : Bytes32) (expiry : Nat) (sig : BitVec 512)
  | waiveFine (caller : Address) (fineId : Bytes32) (waiveAmount : Int)
  deriving DecidableEq, Repr

structure Input (contract : Address) where
  env : Env contract
  call : Call

/-- One entry point applied to the state; `assess_fine` returns the id of the fine. -/
def execute (crypto : Crypto) (env : Env contract) (s : State) :
    Call → Outcome (Option Bytes32 × State)
  | .initializeContract admin institutionPubkey =>
    (none, ·) <$> initializeContract env s admin institutionPubkey
  | .rotateInstitutionKey caller newPubkey =>
    (none, ·) <$> rotateInstitutionKey env s caller newPubkey
  | .setPolicy caller policyId perAssessmentCap cumulativeCap gracePeriod =>
    (none, ·) <$> setPolicy env s caller policyId perAssessmentCap cumulativeCap gracePeriod
  | .assessFine loanId policyId ruleVersion amount loanStart nonce expiry sig =>
    Prod.map some id <$>
      assessFine env crypto s loanId policyId ruleVersion amount loanStart nonce expiry sig
  | .waiveFine caller fineId waiveAmount => (none, ·) <$> waiveFine env s caller fineId waiveAmount

def machine (contract : Address) (crypto : Crypto) :
    Machine State (Input contract) (Option Bytes32) (Abort FineError) where
  step s i := execute crypto i.env s i.call

end Signed

variable {contract : Address} {crypto : Crypto} {env : Env contract} {s s' : State}

/-- An accepted call of a run, with the stores around it. -/
abbrev Step (contract : Address) := Entry State (Input contract) (Option Bytes32)

/-- The nonce that a call hands in. -/
def Call.nonce : Call → Option Bytes32
  | .assessFine _ _ _ _ _ nonce _ _ => some nonce
  | _ => none

/-- Everything an accepted call can have done, with its answer. -/
inductive Effect (crypto : Crypto) (env : Env contract) (s : State) :
    Call → Option Bytes32 → State → Prop where
  | configure {call : Call} {admin : Option Address} {institutionPubkey : Option Bytes32}
      {policy : Bytes32 → Option FinePolicy} (plain : call.nonce = none) :
      Effect crypto env s call none
        { s with admin := admin, institutionPubkey := institutionPubkey, policy := policy }
  | assess {loanId policyId nonce id : Bytes32} {ruleVersion loanStart expiry : Nat} {amount : Int}
      {sig : BitVec 512} (positive : 0 < amount) (fresh : s.nonceUsed nonce = false)
      (bounded : s.loanDebt loanId + amount < 2^127) (fits : s.fineCount + 1 < 2^64)
      (hashed : id = crypto.sha256 (finePreimage (s.fineCount + 1) env.timestamp loanId nonce)) :
      Effect crypto env s
        (.assessFine loanId policyId ruleVersion amount loanStart nonce expiry sig) (some id)
        { s with
          nonceUsed := Function.update s.nonceUsed nonce true
          fineCount := s.fineCount + 1
          fine := Function.update s.fine id
            (some ⟨loanId, policyId, ruleVersion, amount, env.timestamp, .active⟩)
          loanDebt := Function.update s.loanDebt loanId (s.loanDebt loanId + amount) }
  | waive {caller : Address} {id : Bytes32} {record : FineRecord} {amount : Int}
      {status : FineStatus} (found : s.fine id = some record) (positive : 0 < amount)
      (covered : amount ≤ record.amount) :
      Effect crypto env s (.waiveFine caller id amount) none
        { s with
          fine := Function.update s.fine id
            (some { record with amount := record.amount - amount, status := status })
          loanDebt := Function.update s.loanDebt record.loanId
            (s.loanDebt record.loanId - amount) }

section Inversion

theorem assessFine_effect {loanId policyId nonce id : Bytes32} {ruleVersion loanStart expiry : Nat}
    {amount : Int} {sig : BitVec 512}
    (h : assessFine env crypto s loanId policyId ruleVersion amount loanStart nonce expiry sig =
      .ok (id, s')) :
    Effect crypto env s
      (.assessFine loanId policyId ruleVersion amount loanStart nonce expiry sig) (some id) s' := by
  simp only [assessFine, nextFineId, saveFine, setLoanDebt, bind_eq_ok, orRefuse_eq_ok,
    refuseIf_eq_ok, exists_unit, not_le, Bool.not_eq_true, fitsU_eq_some, fitsI128_eq_some,
    pure_eq_ok, Prod.mk.injEq] at h
  obtain ⟨hpositive, _, _, _, _, hfresh, policy, _, _, _, _, _, _, ⟨⟨_, hbounded⟩, rfl⟩, _,
    ⟨_, _⟩, ⟨_, ⟨hfits, rfl⟩, rfl, rfl⟩, rfl, rfl⟩ := h
  exact .assess hpositive hfresh hbounded hfits rfl

theorem waiveFine_effect {caller : Address} {id : Bytes32} {amount : Int}
    (h : waiveFine env s caller id amount = .ok s') :
    Effect crypto env s (.waiveFine caller id amount) none s' := by
  simp only [waiveFine, saveFine, setLoanDebt, bind_eq_ok, orRefuse_eq_ok, refuseIf_eq_ok,
    exists_unit, not_le, not_lt, fitsI128_eq_some, pure_eq_ok] at h
  obtain ⟨_, hpositive, record, hfound, hcovered, _, ⟨_, rfl⟩, _, ⟨_, rfl⟩, rfl⟩ := h
  exact .waive hfound hpositive hcovered

/-- What an accepted entry point has done. -/
theorem step_effect {i : Input contract} {o : Option Bytes32}
    (h : (machine contract crypto).step s i = .ok (o, s')) :
    Effect crypto i.env s i.call o s' := by
  obtain ⟨env, call⟩ := i
  cases call with
  | initializeContract =>
    simp only [machine, execute, map_eq_ok, initializeContract, bind_eq_ok, refuseIf_eq_ok,
      exists_unit, pure_eq_ok, Prod.mk.injEq] at h
    obtain ⟨_, ⟨_, _, rfl⟩, rfl, rfl⟩ := h
    exact .configure rfl
  | rotateInstitutionKey =>
    simp only [machine, execute, map_eq_ok, rotateInstitutionKey, bind_eq_ok, exists_unit,
      pure_eq_ok, Prod.mk.injEq] at h
    obtain ⟨_, ⟨_, rfl⟩, rfl, rfl⟩ := h
    exact .configure rfl
  | setPolicy =>
    simp only [machine, execute, map_eq_ok, setPolicy, bind_eq_ok, refuseIf_eq_ok, exists_unit,
      pure_eq_ok, Prod.mk.injEq] at h
    obtain ⟨_, ⟨_, _, rfl⟩, rfl, rfl⟩ := h
    exact .configure rfl
  | assessFine =>
    simp only [machine, execute, map_eq_ok, Prod.map, Prod.mk.injEq, id] at h
    obtain ⟨⟨_, _⟩, hassess, rfl, rfl⟩ := h
    exact assessFine_effect hassess
  | waiveFine =>
    simp only [machine, execute, map_eq_ok, Prod.mk.injEq] at h
    obtain ⟨_, hwaive, rfl, rfl⟩ := h
    exact waiveFine_effect hwaive

end Inversion

end ChainVerse.LibraryFines
