import ChainVerse.Framework.Machine
import ChainVerse.Host.Environment
import Mathlib.Logic.Function.Basic

namespace ChainVerse.LibraryFinesContract

section Ledger

inductive ContractError where
  | alreadyInitialized
  | notInitialized
  | unauthorized
  | duplicateReference
  | entryNotFound
  | settlementNotFound
  | invalidAmount
  | waiverExceedsBalance
  | unsupportedAsset
  | duplicateSettlement
  | invalidStateTransition
  | paymentExceedsBalance
  deriving DecidableEq, Repr

abbrev Outcome (α : Type) := Except (Abort ContractError) α

inductive EntryKind where
  | assessment
  | waiver
  | payment
  | refund
  | reversal
  deriving DecidableEq, Repr

structure LedgerEntry where
  patronRef : Bytes32
  refId : Bytes32
  kind : EntryKind
  delta : Int
  asset : Option Address
  recordedAt : Nat
  metaHash : Bytes32
  deriving DecidableEq, Repr

inductive SettlementState where
  | pending
  | confirmed
  | failed
  | refunded
  | reversed
  deriving DecidableEq, Repr

structure Settlement where
  patronRef : Bytes32
  payer : Address
  asset : Address
  amount : Int
  state : SettlementState
  initiatedAt : Nat
  deriving DecidableEq, Repr

/-- The counts and balances are zero where nothing is stored. -/
structure State where
  admin : Option Address
  librarian : Option Address
  supportedAsset : Address → Bool
  entryCount : Bytes32 → Nat
  /-- `Entry(patron_ref, seq)`. -/
  entry : Bytes32 × Nat → Option LedgerEntry
  refExists : Bytes32 → Bool
  balance : Bytes32 → Int
  settlement : Bytes32 → Option Settlement

def State.empty : State where
  admin := none
  librarian := none
  supportedAsset := fun _ => false
  entryCount := fun _ => 0
  entry := fun _ => none
  refExists := fun _ => false
  balance := fun _ => 0
  settlement := fun _ => none

variable {contract : Address}

section Helpers

def requireAdmin (env : Env contract) (s : State) (caller : Address) : Outcome Unit := do
  let admin ← orRefuse s.admin (.err .notInitialized)
  refuseIf (caller ≠ admin) (.err .unauthorized)
  requireAuth env caller

def requireLibrarianOrAdmin (env : Env contract) (s : State) (caller : Address) :
    Outcome Unit := do
  let admin ← orRefuse s.admin (.err .notInitialized)
  let librarian ← orRefuse s.librarian (.err .notInitialized)
  refuseIf (caller ≠ admin ∧ caller ≠ librarian) (.err .unauthorized)
  requireAuth env caller

def writeBalance (s : State) (patronRef : Bytes32) (balance : Int) : State :=
  { s with balance := Function.update s.balance patronRef balance }

/-- Writes the entry behind the last one of its patron and marks its reference as used. -/
def appendEntry (s : State) (entry : LedgerEntry) : Outcome State := do
  let seq := s.entryCount entry.patronRef
  let s := { s with entry := Function.update s.entry (entry.patronRef, seq) (some entry) }
  let next ← orRefuse (fitsU 32 (seq + 1)) .overflow
  pure { s with
    entryCount := Function.update s.entryCount entry.patronRef next
    refExists := Function.update s.refExists entry.refId true }

def saveSettlement (s : State) (settlementId : Bytes32) (settlement : Settlement) : State :=
  { s with settlement := Function.update s.settlement settlementId (some settlement) }

end Helpers

section EntryPoints

def initializeContract (env : Env contract) (s : State) (admin librarian : Address) :
    Outcome State := do
  refuseIf (s.admin.isSome = true) (.err .alreadyInitialized)
  requireAuth env admin
  pure { s with admin := some admin, librarian := some librarian }

def addSupportedAsset (env : Env contract) (s : State) (caller asset : Address) :
    Outcome State := do
  requireAdmin env s caller
  pure { s with supportedAsset := Function.update s.supportedAsset asset true }

def assess (env : Env contract) (s : State) (caller : Address) (patronRef refId : Bytes32)
    (amount : Int) (metaHash : Bytes32) : Outcome State := do
  requireLibrarianOrAdmin env s caller
  refuseIf (amount ≤ 0) (.err .invalidAmount)
  refuseIf (s.refExists refId = true) (.err .duplicateReference)
  let newBalance ← orRefuse (fitsI128 (s.balance patronRef + amount)) .overflow
  let s ← appendEntry s
    { patronRef, refId, kind := .assessment, delta := amount, asset := none
      recordedAt := env.timestamp, metaHash }
  pure (writeBalance s patronRef newBalance)

def waive (env : Env contract) (s : State) (caller : Address) (patronRef refId : Bytes32)
    (amount : Int) (reasonHash : Bytes32) : Outcome State := do
  requireLibrarianOrAdmin env s caller
  refuseIf (amount ≤ 0) (.err .invalidAmount)
  refuseIf (s.refExists refId = true) (.err .duplicateReference)
  refuseIf (s.balance patronRef < amount) (.err .waiverExceedsBalance)
  let newBalance ← orRefuse (fitsI128 (s.balance patronRef - amount)) .overflow
  let s ← appendEntry s
    { patronRef, refId, kind := .waiver, delta := -amount, asset := none
      recordedAt := env.timestamp, metaHash := reasonHash }
  pure (writeBalance s patronRef newBalance)

/-- Binds the asset and the amount of a payment; anybody may initiate one. -/
def initiatePayment (env : Env contract) (s : State) (caller : Address)
    (patronRef settlementId : Bytes32) (asset : Address) (amount : Int) : Outcome State := do
  requireAuth env caller
  let _admin ← orRefuse s.admin (.err .notInitialized)
  refuseIf (amount ≤ 0) (.err .invalidAmount)
  refuseIf (s.supportedAsset asset = false) (.err .unsupportedAsset)
  refuseIf ((s.settlement settlementId).isSome = true) (.err .duplicateSettlement)
  pure (saveSettlement s settlementId
    { patronRef, payer := caller, asset, amount, state := .pending
      initiatedAt := env.timestamp })

def confirmPayment (env : Env contract) (s : State) (caller : Address)
    (settlementId refId metaHash : Bytes32) : Outcome State := do
  requireAdmin env s caller
  let settlement ← orRefuse (s.settlement settlementId) (.err .settlementNotFound)
  refuseIf (settlement.state ≠ .pending) (.err .invalidStateTransition)
  refuseIf (s.refExists refId = true) (.err .duplicateReference)
  let balance := s.balance settlement.patronRef
  refuseIf (balance < settlement.amount) (.err .paymentExceedsBalance)
  let newBalance ← orRefuse (fitsI128 (balance - settlement.amount)) .overflow
  let s ← appendEntry s
    { patronRef := settlement.patronRef, refId, kind := .payment, delta := -settlement.amount
      asset := some settlement.asset, recordedAt := env.timestamp, metaHash }
  let s := writeBalance s settlement.patronRef newBalance
  pure (saveSettlement s settlementId { settlement with state := .confirmed })

def failPayment (env : Env contract) (s : State) (caller : Address) (settlementId : Bytes32) :
    Outcome State := do
  requireAdmin env s caller
  let settlement ← orRefuse (s.settlement settlementId) (.err .settlementNotFound)
  refuseIf (settlement.state ≠ .pending) (.err .invalidStateTransition)
  pure (saveSettlement s settlementId { settlement with state := .failed })

/-- The body that `refund_payment` and `reverse_payment` share: a confirmed payment is taken back by
an entry of the given kind. -/
def takeBack (kind : EntryKind) (state : SettlementState) (env : Env contract) (s : State)
    (caller : Address) (settlementId refId metaHash : Bytes32) : Outcome State := do
  requireAdmin env s caller
  let settlement ← orRefuse (s.settlement settlementId) (.err .settlementNotFound)
  refuseIf (settlement.state ≠ .confirmed) (.err .invalidStateTransition)
  refuseIf (s.refExists refId = true) (.err .duplicateReference)
  let newBalance ← orRefuse (fitsI128 (s.balance settlement.patronRef + settlement.amount))
    .overflow
  let s ← appendEntry s
    { patronRef := settlement.patronRef, refId, kind, delta := settlement.amount
      asset := some settlement.asset, recordedAt := env.timestamp, metaHash }
  let s := writeBalance s settlement.patronRef newBalance
  pure (saveSettlement s settlementId { settlement with state := state })

def refundPayment (env : Env contract) (s : State) (caller : Address)
    (settlementId refId metaHash : Bytes32) : Outcome State :=
  takeBack .refund .refunded env s caller settlementId refId metaHash

def reversePayment (env : Env contract) (s : State) (caller : Address)
    (settlementId refId metaHash : Bytes32) : Outcome State :=
  takeBack .reversal .reversed env s caller settlementId refId metaHash

end EntryPoints

/-- The state-changing entry points. -/
inductive Call where
  | initializeContract (admin librarian : Address)
  | addSupportedAsset (caller asset : Address)
  | assess (caller : Address) (patronRef refId : Bytes32) (amount : Int) (metaHash : Bytes32)
  | waive (caller : Address) (patronRef refId : Bytes32) (amount : Int) (reasonHash : Bytes32)
  | initiatePayment (caller : Address) (patronRef settlementId : Bytes32) (asset : Address)
      (amount : Int)
  | confirmPayment (caller : Address) (settlementId refId metaHash : Bytes32)
  | failPayment (caller : Address) (settlementId : Bytes32)
  | refundPayment (caller : Address) (settlementId refId metaHash : Bytes32)
  | reversePayment (caller : Address) (settlementId refId metaHash : Bytes32)
  deriving DecidableEq, Repr

structure Input (contract : Address) where
  env : Env contract
  call : Call

/-- One entry point applied to the state. -/
def execute (env : Env contract) (s : State) : Call → Outcome State
  | .initializeContract admin librarian => initializeContract env s admin librarian
  | .addSupportedAsset caller asset => addSupportedAsset env s caller asset
  | .assess caller patronRef refId amount metaHash =>
    assess env s caller patronRef refId amount metaHash
  | .waive caller patronRef refId amount reasonHash =>
    waive env s caller patronRef refId amount reasonHash
  | .initiatePayment caller patronRef settlementId asset amount =>
    initiatePayment env s caller patronRef settlementId asset amount
  | .confirmPayment caller settlementId refId metaHash =>
    confirmPayment env s caller settlementId refId metaHash
  | .failPayment caller settlementId => failPayment env s caller settlementId
  | .refundPayment caller settlementId refId metaHash =>
    refundPayment env s caller settlementId refId metaHash
  | .reversePayment caller settlementId refId metaHash =>
    reversePayment env s caller settlementId refId metaHash

def machine (contract : Address) :
    Machine State (Input contract) Unit (Abort ContractError) where
  step s i := ((), ·) <$> execute i.env s i.call

end Ledger

variable {contract : Address} {env : Env contract} {s s' : State}

/-- The reference under which a call posts an entry. -/
def Call.refId : Call → Option Bytes32
  | .assess _ _ refId _ _ | .waive _ _ refId _ _ | .confirmPayment _ _ refId _
  | .refundPayment _ _ refId _ | .reversePayment _ _ refId _ => some refId
  | _ => none

/-- The settlement that a call initiates or moves on. -/
def Call.settlementId : Call → Option Bytes32
  | .initiatePayment _ _ id _ _ | .confirmPayment _ id _ _ | .failPayment _ id
  | .refundPayment _ id _ _ | .reversePayment _ id _ _ => some id
  | _ => none

/-- The store after an entry is appended and booked. -/
def State.posted (s : State) (entry : LedgerEntry) : State :=
  { s with
    entryCount := Function.update s.entryCount entry.patronRef (s.entryCount entry.patronRef + 1)
    entry := Function.update s.entry (entry.patronRef, s.entryCount entry.patronRef) (some entry)
    refExists := Function.update s.refExists entry.refId true
    balance := Function.update s.balance entry.patronRef (s.balance entry.patronRef + entry.delta) }

/-- The entries that a settlement posts, given the balance of its patron: their kind and amount, and
the state that follows. -/
inductive Posting (settlement : Settlement) (balance : Int) :
    EntryKind → Int → SettlementState → Prop where
  | confirm (pending : settlement.state = .pending) (covered : settlement.amount ≤ balance) :
      Posting settlement balance .payment (-settlement.amount) .confirmed
  | refund (confirmed : settlement.state = .confirmed) :
      Posting settlement balance .refund settlement.amount .refunded
  | reverse (confirmed : settlement.state = .confirmed) :
      Posting settlement balance .reversal settlement.amount .reversed

/-- Everything an accepted call can have done. -/
inductive Effect (s : State) : Call → State → Prop where
  | configure {call : Call} {admin librarian : Option Address} {supportedAsset : Address → Bool}
      (unnamed : call.refId = none ∧ call.settlementId = none) :
      Effect s call
        { s with admin := admin, librarian := librarian, supportedAsset := supportedAsset }
  | record {call : Call} {entry : LedgerEntry} (named : call.refId = some entry.refId)
      (plain : call.settlementId = none) (fresh : s.refExists entry.refId = false)
      (covered : 0 ≤ entry.delta ∨ 0 ≤ s.balance entry.patronRef + entry.delta) :
      Effect s call (s.posted entry)
  | initiate {call : Call} {id : Bytes32} {settlement : Settlement} (named : call.refId = none)
      (about : call.settlementId = some id) (absent : s.settlement id = none)
      (positive : 0 < settlement.amount) (pending : settlement.state = .pending) :
      Effect s call (saveSettlement s id settlement)
  | fail {call : Call} {id : Bytes32} {settlement : Settlement} (named : call.refId = none)
      (about : call.settlementId = some id) (found : s.settlement id = some settlement)
      (pending : settlement.state = .pending) :
      Effect s call (saveSettlement s id { settlement with state := .failed })
  | settle {call : Call} {id : Bytes32} {settlement : Settlement} {entry : LedgerEntry}
      {state : SettlementState} (named : call.refId = some entry.refId)
      (about : call.settlementId = some id) (found : s.settlement id = some settlement)
      (fresh : s.refExists entry.refId = false) (owner : entry.patronRef = settlement.patronRef)
      (posting : Posting settlement (s.balance settlement.patronRef) entry.kind entry.delta state) :
      Effect s call (saveSettlement (s.posted entry) id { settlement with state := state })

section Inversion

theorem appendEntry_ok {entry : LedgerEntry} {balance : Int}
    (hbalance : balance = s.balance entry.patronRef + entry.delta)
    (h : appendEntry s entry = .ok s') : writeBalance s' entry.patronRef balance = s.posted entry := by
  simp only [appendEntry, bind_eq_ok, orRefuse_eq_ok, fitsU_eq_some, pure_eq_ok] at h
  obtain ⟨_, ⟨_, rfl⟩, rfl⟩ := h
  simp [writeBalance, State.posted, hbalance]

theorem assess_effect {caller : Address} {patronRef refId metaHash : Bytes32} {amount : Int}
    (h : assess env s caller patronRef refId amount metaHash = .ok s') :
    Effect s (.assess caller patronRef refId amount metaHash) s' := by
  simp only [assess, bind_eq_ok, refuseIf_eq_ok, exists_unit, not_le, Bool.not_eq_true,
    orRefuse_eq_ok, fitsI128_eq_some, pure_eq_ok] at h
  obtain ⟨_, hpositive, hfresh, _, ⟨_, rfl⟩, _, happended, rfl⟩ := h
  have hposted := appendEntry_ok rfl happended
  rw [hposted]
  exact .record rfl rfl hfresh (.inl hpositive.le)

theorem waive_effect {caller : Address} {patronRef refId reasonHash : Bytes32} {amount : Int}
    (h : waive env s caller patronRef refId amount reasonHash = .ok s') :
    Effect s (.waive caller patronRef refId amount reasonHash) s' := by
  simp only [waive, bind_eq_ok, refuseIf_eq_ok, exists_unit, not_le, not_lt, Bool.not_eq_true,
    orRefuse_eq_ok, fitsI128_eq_some, pure_eq_ok] at h
  obtain ⟨_, _, hfresh, hcovered, _, ⟨_, rfl⟩, _, happended, rfl⟩ := h
  have hposted := appendEntry_ok Int.sub_eq_add_neg happended
  rw [hposted]
  refine .record rfl rfl hfresh (.inr ?_)
  dsimp only
  omega

theorem confirmPayment_effect {caller : Address} {id refId metaHash : Bytes32}
    (h : confirmPayment env s caller id refId metaHash = .ok s') :
    Effect s (.confirmPayment caller id refId metaHash) s' := by
  simp only [confirmPayment, bind_eq_ok, refuseIf_eq_ok, exists_unit, not_not, not_lt,
    Bool.not_eq_true, orRefuse_eq_ok, fitsI128_eq_some, pure_eq_ok] at h
  obtain ⟨_, settlement, hfound, hpending, hfresh, hcovered, _, ⟨_, rfl⟩, _, happended, rfl⟩ := h
  have hposted := appendEntry_ok Int.sub_eq_add_neg happended
  rw [hposted]
  exact .settle rfl rfl hfound hfresh rfl (.confirm hpending hcovered)

/-- Refunds and reversals differ in the entry and the state only. -/
theorem takeBack_effect {kind : EntryKind} {state : SettlementState} {caller : Address}
    {id refId metaHash : Bytes32} {call : Call} (hnamed : call.refId = some refId)
    (habout : call.settlementId = some id)
    (hposting : ∀ (settlement : Settlement) balance, settlement.state = .confirmed →
      Posting settlement balance kind settlement.amount state)
    (h : takeBack kind state env s caller id refId metaHash = .ok s') : Effect s call s' := by
  simp only [takeBack, bind_eq_ok, refuseIf_eq_ok, exists_unit, not_not, Bool.not_eq_true,
    orRefuse_eq_ok, fitsI128_eq_some, pure_eq_ok] at h
  obtain ⟨_, settlement, hfound, hconfirmed, hfresh, _, ⟨_, rfl⟩, _, happended, rfl⟩ := h
  have hposted := appendEntry_ok rfl happended
  rw [hposted]
  exact .settle hnamed habout hfound hfresh rfl (hposting settlement _ hconfirmed)

/-- What an accepted entry point has done. -/
theorem execute_effect {call : Call} (h : execute env s call = .ok s') : Effect s call s' := by
  cases call with
  | initializeContract =>
    simp only [execute, initializeContract, bind_eq_ok, pure_eq_ok] at h
    obtain ⟨_, _, _, _, rfl⟩ := h
    exact .configure ⟨rfl, rfl⟩
  | addSupportedAsset =>
    simp only [execute, addSupportedAsset, bind_eq_ok, pure_eq_ok] at h
    obtain ⟨_, _, rfl⟩ := h
    exact .configure ⟨rfl, rfl⟩
  | assess => exact assess_effect h
  | waive => exact waive_effect h
  | initiatePayment =>
    simp only [execute, initiatePayment, bind_eq_ok, exists_unit, refuseIf_eq_ok, not_le,
      Bool.not_eq_true, Option.isSome_eq_false_iff, Option.isNone_iff_eq_none, pure_eq_ok] at h
    obtain ⟨_, _, _, hpositive, _, habsent, rfl⟩ := h
    exact .initiate rfl rfl habsent hpositive rfl
  | confirmPayment => exact confirmPayment_effect h
  | failPayment =>
    simp only [execute, failPayment, bind_eq_ok, exists_unit, refuseIf_eq_ok, not_not,
      orRefuse_eq_ok, pure_eq_ok] at h
    obtain ⟨_, settlement, hfound, hpending, rfl⟩ := h
    exact .fail rfl rfl hfound hpending
  | refundPayment => exact takeBack_effect rfl rfl (fun _ _ => .refund) h
  | reversePayment => exact takeBack_effect rfl rfl (fun _ _ => .reverse) h

theorem step_effect {i : Input contract} {o : Unit} (h : (machine contract).step s i = .ok (o, s')) :
    Effect s i.call s' := by
  simp only [machine, map_eq_ok, Prod.mk.injEq] at h
  obtain ⟨_, hexecute, _, rfl⟩ := h
  exact execute_effect hexecute

end Inversion

end ChainVerse.LibraryFinesContract
