import ChainVerse.Fines.Signed
import ChainVerse.Framework.Accounts
import ChainVerse.Framework.Tables
import ChainVerse.Host.Issuance

namespace ChainVerse.LibraryFines

variable {contract : Address} {crypto : Crypto} {env : Env contract} {s s' : State}
  {es : List (Step contract)}

section Payloads

/-- The fields that the institution signs. -/
@[ext] structure Assessment where
  loanId : Bytes32
  policyId : Bytes32
  ruleVersion : Nat
  ruleVersion_lt : ruleVersion < 2^32
  amount : Int
  amount_fits : -2^127 ≤ amount ∧ amount < 2^127
  loanStart : Nat
  loanStart_lt : loanStart < 2^64
  nonce : Bytes32
  expiry : Nat
  expiry_lt : expiry < 2^64

def Assessment.payload (a : Assessment) : List Byte :=
  buildFinePayload a.loanId a.policyId a.ruleVersion a.amount a.loanStart a.nonce a.expiry

/-- The fields have fixed widths, so that they can be read back from the last one to the first. -/
theorem payload_inj {a b : Assessment} (h : a.payload = b.payload) : a = b := by
  unfold Assessment.payload buildFinePayload at h
  obtain ⟨h, hexpiry⟩ := List.append_inj' h (by simp)
  obtain ⟨h, hnonce⟩ := List.append_inj' h (by simp)
  obtain ⟨h, hstart⟩ := List.append_inj' h (by simp)
  obtain ⟨h, hamount⟩ := List.append_inj' h (by simp)
  obtain ⟨h, hversion⟩ := List.append_inj' h (by simp)
  obtain ⟨h, hpolicy⟩ := List.append_inj' h (by simp)
  have hloan := List.append_cancel_left h
  apply Assessment.ext
  · exact bytes32_inj hloan
  · exact bytes32_inj hpolicy
  · exact beBytes_inj a.ruleVersion_lt b.ruleVersion_lt hversion
  · exact i128Bytes_inj a.amount_fits b.amount_fits hamount
  · exact beBytes_inj a.loanStart_lt b.loanStart_lt hstart
  · exact bytes32_inj hnonce
  · exact beBytes_inj a.expiry_lt b.expiry_lt hexpiry

end Payloads

section Quantities

/-- What stands on a fine against `loanId`. -/
def standing (loanId : Bytes32) : Option FineRecord → Int
  | some record => if record.loanId = loanId then record.amount else 0
  | none => 0

/-- The current amounts of the fines of a loan. -/
def State.fineAmounts (s : State) (loanId : Bytes32) : Bytes32 → Int :=
  fun id => standing loanId (s.fine id)

/-- The bytes that a call has hashed into a fine id. -/
def preimage (e : Step contract) : Option (List Byte) :=
  match e.input.call with
  | .assessFine loanId _ _ _ _ nonce _ _ =>
    some (finePreimage (e.pre.fineCount + 1) e.input.env.timestamp loanId nonce)
  | _ => none

/-- The bytes that the calls have hashed into fine ids. -/
def hashed (es : List (Step contract)) : List (List Byte) := es.filterMap preimage

end Quantities

/-- What holds of the fines and the nonces whatever the hashes are. -/
structure Recorded (s : State) (es : List (Step contract)) : Prop where
  amounts : ∀ id record, s.fine id = some record → 0 ≤ record.amount
  nonces : ∀ nonce, es.countP (fun e => e.input.call.nonce = some nonce) =
    if s.nonceUsed nonce then 1 else 0

/-- The debts are those of the fines, of which no two have had one id. -/
structure Indebted (crypto : Crypto) (s : State) (es : List (Step contract)) : Prop where
  sound : ∀ loanId, Sound (s.fineAmounts loanId)
  debt : ∀ loanId, s.loanDebt loanId = holdings (s.fineAmounts loanId)
  bounded : ∀ loanId, s.loanDebt loanId < 2^127
  issued : Issued crypto.sha256 (fun id => s.fine id ≠ none) s.fineCount (hashed es)

section Fines

theorem recorded_empty : Recorded State.empty ([] : List (Step contract)) where
  amounts _ _ h := by cases h
  nonces _ := rfl

theorem indebted_empty : Indebted crypto State.empty ([] : List (Step contract)) where
  sound _ := sound_zero
  debt _ := holdings_zero.symm
  bounded _ := by simp [State.empty]
  issued := issued_empty.mono fun _ h => h rfl

/-- The calls that hand in a nonce are those that use it up. -/
theorem Effect.nonces {call : Call} {o : Option Bytes32} (h : Effect crypto env s call o s')
    (nonce : Bytes32) :
    (if s'.nonceUsed nonce then 1 else 0) =
      (if s.nonceUsed nonce then 1 else 0) + if call.nonce = some nonce then 1 else 0 := by
  cases h with
  | configure hplain => simp [hplain]
  | @assess _ _ named _ _ _ _ _ _ _ hfresh =>
    by_cases hnamed : nonce = named
    · simp [Call.nonce, hnamed, hfresh]
    · simp [Call.nonce, hnamed, Ne.symm hnamed]
  | waive => simp [Call.nonce]

theorem Effect.recorded {i : Input contract} {o : Option Bytes32}
    (h : Effect crypto i.env s i.call o s') (hs : Recorded s es) :
    Recorded s' (es ++ [⟨s, i, o, s'⟩]) := by
  refine ⟨?_, ?_⟩
  · generalize i.call = call at h
    cases h with
    | configure => exact hs.amounts
    | assess hpositive => exact forall_update_row hs.amounts rfl hpositive.le
    | waive _ _ hcovered => exact forall_update_row hs.amounts rfl (Int.sub_nonneg_of_le hcovered)
  · intro nonce
    rw [List.countP_append, hs.nonces nonce, h.nonces nonce]
    by_cases hnamed : i.call.nonce = some nonce
    · simp [hnamed]
    · simp [hnamed]

theorem fineAmounts_update (loanId id : Bytes32) (record : FineRecord)
    (h : s'.fine = Function.update s.fine id (some record)) :
    s'.fineAmounts loanId =
      Function.update (s.fineAmounts loanId) id (standing loanId (some record)) := by
  unfold State.fineAmounts
  rw [h]
  exact Function.comp_update (standing loanId) s.fine id (some record)

/-- One fine and the debt of its loan move by the same amount. -/
theorem Indebted.move (hs : Indebted crypto s es) {id : Bytes32} {record : FineRecord} {delta : Int}
    (hfine : s'.fine = Function.update s.fine id (some record))
    (hdebt : s'.loanDebt =
      Function.update s.loanDebt record.loanId (s.loanDebt record.loanId + delta))
    (hamount : 0 ≤ record.amount)
    (hbefore : ∀ loanId, s.fineAmounts loanId id =
      if record.loanId = loanId then record.amount - delta else 0)
    (hbounded : s.loanDebt record.loanId + delta < 2^127) :
    (∀ loanId, Sound (s'.fineAmounts loanId)) ∧
      (∀ loanId, s'.loanDebt loanId = holdings (s'.fineAmounts loanId)) ∧
      ∀ loanId, s'.loanDebt loanId < 2^127 := by
  refine ⟨?_, ?_, ?_⟩
  · intro loanId
    rw [fineAmounts_update loanId id record hfine]
    apply (hs.sound loanId).update
    rw [standing]
    split_ifs <;> omega
  · intro loanId
    rw [fineAmounts_update loanId id record hfine, holdings_update (hs.sound loanId),
      ← hs.debt loanId, hbefore, hdebt, standing]
    by_cases hloan : record.loanId = loanId
    · rw [hloan, Function.update_self, if_pos rfl, if_pos rfl]
      omega
    · rw [Function.update_of_ne (Ne.symm hloan), if_neg hloan, if_neg hloan]
      omega
  · intro loanId
    rw [hdebt]
    by_cases hloan : loanId = record.loanId
    · rw [hloan, Function.update_self]
      exact hbounded
    · rw [Function.update_of_ne hloan]
      exact hs.bounded loanId

theorem finePreimage_start {count timestamp : Nat} {loanId nonce : Bytes32} :
    ∃ rest, finePreimage count timestamp loanId nonce = beBytes 8 count ++ rest := by
  rw [finePreimage, List.append_assoc, List.append_assoc]
  exact ⟨_, rfl⟩

/-- A fine is at most the debt of its loan. -/
theorem Indebted.covered (hs : Indebted crypto s es) {id : Bytes32} {record : FineRecord}
    (hfound : s.fine id = some record) : record.amount ≤ s.loanDebt record.loanId := by
  have hshare := (hs.sound record.loanId).le_holdings id
  rw [← hs.debt, State.fineAmounts, hfound, standing, if_pos rfl] at hshare
  exact hshare

/-- Every accepted call keeps the debts those of the fines. -/
theorem Effect.indebted {i : Input contract} {o : Option Bytes32}
    (h : Effect crypto i.env s i.call o s') (hs : Indebted crypto s es)
    (hfree : CollisionFree crypto.sha256 (hashed (es ++ [(⟨s, i, o, s'⟩ : Step contract)]))) :
    Indebted crypto s' (es ++ [⟨s, i, o, s'⟩]) := by
  obtain ⟨env, call⟩ := i
  rw [hashed, filterMap_snoc] at hfree
  have hpreimages : hashed (es ++ [(⟨s, ⟨env, call⟩, o, s'⟩ : Step contract)]) =
      hashed es ++ (preimage (⟨s, ⟨env, call⟩, o, s'⟩ : Step contract)).toList := filterMap_snoc _
  have hplain : call.nonce = none →
      preimage (⟨s, ⟨env, call⟩, o, s'⟩ : Step contract) = none := by
    intro hplain
    cases call with
    | assessFine => cases hplain
    | initializeContract => rfl
    | rotateInstitutionKey => rfl
    | setPolicy => rfl
    | waiveFine => rfl
  cases h with
  | configure hnone =>
    refine ⟨hs.sound, hs.debt, hs.bounded, ?_⟩
    rw [hpreimages, hplain hnone, Option.toList_none, List.append_nil]
    exact hs.issued
  | @assess loanId policyId nonce id ruleVersion loanStart expiry amount sig hpositive hfresh
      hbounded hfits hhashed =>
    obtain ⟨rest, hstart⟩ := @finePreimage_start (s.fineCount + 1) env.timestamp loanId nonce
    have hnone : s.fine id = none := by
      rw [hhashed]
      exact not_not.mp (hs.issued.fresh hstart hfits hfree)
    let record : FineRecord := ⟨loanId, policyId, ruleVersion, amount, env.timestamp, .active⟩
    have hbefore : ∀ k, s.fineAmounts k id = if record.loanId = k then record.amount - amount else 0 := by
      intro k
      rw [State.fineAmounts, hnone, standing]
      simp [record]
    let next : State := { s with
      nonceUsed := Function.update s.nonceUsed nonce true
      fineCount := s.fineCount + 1
      fine := Function.update s.fine id (some record)
      loanDebt := Function.update s.loanDebt loanId (s.loanDebt loanId + amount) }
    obtain ⟨hsound, hdebt, hbound⟩ :=
      @Indebted.move contract crypto s next es hs id record amount rfl rfl hpositive.le hbefore
        hbounded
    refine ⟨hsound, hdebt, hbound, ?_⟩
    rw [hpreimages]
    exact hs.issued.insert hstart hfits hhashed
  | @waive caller id record amount status hfound hpositive hcovered =>
    have hdebt := hs.bounded record.loanId
    let waived : FineRecord := { record with amount := record.amount - amount, status := status }
    have hbefore : ∀ k, s.fineAmounts k id =
        if waived.loanId = k then waived.amount - -amount else 0 := by
      intro k
      rw [State.fineAmounts, hfound, standing]
      simp [waived]
    let next : State := { s with
      fine := Function.update s.fine id (some waived)
      loanDebt := Function.update s.loanDebt record.loanId (s.loanDebt record.loanId - amount) }
    have hlower : s.loanDebt waived.loanId + -amount < 2^127 := by
      dsimp only [waived]
      omega
    obtain ⟨hsound, hdebt, hbound⟩ :=
      @Indebted.move contract crypto s next es hs id waived (-amount) rfl rfl
        (Int.sub_nonneg_of_le hcovered) hbefore hlower
    refine ⟨hsound, hdebt, hbound, ?_⟩
    rw [hpreimages, hplain rfl, Option.toList_none, List.append_nil]
    exact hs.issued.rewrite hfound

/-- No waiver that a fine covers underflows its debt. -/
theorem Indebted.waives (hs : Indebted crypto s es) {caller : Address} {id : Bytes32}
    {record : FineRecord} {amount : Int} (hfound : s.fine id = some record)
    (hcovered : amount ≤ record.amount) :
    waiveFine env s caller id amount ≠ .error (.err .overflow) := by
  have hshare := hs.covered hfound
  have hbound := hs.bounded record.loanId
  intro h
  by_cases hpositive : 0 < amount
  · have hrecord : fitsI128 (record.amount - amount) = some (record.amount - amount) :=
      fitsI128_eq_some.mpr ⟨by omega, rfl⟩
    have hdebt : fitsI128 (s.loanDebt record.loanId - amount) =
        some (s.loanDebt record.loanId - amount) := fitsI128_eq_some.mpr ⟨by omega, rfl⟩
    simp [waiveFine, requireAdmin, hfound, hrecord, hdebt] at h
  · simp [waiveFine, requireAdmin, not_lt.mp hpositive] at h

/-- The debts of every run, as long as no two fine ids collide in it. -/
theorem run_indebted (is : List (Input contract))
    (hfree : CollisionFree crypto.sha256
      (hashed ((machine contract crypto).journal State.empty is))) :
    Indebted crypto ((machine contract crypto).run State.empty is)
      ((machine contract crypto).journal State.empty is) := by
  let P (t : State) (es : List (Step contract)) : Prop :=
    CollisionFree crypto.sha256 (hashed es) → Indebted crypto t es
  have hstep : ∀ es t (i : Input contract) o t', P t es →
      (machine contract crypto).step t i = .ok (o, t') → P t' (es ++ [⟨t, i, o, t'⟩]) := by
    intro es t i o t' ht h hfree
    exact (step_effect h).indebted (ht hfree.filterMap_left) hfree
  have hstart : P State.empty [] := fun _ => indebted_empty
  exact Machine.run_journal_invariant hstart hstep is hfree

theorem run_recorded (is : List (Input contract)) :
    Recorded ((machine contract crypto).run State.empty is)
      ((machine contract crypto).journal State.empty is) :=
  Machine.run_journal_invariant recorded_empty (fun _ _ _ _ _ hs h => (step_effect h).recorded hs) is

end Fines

/-- The debt of a loan is what its fines come to, no amount is negative, a nonce is used once, a
waiver that its fine covers does not fail at the debt, and the payload determines what was signed. -/
theorem run_debts (crypto : Crypto) (is : List (Input contract)) :
    let m := machine contract crypto
    let s := m.run State.empty is
    let es := m.journal State.empty is
    (CollisionFree crypto.sha256 (hashed es) →
      (∀ loanId, {id | s.fineAmounts loanId id ≠ 0}.Finite ∧
        s.loanDebt loanId = ∑ᶠ id, s.fineAmounts loanId id ∧ 0 ≤ s.loanDebt loanId) ∧
      ∀ (env : Env contract) caller id record amount, s.fine id = some record →
        amount ≤ record.amount → waiveFine env s caller id amount ≠ .error (.err .overflow)) ∧
    (∀ id record, s.fine id = some record → 0 ≤ record.amount) ∧
    (∀ nonce, es.countP (fun e => e.input.call.nonce = some nonce) ≤ 1) ∧
    ∀ a b : Assessment, a ≠ b → a.payload ≠ b.payload := by
  intro m s es
  have hrecorded : Recorded s es := run_recorded is
  refine ⟨?_, hrecorded.amounts, ?_, fun a b hne h => hne (payload_inj h)⟩
  · intro hfree
    have hs : Indebted crypto s es := run_indebted is hfree
    refine ⟨?_, fun env caller id record amount => hs.waives⟩
    intro loanId
    refine ⟨(hs.sound loanId).finite, hs.debt loanId, ?_⟩
    rw [hs.debt loanId]
    exact (hs.sound loanId).holdings_nonneg
  · intro nonce
    rw [hrecorded.nonces nonce]
    split_ifs <;> omega

section Samples

/-- A key, two assessments that it signs, and the ids of their fines. -/
def sampleKey : Bytes32 := 0xd75a980182b10ab7d54bfed3c964073a0ee172f3daa62325af021a68f707511a

def sampleSignatures : BitVec 512 × BitVec 512 :=
  (0x5805da31409ed5a39f130ba8d5a2b94e83114604de6a9f624cddfcd1b87f668b59b8fedb4fb4d1bb3bae98ae8433f5ffdce40b6dd2b45bb6bf59d2d0c6081508,
    0x0388a3cbe300e4b54e2427d6adf936c53f5b5b86bb6e6e629907fe6a709b9253338c5ee4ac6c37d5056722a04aee35ed67b1e00ee0e3a8c979f12ea8e27dce04)

def sampleIds : Bytes32 × Bytes32 :=
  (0x3cd233be57421342947bf6b28c0cb28d32f37d61087c2ef2e13f2530c809e63f,
    0x95cf3b272b38d46f827e1b62dd17a06455dc9499dea6e620706030486aacd1a5)

def sampleCrypto : Crypto where
  sha256 p :=
    if p = finePreimage 1 10 5 7 then sampleIds.1
    else if p = finePreimage 2 20 5 6 then sampleIds.2 else 0
  verifyStrict key message sig :=
    key = sampleKey ∧ (message = buildFinePayload 5 8 1 30 0 7 100 ∧ sig = sampleSignatures.1 ∨
      message = buildFinePayload 5 8 1 20 0 6 100 ∧ sig = sampleSignatures.2)

def sampleCalls : List (Input ⟨0⟩) :=
  [⟨.sample, .initializeContract ⟨1⟩ sampleKey⟩, ⟨.sample, .setPolicy ⟨1⟩ 8 40 60 0⟩,
    ⟨.sample, .assessFine 5 8 1 30 0 7 100 sampleSignatures.1⟩,
    ⟨.sampleLater, .assessFine 5 8 1 20 0 6 100 sampleSignatures.2⟩,
    ⟨.sampleLater, .waiveFine ⟨1⟩ sampleIds.1 12⟩]

theorem run_debts_sample :
    let s := (machine ⟨0⟩ sampleCrypto).run State.empty sampleCalls
    s.loanDebt 5 = 38 ∧ s.loanDebt 5 = ∑ᶠ id, s.fineAmounts 5 id := by
  have hdebts := (run_debts sampleCrypto sampleCalls).1 (by decide +kernel)
  exact ⟨by decide +kernel, (hdebts.1 5).2.1⟩

end Samples

end ChainVerse.LibraryFines
