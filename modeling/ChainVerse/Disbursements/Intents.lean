import ChainVerse.Framework.Listings
import ChainVerse.Framework.Tables
import ChainVerse.Disbursements.Contract
import ChainVerse.Framework.Histories

namespace ChainVerse.ScholarshipDisbursements

section Steps

variable {contract : Address} {crypto : Crypto} {env : Env contract} {s s' : State} {id : Bytes32}

/-- An accepted call of a run, with the stores around it. -/
abbrev Step (contract : Address) := Entry State (Input contract) Answer

section Calls

/-- The recipient whose wallet a call sets, and the wallet. -/
def Call.sets : Call → Option (Address × Address)
  | .setPayoutWallet recipient wallet => some (recipient, wallet)
  | _ => none

/-- The challenge that a call confirms. -/
def Call.confirms : Call → Option Nat
  | .confirmWalletChallenge challengeId _ _ => some challengeId
  | _ => none

/-- The intent whose execution a call records. -/
def Call.executes : Call → Option Bytes32
  | .recordExecution _ intentId => some intentId
  | _ => none

/-- The address that a recipient is paid at. -/
def State.payoutAddress (s : State) (recipient : Address) : Option Address :=
  (s.walletBinding recipient).map PayoutWallet.wallet

/-- The epoch of a recipient's wallet, zero before the first one is set. -/
def State.epoch (s : State) (recipient : Address) : Nat :=
  ((s.walletBinding recipient).map PayoutWallet.epoch).getD 0

end Calls

section Guards

/-- The recipient's wallet is verified and the one, of the same epoch, that the intent names. -/
structure Payable (s : State) (intent : DisbursementIntent) (binding : PayoutWallet) : Prop where
  bound : s.walletBinding intent.recipient = some binding
  verified : binding.verified = true
  epoch : binding.epoch = intent.walletEpoch
  wallet : binding.wallet = intent.wallet

theorem loadPending_ok {intent : DisbursementIntent} (h : loadPending s id = .ok intent) :
    s.intent id = some intent ∧ intent.status = .pending := by
  simp only [loadPending, bind_eq_ok, orRefuse_eq_ok] at h
  obtain ⟨stored, hstored, h⟩ := h
  cases hstatus : stored.status with
  | pending =>
    rw [hstatus, pure_eq_ok] at h
    subst h
    exact ⟨hstored, hstatus⟩
  | executed =>
    rw [hstatus] at h
    cases h
  | cancelled =>
    rw [hstatus] at h
    cases h

theorem isIntentExecutable_payable {intent : DisbursementIntent} (hfound : s.intent id = some intent)
    (h : isIntentExecutable s id = true) : ∃ binding, Payable s intent binding := by
  rw [isIntentExecutable, hfound] at h
  dsimp only at h
  split_ifs at h with hpending
  cases hbinding : s.walletBinding intent.recipient with
  | none =>
    rw [loadBinding, hbinding] at h
    cases h
  | some binding =>
    rw [loadBinding, hbinding] at h
    simp only [orRefuse, Bool.and_eq_true, decide_eq_true_eq] at h
    obtain ⟨⟨hverified, hepoch⟩, hwallet⟩ := h
    exact ⟨binding, hbinding, hverified, hepoch, hwallet⟩

/-- What a confirmation of a challenge has checked. -/
structure Confirmed (contract : Address) (crypto : Crypto) (s : State) (challengeId : Nat)
    (pubkey : Bytes32) (signature : BitVec 512) (challenge : WalletChallenge)
    (binding : PayoutWallet) : Prop where
  stored : s.challenge challengeId = some challenge
  unused : challenge.used = false
  bound : s.walletBinding challenge.recipient = some binding
  wallet : binding.wallet = challenge.wallet
  registered : s.walletKey challenge.wallet = some pubkey
  signed : ∃ payload, challengePayload contract crypto s challenge = .ok payload ∧
    crypto.verifyStrict pubkey (bytes32 payload) signature = true

theorem confirmWalletChallenge_ok {challengeId : Nat} {pubkey : Bytes32} {signature : BitVec 512}
    (h : confirmWalletChallenge env crypto s challengeId pubkey signature = .ok s') :
    ∃ challenge binding,
      Confirmed contract crypto s challengeId pubkey signature challenge binding ∧
        env.timestamp < challenge.expiresAt ∧
        s' = saveBinding (saveChallenge s challengeId { challenge with used := true })
          challenge.recipient { binding with verified := true, updatedAt := env.timestamp } := by
  simp only [confirmWalletChallenge, loadChallenge, loadBinding, verifyEd25519, bind_eq_ok,
    orRefuse_eq_ok, refuseIf_eq_ok, pure_eq_ok, exists_unit, not_not, ge_iff_le, not_le,
    Bool.not_eq_true, Bool.not_eq_false] at h
  obtain ⟨challenge, hstored, hunused, hlive, binding, hbound, hwallet, registered, hregistered, hkey,
    payload, hpayload, hsigned, hs'⟩ := h
  subst hkey
  exact ⟨challenge, binding,
    ⟨hstored, hunused, hbound, hwallet, hregistered, payload, hpayload, hsigned⟩, hlive, hs'.symm⟩

end Guards

/-- What an accepted call does. -/
inductive Effect (contract : Address) (crypto : Crypto) (now : Nat) (s : State) :
    Call → Answer → State → Prop
  | quiet {call : Call} {o : Answer} {s' : State} (unset : call.sets = none)
      (unconfirmed : call.confirms = none) (unexecuted : call.executes = none)
      (unopened : ∀ n, o ≠ .challengeId n) (binding : s'.walletBinding = s.walletBinding)
      (counter : s'.challengeCounter = s.challengeCounter) (challenge : s'.challenge = s.challenge)
      (intent : s'.intent = s.intent) : Effect contract crypto now s call o s'
  | set (recipient wallet : Address) : Effect contract crypto now s (.setPayoutWallet recipient wallet)
      .done (saveBinding s recipient ⟨wallet, false, s.epoch recipient + 1, now⟩)
  | opened (recipient wallet : Address) (ttl : Nat) (binding : PayoutWallet)
      (bound : s.walletBinding recipient = some binding) (current : binding.wallet = wallet) :
      Effect contract crypto now s (.openWalletChallenge recipient wallet ttl)
        (.challengeId s.challengeCounter)
        (saveChallenge { s with challengeCounter := s.challengeCounter + 1 } s.challengeCounter
          ⟨s.challengeCounter, recipient, wallet, now + ttl, false, now⟩)
  | confirmed (id : Nat) (pubkey : Bytes32) (signature : BitVec 512) (challenge : WalletChallenge)
      (binding : PayoutWallet)
      (checked : Confirmed contract crypto s id pubkey signature challenge binding)
      (live : now < challenge.expiresAt) :
      Effect contract crypto now s (.confirmWalletChallenge id pubkey signature) .done
        (saveBinding (saveChallenge s id { challenge with used := true }) challenge.recipient
          { binding with verified := true, updatedAt := now })
  | created (creator : Address) (programId : Bytes32) (recipient : Address) (amount : Int)
      (installment : Nat) (id : Bytes32) (binding : PayoutWallet)
      (derived : id = deriveIntentId crypto programId recipient installment) (fresh : s.intent id = none)
      (positive : 0 < amount) (bound : s.walletBinding recipient = some binding) :
      Effect contract crypto now s (.createIntent creator programId recipient amount installment)
        (.intentId id)
        (saveIntent s id ⟨id, programId, recipient, binding.wallet, amount, installment, binding.epoch,
          now, creator, .pending, 0⟩)
  | executed (executor : Address) (id : Bytes32) (intent : DisbursementIntent) (binding : PayoutWallet)
      (stored : s.intent id = some intent) (pending : intent.status = .pending)
      (payable : Payable s intent binding) :
      Effect contract crypto now s (.recordExecution executor id) .done
        (saveIntent s id { intent with status := .executed, executedAt := now })
  | cancelled (caller : Address) (id : Bytes32) (intent : DisbursementIntent)
      (stored : s.intent id = some intent) (pending : intent.status = .pending) :
      Effect contract crypto now s (.cancelIntent caller id) .done
        (saveIntent s id { intent with status := .cancelled })

section Steps

theorem setPayoutWallet_effect {recipient wallet : Address}
    (h : setPayoutWallet env s recipient wallet = .ok s') :
    Effect contract crypto env.timestamp s (.setPayoutWallet recipient wallet) .done s' := by
  simp only [setPayoutWallet, bind_eq_ok, orRefuse_eq_ok, fitsU_eq_some, pure_eq_ok, exists_unit] at h
  obtain ⟨_, epoch, ⟨_, rfl⟩, rfl⟩ := h
  exact .set recipient wallet

theorem openWalletChallenge_effect {recipient wallet : Address} {ttl n : Nat}
    (h : openWalletChallenge env s recipient wallet ttl = .ok (n, s')) :
    Effect contract crypto env.timestamp s (.openWalletChallenge recipient wallet ttl)
      (.challengeId n) s' := by
  simp only [openWalletChallenge, loadBinding, bind_eq_ok, orRefuse_eq_ok, fitsU_eq_some, refuseIf_eq_ok,
    pure_eq_ok, exists_unit, not_not, Prod.mk.injEq] at h
  obtain ⟨_, _, binding, hbound, hwallet, expiresAt, ⟨_, rfl⟩, next, ⟨_, rfl⟩, rfl, rfl⟩ := h
  exact .opened recipient wallet ttl binding hbound hwallet

theorem createIntent_effect {creator recipient : Address} {programId : Bytes32} {amount : Int}
    {installment : Nat}
    (h : createIntent env crypto s creator programId recipient amount installment = .ok (id, s')) :
    Effect contract crypto env.timestamp s
      (.createIntent creator programId recipient amount installment) (.intentId id) s' := by
  simp only [createIntent, loadBinding, bind_eq_ok, orRefuse_eq_ok, refuseIf_eq_ok, exists_unit,
    not_le] at h
  obtain ⟨_, hpositive, binding, hbound, h⟩ := h
  cases hfound : s.intent (deriveIntentId crypto programId recipient installment) with
  | some existing =>
    rw [hfound] at h
    simp only [bind_eq_ok, refuseIf_eq_ok, pure_eq_ok, exists_unit, Prod.mk.injEq] at h
    obtain ⟨_, rfl, rfl⟩ := h
    exact .quiet rfl rfl rfl (fun _ hanswer => by cases hanswer) rfl rfl rfl rfl
  | none =>
    rw [hfound] at h
    simp only [pure_eq_ok, Prod.mk.injEq] at h
    obtain ⟨rfl, rfl⟩ := h
    exact .created creator programId recipient amount installment _ binding rfl hfound hpositive hbound

theorem recordExecution_effect {executor : Address} (h : recordExecution env s executor id = .ok s') :
    Effect contract crypto env.timestamp s (.recordExecution executor id) .done s' := by
  simp only [recordExecution, bind_eq_ok, refuseIf_eq_ok, pure_eq_ok, exists_unit,
    Bool.not_eq_false] at h
  obtain ⟨_, intent, hpending, hexecutable, rfl⟩ := h
  obtain ⟨hstored, hstatus⟩ := loadPending_ok hpending
  obtain ⟨binding, hpayable⟩ := isIntentExecutable_payable hstored hexecutable
  exact .executed executor id intent binding hstored hstatus hpayable

theorem cancelIntent_effect {caller : Address} (h : cancelIntent env s caller id = .ok s') :
    Effect contract crypto env.timestamp s (.cancelIntent caller id) .done s' := by
  simp only [cancelIntent, bind_eq_ok, pure_eq_ok, exists_unit] at h
  obtain ⟨_, intent, hpending, rfl⟩ := h
  obtain ⟨hstored, hstatus⟩ := loadPending_ok hpending
  exact .cancelled caller id intent hstored hstatus

/-- The specification of one accepted call. -/
theorem step_effect {i : Input contract} {o : Answer} (h : (machine contract crypto).step s i = .ok (o, s')) :
    Effect contract crypto i.env.timestamp s i.call o s' := by
  obtain ⟨env, call⟩ := i
  cases call with
  | initializeContract admin networkId =>
    simp only [machine, execute, initializeContract, map_eq_ok, bind_eq_ok, pure_eq_ok, exists_unit,
      Prod.mk.injEq] at h
    obtain ⟨_, ⟨_, _, rfl⟩, rfl, rfl⟩ := h
    exact .quiet rfl rfl rfl (fun _ hanswer => by cases hanswer) rfl rfl rfl rfl
  | addCreator admin creator =>
    simp only [machine, execute, addCreator, map_eq_ok, bind_eq_ok, pure_eq_ok, exists_unit,
      Prod.mk.injEq] at h
    obtain ⟨_, ⟨_, rfl⟩, rfl, rfl⟩ := h
    exact .quiet rfl rfl rfl (fun _ hanswer => by cases hanswer) rfl rfl rfl rfl
  | removeCreator admin creator =>
    simp only [machine, execute, removeCreator, map_eq_ok, bind_eq_ok, pure_eq_ok, exists_unit,
      Prod.mk.injEq] at h
    obtain ⟨_, ⟨_, rfl⟩, rfl, rfl⟩ := h
    exact .quiet rfl rfl rfl (fun _ hanswer => by cases hanswer) rfl rfl rfl rfl
  | registerWalletKey wallet pubkey =>
    simp only [machine, execute, registerWalletKey, map_eq_ok, bind_eq_ok, pure_eq_ok, exists_unit,
      Prod.mk.injEq] at h
    obtain ⟨_, ⟨_, rfl⟩, rfl, rfl⟩ := h
    exact .quiet rfl rfl rfl (fun _ hanswer => by cases hanswer) rfl rfl rfl rfl
  | setPayoutWallet recipient wallet =>
    simp only [machine, execute, map_eq_ok, Prod.mk.injEq] at h
    obtain ⟨_, hset, rfl, rfl⟩ := h
    exact setPayoutWallet_effect hset
  | openWalletChallenge recipient wallet ttl =>
    simp only [machine, execute, map_eq_ok, Prod.exists, Prod.map_apply, id_eq, Prod.mk.injEq] at h
    obtain ⟨n, _, hopen, rfl, rfl⟩ := h
    exact openWalletChallenge_effect hopen
  | confirmWalletChallenge challengeId pubkey signature =>
    simp only [machine, execute, map_eq_ok, Prod.mk.injEq] at h
    obtain ⟨_, hconfirm, rfl, rfl⟩ := h
    obtain ⟨challenge, binding, hchecked, hlive, rfl⟩ := confirmWalletChallenge_ok hconfirm
    exact .confirmed challengeId pubkey signature challenge binding hchecked hlive
  | createIntent creator programId recipient amount installment =>
    simp only [machine, execute, map_eq_ok, Prod.exists, Prod.map_apply, id_eq, Prod.mk.injEq] at h
    obtain ⟨id, _, hcreate, rfl, rfl⟩ := h
    exact createIntent_effect hcreate
  | recordExecution executor intentId =>
    simp only [machine, execute, map_eq_ok, Prod.mk.injEq] at h
    obtain ⟨_, hexecute, rfl, rfl⟩ := h
    exact recordExecution_effect hexecute
  | cancelIntent caller intentId =>
    simp only [machine, execute, map_eq_ok, Prod.mk.injEq] at h
    obtain ⟨_, hcancel, rfl, rfl⟩ := h
    exact cancelIntent_effect hcancel

end Steps

end Steps

variable {contract : Address} {crypto : Crypto} {s s' : State} {id : Bytes32} {e : Step contract}
  {es : List (Step contract)} {intent : DisbursementIntent}

/-- A program's installment of a recipient. -/
abbrev Installment := Bytes32 × Address × Nat

section Quantities

def DisbursementIntent.pays (intent : DisbursementIntent) : Installment :=
  (intent.programId, intent.recipient, intent.installment)

/-- All of an intent but its progress. -/
def DisbursementIntent.terms (intent : DisbursementIntent) : DisbursementIntent :=
  { intent with status := .pending, executedAt := 0 }

/-- The installment whose execution a call records. -/
def executedInstallment (e : Step contract) : Option Installment :=
  (e.input.call.executes.bind e.pre.intent).map DisbursementIntent.pays

/-- The execution of the intent, while the recipient's wallet is verified and the one it names. -/
def Executes (intent : DisbursementIntent) (_ : List (Step contract)) (e : Step contract) : Prop :=
  e.input.call.executes = some intent.id ∧ ∃ binding, Payable e.pre intent binding

end Quantities

/-- What an accepted call makes of the intent under a key. -/
inductive IntentMove (crypto : Crypto) (s : State) (call : Call) (id : Bytes32) :
    Option DisbursementIntent → Option DisbursementIntent → Prop
  | kept (row : Option DisbursementIntent) (unexecuted : call.executes ≠ some id) :
      IntentMove crypto s call id row row
  | made (intent : DisbursementIntent) (unexecuted : call.executes ≠ some id) (keyed : intent.id = id)
      (derived : id = deriveIntentId crypto intent.programId intent.recipient intent.installment)
      (pending : intent.status = .pending) : IntentMove crypto s call id none (some intent)
  | executed (intent : DisbursementIntent) (binding : PayoutWallet) (now : Nat)
      (executes : call.executes = some id) (pending : intent.status = .pending)
      (payable : Payable s intent binding) :
      IntentMove crypto s call id (some intent)
        (some { intent with status := .executed, executedAt := now })
  | cancelled (intent : DisbursementIntent) (unexecuted : call.executes ≠ some id)
      (pending : intent.status = .pending) :
      IntentMove crypto s call id (some intent) (some { intent with status := .cancelled })

theorem Effect.intentMove {now : Nat} {call : Call} {o : Answer}
    (h : Effect contract crypto now s call o s') (id : Bytes32) :
    IntentMove crypto s call id (s.intent id) (s'.intent id) := by
  cases h with
  | quiet _ _ hunexecuted _ _ _ _ hintent =>
    rw [hintent]
    apply IntentMove.kept
    rw [hunexecuted]
    exact (Option.some_ne_none id).symm
  | set recipient wallet => exact .kept _ (Option.some_ne_none id).symm
  | opened recipient wallet ttl binding => exact .kept _ (Option.some_ne_none id).symm
  | confirmed n pubkey signature challenge binding => exact .kept _ (Option.some_ne_none id).symm
  | created creator programId recipient amount installment newId binding hderived hfresh =>
    rw [saveIntent_intent]
    by_cases hid : id = newId
    · subst hid
      rw [hfresh, Function.update_self]
      exact .made _ (Option.some_ne_none id).symm rfl hderived rfl
    · rw [Function.update_of_ne hid]
      exact .kept _ (Option.some_ne_none id).symm
  | executed executor executedId intent binding hstored hpending hpayable =>
    rw [saveIntent_intent]
    by_cases hid : id = executedId
    · subst hid
      rw [hstored, Function.update_self]
      exact .executed intent binding now rfl hpending hpayable
    · rw [Function.update_of_ne hid]
      exact .kept _ fun heq => hid (Option.some.inj heq).symm
  | cancelled caller cancelledId intent hstored hpending =>
    rw [saveIntent_intent]
    by_cases hid : id = cancelledId
    · subst hid
      rw [hstored, Function.update_self]
      exact .cancelled intent (Option.some_ne_none id).symm hpending
    · rw [Function.update_of_ne hid]
      exact .kept _ (Option.some_ne_none id).symm

/-- What the calls so far have made of the intent under a key. -/
structure Accounted (crypto : Crypto) (es : List (Step contract)) (id : Bytes32)
    (row : Option DisbursementIntent) : Prop where
  keyed : ∀ intent, row = some intent → intent.id = id ∧
    id = deriveIntentId crypto intent.programId intent.recipient intent.installment
  count : es.countP (fun e => e.input.call.executes = some id) =
    if row.map DisbursementIntent.status = some .executed then 1 else 0
  executed : ∀ intent, row = some intent → intent.status = .executed → Happened (Executes intent) es

section Accounting

theorem accounted_empty (crypto : Crypto) (id : Bytes32) :
    Accounted crypto ([] : List (Step contract)) id none where
  keyed _ h := by cases h
  count := rfl
  executed _ h := by cases h

theorem Accounted.step {row row' : Option DisbursementIntent} (h : Accounted crypto es id row)
    (hmove : IntentMove crypto e.pre e.input.call id row row') : Accounted crypto (es ++ [e]) id row' := by
  have hquiet : e.input.call.executes ≠ some id →
      (es ++ [e]).countP (fun e => e.input.call.executes = some id) =
        es.countP fun e => e.input.call.executes = some id := fun h => countP_snoc_of_neg h
  cases hmove with
  | kept _ hunexecuted =>
    refine ⟨h.keyed, ?_, ?_⟩
    · rw [hquiet hunexecuted, h.count]
    · intro intent hrow hstatus
      exact (h.executed intent hrow hstatus).snoc e
  | made intent hunexecuted hkeyed hderived hpending =>
    refine ⟨?_, ?_, ?_⟩
    · intro intent' hrow
      cases hrow
      exact ⟨hkeyed, hderived⟩
    · rw [hquiet hunexecuted, h.count, Option.map_some, hpending]
      rfl
    · intro intent' hrow hstatus
      cases hrow
      rw [hpending] at hstatus
      cases hstatus
  | executed intent binding now hexecutes hpending hpayable =>
    refine ⟨?_, ?_, ?_⟩
    · intro intent' hrow
      cases hrow
      exact h.keyed intent rfl
    · rw [countP_snoc_of_pos (q := fun e : Step contract => e.input.call.executes = some id)
        hexecutes, h.count, Option.map_some, hpending]
      rfl
    · intro intent' hrow _
      cases hrow
      apply happened_last
      refine ⟨?_, binding, hpayable.bound, hpayable.verified, hpayable.epoch, hpayable.wallet⟩
      rw [hexecutes]
      exact congrArg some (h.keyed intent rfl).1.symm
  | cancelled intent hunexecuted hpending =>
    refine ⟨?_, ?_, ?_⟩
    · intro intent' hrow
      cases hrow
      exact h.keyed intent rfl
    · rw [hquiet hunexecuted, h.count, Option.map_some, hpending]
      rfl
    · intro intent' hrow hstatus
      cases hrow
      cases hstatus

theorem run_accounted (is : List (Input contract)) (id : Bytes32) :
    Accounted crypto ((machine contract crypto).journal State.empty is) id
      (((machine contract crypto).run State.empty is).intent id) := by
  refine @Machine.run_journal_invariant _ _ _ _ (machine contract crypto)
    (fun s es => Accounted crypto es id (s.intent id)) State.empty (accounted_empty crypto id) ?_ is
  intro es s i o s' hs h
  exact hs.step (e := ⟨s, i, o, s'⟩) ((step_effect h).intentMove id)

/-- A recorded execution is of the intent that its installment has. -/
theorem executes_of_installment {is : List (Input contract)} {installment : Installment}
    (he : e ∈ (machine contract crypto).journal State.empty is)
    (h : executedInstallment e = some installment) :
    e.input.call.executes =
      some (deriveIntentId crypto installment.1 installment.2.1 installment.2.2) := by
  obtain ⟨_, js, _, hpre⟩ := Machine.journal_step he
  obtain ⟨intent, hfound, rfl⟩ := Option.map_eq_some_iff.mp h
  obtain ⟨id, hid, hstored⟩ := Option.bind_eq_some_iff.mp hfound
  rw [hpre] at hstored
  rw [hid, ((run_accounted js id).keyed intent hstored).2]
  rfl

/-- Each installment is executed at most once. -/
theorem run_executed_once (is : List (Input contract)) (installment : Installment) :
    ((machine contract crypto).journal State.empty is).countP
      (fun e => executedInstallment e = some installment) ≤ 1 := by
  have hcount := (@run_accounted contract crypto is
    (deriveIntentId crypto installment.1 installment.2.1 installment.2.2)).count
  have hle : ((machine contract crypto).journal State.empty is).countP
      (fun e => executedInstallment e = some installment) ≤
        ((machine contract crypto).journal State.empty is).countP fun e => e.input.call.executes =
          some (deriveIntentId crypto installment.1 installment.2.1 installment.2.2) := by
    apply List.countP_mono_left
    intro e he h
    rw [decide_eq_true_eq] at h ⊢
    exact executes_of_installment he h
  rw [hcount] at hle
  split_ifs at hle <;> omega

/-- A stored intent keeps its terms. -/
theorem IntentMove.keeps {call : Call} {row row' : Option DisbursementIntent}
    (h : IntentMove crypto s call id row row') (hrow : row = some intent) : ∃ intent', row' = some intent' ∧ intent'.terms = intent.terms := by
  cases h with
  | kept => exact ⟨intent, hrow, rfl⟩
  | made => cases hrow
  | executed _ binding now =>
    cases hrow
    exact ⟨_, rfl, rfl⟩
  | cancelled =>
    cases hrow
    exact ⟨_, rfl, rfl⟩

theorem run_terms (s : State) (is : List (Input contract)) (hfound : s.intent id = some intent) :
    ∃ intent', ((machine contract crypto).run s is).intent id = some intent' ∧
      intent'.terms = intent.terms := by
  refine @Machine.run_invariant _ _ _ _ (machine contract crypto)
    (fun t => ∃ intent', t.intent id = some intent' ∧ intent'.terms = intent.terms) s
    ⟨intent, hfound, rfl⟩ ?_ is
  intro t i o t' ht h
  obtain ⟨stored, hstored, hterms⟩ := ht
  obtain ⟨intent', hintent', hkept⟩ := ((step_effect h).intentMove id).keeps hstored
  exact ⟨intent', hintent', hkept.trans hterms⟩

end Accounting

end ChainVerse.ScholarshipDisbursements
