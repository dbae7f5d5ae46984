import ChainVerse.Vaults.Contract
import ChainVerse.Framework.Accounts
import ChainVerse.Framework.Listings
import Mathlib.Data.List.Nodup

namespace ChainVerse.EscrowVault

section Steps

variable {contract : Address} {crypto : Crypto} {env : Env contract} {s s' : State} {id : Bytes32}

/-- An accepted call of a run, with the stores around it. -/
abbrev Step (contract : Address) := Entry State (Input contract) Answer

/-- What `create_vault` checks of a vault, and how it stores it. -/
structure Vault.Opened (contract : Address) (vault : Vault) : Prop where
  nodup : vault.approvers.Nodup
  positive : 0 < vault.amount
  threshold : 0 < vault.threshold
  unapproved : vault.approvals = 0
  pending : vault.status = .pending
  outside : vault.depositor ≠ contract

/-- Where the amount of a vault goes on release. -/
def Vault.release (contract : Address) (vault : Vault) : Transfer :=
  ⟨vault.token, contract, vault.recipient, vault.amount⟩

/-- Where it goes on cancellation. -/
def Vault.refund (contract : Address) (vault : Vault) : Transfer :=
  ⟨vault.token, contract, vault.depositor, vault.amount⟩

/-- Everything an accepted call can have done, with its answer. -/
inductive Effect (crypto : Crypto) (env : Env contract) (s : State) :
    Call → Answer → State → Prop where
  | setAdmin {admin : Address} :
      Effect crypto env s (.setAdmin admin) .done { s with admin := some admin }
  | create {recipient : Address} {approvers : List Address} {vault : Vault}
      (opened : vault.Opened contract) (fits : s.vaultCount + 1 < 2^64) :
      Effect crypto env s
        (.createVault vault.depositor recipient vault.token vault.amount approvers vault.threshold)
        (.created (crypto.sha256
          (idInput crypto (s.vaultCount + 1) env.timestamp vault.depositor)))
        { s with
          vaultCount := s.vaultCount + 1
          vault := Function.update s.vault
            (crypto.sha256 (idInput crypto (s.vaultCount + 1) env.timestamp vault.depositor))
            (some vault)
          tokens := s.tokens.move ⟨vault.token, vault.depositor, contract, vault.amount⟩ }
  | vote {id : Bytes32} {caller : Address} {vault : Vault} (found : s.vault id = some vault)
      (pending : vault.status = .pending) (listed : caller ∈ vault.approvers)
      (fresh : s.voted (id, caller) = false) (short : vault.approvals + 1 < vault.threshold) :
      Effect crypto env s (.approveVault id caller) .done
        { s with
          voted := Function.update s.voted (id, caller) true
          vault := Function.update s.vault id
            (some { vault with approvals := vault.approvals + 1 }) }
  | release {id : Bytes32} {caller : Address} {vault : Vault} (found : s.vault id = some vault)
      (pending : vault.status = .pending) (listed : caller ∈ vault.approvers)
      (fresh : s.voted (id, caller) = false) (met : vault.threshold ≤ vault.approvals + 1) :
      Effect crypto env s (.approveVault id caller) .done
        { s with
          voted := Function.update s.voted (id, caller) true
          vault := Function.update s.vault id
            (some { vault with approvals := vault.approvals + 1, status := .released })
          tokens := s.tokens.move (vault.release contract) }
  | revoke {id : Bytes32} {caller : Address} {vault : Vault} (found : s.vault id = some vault)
      (pending : vault.status = .pending) (standing : s.voted (id, caller) = true) :
      Effect crypto env s (.revokeApproval id caller) .done
        { s with
          voted := Function.update s.voted (id, caller) false
          vault := Function.update s.vault id
            (some { vault with approvals := vault.approvals - 1 }) }
  | cancel {id : Bytes32} {vault : Vault} (found : s.vault id = some vault)
      (pending : vault.status = .pending) :
      Effect crypto env s (.emergencyCancel id) .done
        { s with
          vault := Function.update s.vault id (some { vault with status := .cancelled })
          tokens := s.tokens.move (vault.refund contract) }
  | elsewhere {t : Transfer} (sender : t.sender ≠ contract) :
      Effect crypto env s (.transferElsewhere t) .done { s with tokens := s.tokens.move t }

section Deduplication

/-- The result so far has no duplicates, whatever follows. -/
theorem nodup_foldl_deduplicate (list : List Address) {result : List Address}
    (h : result.Nodup) :
    (list.foldl (fun result addr => if addr ∈ result then result else result ++ [addr])
      result).Nodup := by
  induction list generalizing result with
  | nil => exact h
  | cons addr rest ih =>
    rw [List.foldl_cons]
    apply ih
    by_cases haddr : addr ∈ result
    · rw [if_pos haddr]
      exact h
    · rw [if_neg haddr]
      have hsingle : [addr].Nodup := List.nodup_singleton addr
      refine h.append hsingle ?_
      rw [List.disjoint_singleton]
      exact haddr

theorem nodup_deduplicate (list : List Address) : (deduplicate list).Nodup :=
  nodup_foldl_deduplicate list List.nodup_nil

end Deduplication

section Inversion

@[simp] theorem pendingVault_eq_ok {vault : Vault} :
    pendingVault s id = .ok vault ↔ s.vault id = some vault ∧ vault.status = .pending := by
  simp only [pendingVault, bind_eq_ok, exists_unit, orRefuse_eq_ok, refuseIf_eq_ok, pure_eq_ok,
    not_not]
  constructor
  · rintro ⟨_, hfound, hpending, rfl⟩
    exact ⟨hfound, hpending⟩
  · rintro ⟨hfound, hpending⟩
    exact ⟨vault, hfound, hpending, rfl⟩

theorem createVault_effect {depositor recipient token : Address} {amount : Int}
    {approvers : List Address} {threshold : Nat}
    (h : createVault crypto env s depositor recipient token amount approvers threshold =
      .ok (id, s')) :
    Effect crypto env s (.createVault depositor recipient token amount approvers threshold)
      (.created id) s' := by
  simp only [createVault, bind_eq_ok, exists_unit, refuseIf_eq_ok, requireAuth_eq_ok,
    Tokens.transfer_eq_ok, orRefuse_eq_ok, fitsU_eq_some, pure_eq_ok, Prod.mk.injEq, not_le] at h
  obtain ⟨_, _, _, hpositive, hthreshold, _, hsigned, _, ⟨_, _, _, rfl⟩, _, ⟨hfits, rfl⟩, rfl,
    rfl⟩ := h
  have hopened : Vault.Opened contract
      ⟨depositor, recipient, token, amount, deduplicate approvers, 0, threshold, .pending⟩ :=
    ⟨nodup_deduplicate approvers, hpositive, Nat.pos_of_ne_zero hthreshold, rfl, rfl,
      Env.signer_ne_contract hsigned⟩
  exact .create hopened hfits

theorem approveVault_effect {caller : Address} (h : approveVault env s id caller = .ok s') :
    Effect crypto env s (.approveVault id caller) .done s' := by
  simp only [approveVault, bind_eq_ok, exists_unit, pendingVault_eq_ok, refuseIf_eq_ok,
    orRefuse_eq_ok, fitsU_eq_some, not_not, Bool.not_eq_true] at h
  obtain ⟨_, vault, ⟨hfound, hpending⟩, _, hlisted, hfresh, _, ⟨_, rfl⟩, h⟩ := h
  by_cases hmet : vault.threshold ≤ vault.approvals + 1
  · rw [if_pos hmet] at h
    simp only [bind_eq_ok, Tokens.transfer_eq_ok, pure_eq_ok] at h
    obtain ⟨_, ⟨_, _, _, rfl⟩, rfl⟩ := h
    exact .release hfound hpending hlisted hfresh hmet
  · rw [if_neg hmet, pure_eq_ok] at h
    rw [← h]
    exact .vote hfound hpending hlisted hfresh (not_le.mp hmet)

theorem revokeApproval_effect {caller : Address} (h : revokeApproval env s id caller = .ok s') :
    Effect crypto env s (.revokeApproval id caller) .done s' := by
  simp only [revokeApproval, bind_eq_ok, exists_unit, pendingVault_eq_ok, refuseIf_eq_ok,
    pure_eq_ok, Bool.not_eq_false] at h
  obtain ⟨_, vault, ⟨hfound, hpending⟩, hstanding, rfl⟩ := h
  exact .revoke hfound hpending hstanding

theorem emergencyCancel_effect (h : emergencyCancel env s id = .ok s') :
    Effect crypto env s (.emergencyCancel id) .done s' := by
  simp only [emergencyCancel, bind_eq_ok, exists_unit, pendingVault_eq_ok, orRefuse_eq_ok,
    Tokens.transfer_eq_ok, pure_eq_ok] at h
  obtain ⟨_, _, _, vault, ⟨hfound, hpending⟩, _, ⟨_, _, _, rfl⟩, rfl⟩ := h
  exact .cancel hfound hpending

/-- What an accepted entry point has done. -/
theorem step_effect {i : Input contract} {o : Answer}
    (h : (machine contract crypto).step s i = .ok (o, s')) :
    Effect crypto i.env s i.call o s' := by
  obtain ⟨env, call⟩ := i
  cases call with
  | setAdmin =>
    simp only [machine, execute, map_eq_ok, setAdmin, bind_eq_ok, exists_unit, pure_eq_ok,
      Prod.mk.injEq] at h
    obtain ⟨_, ⟨_, _, rfl⟩, rfl, rfl⟩ := h
    exact .setAdmin
  | createVault =>
    simp only [machine, execute, map_eq_ok, Prod.map, Prod.mk.injEq, id_eq] at h
    obtain ⟨⟨_, _⟩, hcreate, rfl, rfl⟩ := h
    exact createVault_effect hcreate
  | approveVault =>
    simp only [machine, execute, map_eq_ok, Prod.mk.injEq] at h
    obtain ⟨_, happrove, rfl, rfl⟩ := h
    exact approveVault_effect happrove
  | revokeApproval =>
    simp only [machine, execute, map_eq_ok, Prod.mk.injEq] at h
    obtain ⟨_, hrevoke, rfl, rfl⟩ := h
    exact revokeApproval_effect hrevoke
  | emergencyCancel =>
    simp only [machine, execute, map_eq_ok, Prod.mk.injEq] at h
    obtain ⟨_, hcancel, rfl, rfl⟩ := h
    exact emergencyCancel_effect hcancel
  | transferElsewhere =>
    simp only [machine, execute, bind_eq_ok, refuseIf_eq_ok, exists_unit, Tokens.transfer_eq_ok,
      pure_eq_ok, Prod.mk.injEq] at h
    obtain ⟨hsender, _, ⟨_, _, _, rfl⟩, rfl, rfl⟩ := h
    exact .elsewhere hsender

end Inversion

end Steps

variable {contract : Address} {crypto : Crypto} {env : Env contract} {s s' : State} {id : Bytes32}
  {es : List (Step contract)} {e : Step contract}

section Quantities

/-- A call about a stored vault. -/
def concerns (id : Bytes32) (e : Step contract) : Bool :=
  match e.input.call with
  | .approveVault named _ | .revokeApproval named _ | .emergencyCancel named => named = id
  | _ => false

/-- What a call has paid out of the contract. -/
def payouts (e : Step contract) : List Transfer := e.pre.tokens.newFrom contract e.post.tokens

/-- What should have been paid out of a vault. -/
def dues (contract : Address) : Option Vault → List Transfer
  | some vault =>
    match vault.status with
    | .pending => []
    | .released => [vault.release contract]
    | .cancelled => [vault.refund contract]
  | none => []

/-- What a vault has in the contract: its amount while it is pending, and also when it was released to the
contract itself. -/
def held (contract token : Address) : Option Vault → Int
  | some vault =>
    if vault.token = token ∧
        (vault.status = .pending ∨ vault.status = .released ∧ vault.recipient = contract) then
      vault.amount
    else 0
  | none => 0

/-- What a transfer without the contract's doing brings to it. -/
def donation (token : Address) (e : Step contract) : Int :=
  match e.input.call with
  | .transferElsewhere t => if token = t.token ∧ contract = t.recipient then t.amount else 0
  | _ => 0

/-- The bytes that a call has hashed into a vault id. -/
def preimage (crypto : Crypto) (e : Step contract) : Option (List Byte) :=
  match e.input.call with
  | .createVault depositor _ _ _ _ _ =>
    some (idInput crypto (e.pre.vaultCount + 1) e.input.env.timestamp depositor)
  | _ => none

/-- The bytes that the calls have hashed into vault ids. -/
def hashed (crypto : Crypto) (es : List (Step contract)) : List (List Byte) :=
  es.filterMap (preimage crypto)

end Quantities

/-- A vault counts the standing votes of its approvers; it is pending as long as they are too few, and
released once there are enough. -/
structure Vault.Sound (contract : Address) (vault : Vault) (votes : Address → Bool) : Prop where
  nodup : vault.approvers.Nodup
  positive : 0 < vault.amount
  outside : vault.depositor ≠ contract
  counted : vault.approvals = vault.approvers.countP votes
  short : vault.status = .pending → vault.approvals < vault.threshold
  met : vault.status = .released → vault.threshold ≤ vault.approvals

/-- The vaults and the money in them after the calls `es`. -/
structure Custody (contract : Address) (crypto : Crypto) (s : State) (es : List (Step contract)) :
    Prop where
  issued : Issued crypto.sha256 (fun id => s.vault id ≠ none) s.vaultCount (hashed crypto es)
  listed : ∀ id a, s.voted (id, a) = true → ∃ vault, s.vault id = some vault ∧ a ∈ vault.approvers
  sound : ∀ id vault, s.vault id = some vault →
    vault.Sound contract fun a => s.voted (id, a)
  paid : ∀ id, (es.filter (concerns id)).flatMap payouts = dues contract (s.vault id)
  accounts : ∀ token, ChainVerse.Sound fun id => held contract token (s.vault id)
  balance : ∀ token, s.tokens.balance token contract =
    holdings (fun id => held contract token (s.vault id)) + (es.map (donation token)).sum

section Writes

theorem custody_empty {tokens : Tokens} (hzero : ∀ token, tokens.balance token contract = 0) :
    Custody contract crypto (State.empty tokens) [] where
  issued := issued_empty.mono fun _ h => h rfl
  listed id a h := by cases h
  sound id vault h := by cases h
  paid id := rfl
  accounts token := sound_zero
  balance token := by
    show tokens.balance token contract = holdings (fun _ => 0) + 0
    rw [hzero, holdings_zero, add_zero]

theorem hashed_snoc (e : Step contract) :
    hashed crypto (es ++ [e]) = hashed crypto es ++ (preimage crypto e).toList := filterMap_snoc e

theorem paid_snoc (e : Step contract) :
    ((es ++ [e]).filter (concerns id)).flatMap payouts =
      (es.filter (concerns id)).flatMap payouts ++ if concerns id e then payouts e else [] := by
  rw [List.filter_append, List.flatMap_append]
  cases he : concerns id e with
  | true => simp [he]
  | false => simp [he]

theorem donations_snoc (token : Address) (e : Step contract) :
    ((es ++ [e]).map (donation token)).sum = (es.map (donation token)).sum + donation token e := by
  rw [List.map_append, List.sum_append, List.map_singleton, List.sum_singleton]

theorem held_update (contract token : Address) (s : State) (id : Bytes32) (vault : Vault) :
    (fun x => held contract token (Function.update s.vault id (some vault) x)) =
      Function.update (fun x => held contract token (s.vault x)) id
        (held contract token (some vault)) :=
  Function.comp_update (held contract token) s.vault id (some vault)

theorem held_nonneg {token : Address} {vault : Vault} (h : 0 < vault.amount) :
    0 ≤ held contract token (some vault) := by
  rw [held]
  split_ifs
  · exact h.le
  · exact le_rfl

/-- A row written by a call, and what it does to the money. -/
theorem Custody.accounts_write (hc : Custody contract crypto s es) {vault : Vault}
    (hpositive : 0 < vault.amount) (hvault : s'.vault = Function.update s.vault id (some vault))
    (hdonation : ∀ token, donation token e = 0)
    (hbalance : ∀ token, s'.tokens.balance token contract = s.tokens.balance token contract -
      held contract token (s.vault id) + held contract token (some vault)) (token : Address) :
    (ChainVerse.Sound fun x => held contract token (s'.vault x)) ∧
      s'.tokens.balance token contract =
        holdings (fun x => held contract token (s'.vault x)) +
          ((es ++ [e]).map (donation token)).sum := by
  rw [hvault, held_update, holdings_update (hc.accounts token), donations_snoc, hdonation,
    hbalance, hc.balance token]
  refine ⟨(hc.accounts token).update id (held_nonneg hpositive), ?_⟩
  omega

/-- A call about one stored vault. -/
theorem Custody.settle (hc : Custody contract crypto s es) {vault settled : Vault}
    (hfound : s.vault id = some vault)
    (hvault : s'.vault = Function.update s.vault id (some settled))
    (hcount : s'.vaultCount = s.vaultCount)
    (hlisted : ∀ a, s'.voted (id, a) = true → a ∈ settled.approvers)
    (hothers : ∀ x a, x ≠ id → s'.voted (x, a) = s.voted (x, a))
    (hsound : settled.Sound contract fun a => s'.voted (id, a))
    (hconcerns : ∀ x, concerns x e = decide (id = x))
    (hpaid : dues contract (some vault) ++ payouts e = dues contract (some settled))
    (hdonation : ∀ token, donation token e = 0) (hpreimage : preimage crypto e = none)
    (hbalance : ∀ token, s'.tokens.balance token contract = s.tokens.balance token contract -
      held contract token (s.vault id) + held contract token (some settled)) :
    Custody contract crypto s' (es ++ [e]) := by
  have haccounts := hc.accounts_write hsound.positive hvault hdonation hbalance
  refine ⟨?_, ?_, ?_, ?_, fun token => (haccounts token).1, fun token => (haccounts token).2⟩
  · rw [hashed_snoc, hpreimage, Option.toList_none, List.append_nil, hcount, hvault]
    exact hc.issued.rewrite hfound
  · intro x a hvoted
    rw [hvault]
    by_cases hx : x = id
    · rw [hx] at hvoted ⊢
      exact ⟨settled, Function.update_self _ _ _, hlisted a hvoted⟩
    · rw [hothers x a hx] at hvoted
      rw [Function.update_of_ne hx]
      exact hc.listed x a hvoted
  · intro x row hrow
    rw [hvault] at hrow
    rcases update_row_cases hrow with ⟨rfl, rfl⟩ | ⟨hx, hold⟩
    · exact hsound
    · have hvotes : (fun a => s'.voted (x, a)) = fun a => s.voted (x, a) :=
        funext fun a => hothers x a hx
      rw [hvotes]
      exact hc.sound x row hold
  · intro x
    rw [paid_snoc, hc.paid, hconcerns, hvault]
    by_cases hx : x = id
    · rw [hx, Function.update_self, hfound, if_pos (decide_eq_true rfl)]
      exact hpaid
    · have hother : ¬ decide (id = x) = true := fun h => hx (of_decide_eq_true h).symm
      rw [Function.update_of_ne hx, if_neg hother, List.append_nil]

/-- A call about one stored vault that moves no money. -/
theorem Custody.poll (hc : Custody contract crypto s es) {vault polled : Vault}
    (hfound : s.vault id = some vault)
    (hvault : s'.vault = Function.update s.vault id (some polled))
    (hcount : s'.vaultCount = s.vaultCount)
    (hlisted : ∀ a, s'.voted (id, a) = true → a ∈ polled.approvers)
    (hothers : ∀ x a, x ≠ id → s'.voted (x, a) = s.voted (x, a))
    (hsound : polled.Sound contract fun a => s'.voted (id, a))
    (hconcerns : ∀ x, concerns x e = decide (id = x)) (htokens : s'.tokens = s.tokens)
    (hpayouts : payouts e = []) (hdues : dues contract (some polled) = dues contract (some vault))
    (hheld : ∀ token, held contract token (some polled) = held contract token (some vault))
    (hdonation : ∀ token, donation token e = 0) (hpreimage : preimage crypto e = none) :
    Custody contract crypto s' (es ++ [e]) := by
  refine hc.settle hfound hvault hcount hlisted hothers hsound hconcerns ?_ hdonation hpreimage ?_
  · rw [hpayouts, hdues, List.append_nil]
  · intro token
    rw [htokens, hfound, hheld]
    exact (sub_add_cancel _ _).symm

/-- A call about no stored vault that leaves the vaults. -/
theorem Custody.leave (hc : Custody contract crypto s es) (hvault : s'.vault = s.vault)
    (hcount : s'.vaultCount = s.vaultCount) (hvoted : s'.voted = s.voted)
    (hconcerns : ∀ x, concerns x e = false) (hpreimage : preimage crypto e = none)
    (hbalance : ∀ token, s'.tokens.balance token contract =
      s.tokens.balance token contract + donation token e) :
    Custody contract crypto s' (es ++ [e]) := by
  refine ⟨?_, ?_, ?_, ?_, ?_, ?_⟩
  · rw [hashed_snoc, hpreimage, Option.toList_none, List.append_nil, hcount, hvault]
    exact hc.issued
  · rw [hvault, hvoted]
    exact hc.listed
  · rw [hvault, hvoted]
    exact hc.sound
  · intro x
    rw [paid_snoc, hc.paid, hconcerns, hvault, if_neg Bool.false_ne_true, List.append_nil]
  · rw [hvault]
    exact hc.accounts
  · intro token
    rw [hbalance, hc.balance, hvault, donations_snoc, add_assoc]

/-- A new vault takes an unused id. -/
theorem Custody.open (hc : Custody contract crypto s es) {vault : Vault} {timestamp : Nat}
    (hfree : CollisionFree crypto.sha256 (hashed crypto (es ++ [e])))
    (hfits : s.vaultCount + 1 < 2^64) (hopened : vault.Opened contract)
    (hid : id = crypto.sha256 (idInput crypto (s.vaultCount + 1) timestamp vault.depositor))
    (hvault : s'.vault = Function.update s.vault id (some vault))
    (hcount : s'.vaultCount = s.vaultCount + 1) (hvoted : s'.voted = s.voted)
    (hconcerns : ∀ x, concerns x e = false) (hdonation : ∀ token, donation token e = 0)
    (hpreimage : preimage crypto e =
      some (idInput crypto (s.vaultCount + 1) timestamp vault.depositor))
    (hbalance : ∀ token, s'.tokens.balance token contract =
      s.tokens.balance token contract + held contract token (some vault)) :
    Custody contract crypto s' (es ++ [e]) := by
  have hstart : idInput crypto (s.vaultCount + 1) timestamp vault.depositor =
      beBytes 8 (s.vaultCount + 1) ++ (beBytes 8 timestamp ++ crypto.addressXdr vault.depositor) := by
    rw [idInput, List.append_assoc]
  rw [hashed_snoc, hpreimage] at hfree
  have hvacant : s.vault id = none := by
    rw [hid]
    exact not_not.mp (hc.issued.fresh hstart hfits hfree)
  have hnobody : ∀ a, s.voted (id, a) = false := by
    intro a
    by_contra hstanding
    obtain ⟨row, hrow, _⟩ := hc.listed id a (Bool.of_not_eq_false hstanding)
    rw [hvacant] at hrow
    cases hrow
  have hbalance' : ∀ token, s'.tokens.balance token contract =
      s.tokens.balance token contract - held contract token (s.vault id) +
        held contract token (some vault) := by
    intro token
    have hnone : held contract token none = 0 := rfl
    rw [hvacant, hbalance, hnone, sub_zero]
  have haccounts := hc.accounts_write hopened.positive hvault hdonation hbalance'
  refine ⟨?_, ?_, ?_, ?_, fun token => (haccounts token).1, fun token => (haccounts token).2⟩
  · rw [hashed_snoc, hpreimage, hcount, hvault]
    exact hc.issued.insert hstart hfits hid
  · intro x a hstanding
    rw [hvoted] at hstanding
    obtain ⟨row, hrow, hlisted⟩ := hc.listed x a hstanding
    exact ⟨row, hvault ▸ update_keeps_row hvacant hrow, hlisted⟩
  · rw [hvoted]
    refine forall_update_row hc.sound hvault ⟨hopened.nodup, hopened.positive, hopened.outside,
      ?_, ?_, ?_⟩
    · rw [hopened.unapproved]
      symm
      rw [List.countP_eq_zero]
      intro a _
      rw [hnobody a]
      exact Bool.false_ne_true
    · intro _
      rw [hopened.unapproved]
      exact hopened.threshold
    · intro hreleased
      rw [hopened.pending] at hreleased
      cases hreleased
  · intro x
    rw [paid_snoc, hc.paid, hconcerns, hvault, if_neg Bool.false_ne_true, List.append_nil]
    by_cases hx : x = id
    · rw [hx, Function.update_self, hvacant, dues, dues, hopened.pending]
    · rw [Function.update_of_ne hx]

end Writes

end ChainVerse.EscrowVault
