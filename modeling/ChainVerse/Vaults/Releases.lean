import ChainVerse.Framework.Simulations
import ChainVerse.Vaults.Custody

namespace ChainVerse.EscrowVault

variable {contract : Address} {crypto : Crypto} {env : Env contract} {s s' : State} {id : Bytes32}
  {es : List (Step contract)}

section Steps

/-- The votes for a vault after one of them was given or taken back. -/
theorem votes_update (id : Bytes32) (caller : Address) (vote : Bool) :
    (fun a => Function.update s.voted (id, caller) vote (id, a)) =
      Function.update (fun a => s.voted (id, a)) caller vote :=
  update_line s.voted id caller vote

theorem votes_others (id : Bytes32) (caller : Address) (vote : Bool) (x : Bytes32) (a : Address)
    (hx : x ≠ id) : Function.update s.voted (id, caller) vote (x, a) = s.voted (x, a) :=
  update_other_line s.voted id caller vote hx a

/-- Whoever has a standing vote for a vault is one of its approvers. -/
theorem Custody.standing (hc : Custody contract crypto s es) {vault : Vault}
    (hfound : s.vault id = some vault) {a : Address} (hstanding : s.voted (id, a) = true) :
    a ∈ vault.approvers := by
  obtain ⟨row, hrow, hlisted⟩ := hc.listed id a hstanding
  rw [hfound, Option.some.injEq] at hrow
  exact hrow ▸ hlisted

/-- Whoever has a standing vote after a vote was given is an approver. -/
theorem Custody.listed_vote (hc : Custody contract crypto s es) {vault : Vault}
    (hfound : s.vault id = some vault) {caller : Address} (hcaller : caller ∈ vault.approvers)
    (vote : Bool) (a : Address)
    (h : Function.update s.voted (id, caller) vote (id, a) = true) : a ∈ vault.approvers := by
  by_cases ha : a = caller
  · rw [ha]
    exact hcaller
  · have hne : (id, a) ≠ (id, caller) := fun heq => ha (congrArg Prod.snd heq)
    rw [Function.update_of_ne hne] at h
    exact hc.standing hfound h

/-- One more approver of a vault gives a vote. -/
theorem Vault.Sound.counted_vote {vault : Vault} (h : vault.Sound contract fun a => s.voted (id, a))
    {caller : Address} (hcaller : caller ∈ vault.approvers) (hfresh : s.voted (id, caller) = false) :
    vault.approvals + 1 =
      vault.approvers.countP fun a => Function.update s.voted (id, caller) true (id, a) := by
  rw [votes_update, countP_update h.nodup hcaller hfresh, h.counted]

/-- An approver of a vault takes a vote back. -/
theorem Vault.Sound.counted_revoke {vault : Vault} (h : vault.Sound contract fun a => s.voted (id, a))
    {caller : Address} (hcaller : caller ∈ vault.approvers) (hstanding : s.voted (id, caller) = true) :
    vault.approvals - 1 =
      vault.approvers.countP fun a => Function.update s.voted (id, caller) false (id, a) := by
  have hfewer := @countP_downdate _ (fun a => s.voted (id, a)) _ _ _ h.nodup hcaller hstanding
  rw [votes_update, h.counted]
  omega

/-- A pending vault has paid nothing before its one transfer. -/
theorem dues_payout {vault : Vault} (hpending : vault.status = .pending) (tokens : Tokens) {t : Transfer}
    (hsender : t.sender = contract) :
    dues contract (some vault) ++ Tokens.newFrom contract tokens (tokens.move t) = [t] := by
  rw [Tokens.newFrom_move, if_pos hsender, dues, hpending]
  rfl

/-- A pending vault that pays out to `recipient`. -/
theorem balance_payout {vault settled : Vault} {recipient : Address} {token : Address}
    (hfound : s.vault id = some vault) (hpending : vault.status = .pending)
    (hsettled : held contract token (some settled) =
      if vault.token = token ∧ recipient = contract then vault.amount else 0) :
    (s.tokens.move ⟨vault.token, contract, recipient, vault.amount⟩).balance token contract =
      s.tokens.balance token contract - held contract token (s.vault id) +
        held contract token (some settled) := by
  rw [Tokens.move_balance, hsettled, hfound, held, hpending]
  by_cases htoken : vault.token = token
  · subst htoken
    by_cases hrecipient : recipient = contract
    · simp [hrecipient]
    · have hother : ¬ contract = recipient := fun heq => hrecipient heq.symm
      simp [hrecipient, hother]
  · have hother : ¬ token = vault.token := fun heq => htoken heq.symm
    simp [htoken, hother]

/-- Every accepted call keeps the custody. -/
theorem Effect.custody {i : Input contract} {o : Answer} (h : Effect crypto i.env s i.call o s')
    (hc : Custody contract crypto s es)
    (hfree : CollisionFree crypto.sha256 (hashed crypto (es ++ [⟨s, i, o, s'⟩]))) :
    Custody contract crypto s' (es ++ [⟨s, i, o, s'⟩]) := by
  obtain ⟨env, call⟩ := i
  cases h with
  | setAdmin =>
    exact hc.leave rfl rfl rfl (fun _ => rfl) rfl fun _ => (add_zero _).symm
  | @create recipient approvers vault hopened hfits =>
    refine hc.open hfree hfits hopened rfl rfl rfl rfl (fun _ => rfl) (fun _ => rfl) rfl ?_
    intro token
    show (s.tokens.move _).balance token contract = _
    rw [Tokens.move_balance, held, hopened.pending]
    have hdepositor : ¬ contract = vault.depositor := fun heq => hopened.outside heq.symm
    by_cases htoken : token = vault.token
    · simp [htoken, hdepositor]
    · have hother : ¬ vault.token = token := fun heq => htoken heq.symm
      simp [htoken, hother]
  | @vote id caller vault hfound hpending hlisted hfresh hshort =>
    have hsound := hc.sound id vault hfound
    refine hc.poll hfound rfl rfl (hc.listed_vote hfound hlisted true)
      (votes_others id caller true) ?_ (fun _ => rfl) rfl (Tokens.newFrom_self _ _) rfl
      (fun _ => rfl) (fun _ => rfl) rfl
    refine ⟨hsound.nodup, hsound.positive, hsound.outside, hsound.counted_vote hlisted hfresh,
      fun _ => hshort, ?_⟩
    intro hreleased
    rw [hpending] at hreleased
    cases hreleased
  | @release id caller vault hfound hpending hlisted hfresh hmet =>
    have hsound := hc.sound id vault hfound
    refine hc.settle hfound rfl rfl (hc.listed_vote hfound hlisted true)
      (votes_others id caller true) ?_ (fun _ => rfl) ?_ (fun _ => rfl) rfl ?_
    · refine ⟨hsound.nodup, hsound.positive, hsound.outside, hsound.counted_vote hlisted hfresh,
        ?_, fun _ => hmet⟩
      intro hstill
      cases hstill
    · exact dues_payout hpending s.tokens rfl
    · intro token
      apply balance_payout hfound hpending
      simp [held]
  | @revoke id caller vault hfound hpending hstanding =>
    have hsound := hc.sound id vault hfound
    have hcaller := hc.standing hfound hstanding
    have hshort := hsound.short hpending
    refine hc.poll hfound rfl rfl (hc.listed_vote hfound hcaller false)
      (votes_others id caller false) ?_ (fun _ => rfl) rfl (Tokens.newFrom_self _ _) rfl
      (fun _ => rfl) (fun _ => rfl) rfl
    refine ⟨hsound.nodup, hsound.positive, hsound.outside,
      hsound.counted_revoke hcaller hstanding, ?_, ?_⟩
    · intro _
      exact (Nat.sub_le _ 1).trans_lt hshort
    · intro hreleased
      rw [hpending] at hreleased
      cases hreleased
  | @cancel id vault hfound hpending =>
    have hsound := hc.sound id vault hfound
    refine hc.settle hfound rfl rfl ?_ (fun _ _ _ => rfl) ?_ (fun _ => rfl) ?_ (fun _ => rfl) rfl ?_
    · exact fun a hstanding => hc.standing hfound hstanding
    · refine ⟨hsound.nodup, hsound.positive, hsound.outside, hsound.counted, ?_, ?_⟩
      · intro hstill
        cases hstill
      · intro hreleased
        cases hreleased
    · exact dues_payout hpending s.tokens rfl
    · intro token
      apply balance_payout hfound hpending
      have hdepositor := hsound.outside
      simp [held, hdepositor]
  | @elsewhere t hsender =>
    refine hc.leave rfl rfl rfl (fun _ => rfl) rfl ?_
    intro token
    have hother : ¬ contract = t.sender := fun heq => hsender heq.symm
    show (s.tokens.move t).balance token contract = _
    rw [Tokens.move_balance, if_neg fun h => hother h.2, sub_zero]
    rfl

end Steps

/-- The custody holds in every run in which no two hashed ids collide. -/
theorem run_custody {tokens : Tokens} (hzero : ∀ token, tokens.balance token contract = 0)
    (is : List (Input contract))
    (hfree : CollisionFree crypto.sha256
      (hashed crypto ((machine contract crypto).journal (State.empty tokens) is))) :
    Custody contract crypto ((machine contract crypto).run (State.empty tokens) is)
      ((machine contract crypto).journal (State.empty tokens) is) := by
  have hrun := @Machine.run_journal_invariant _ _ _ _ (machine contract crypto)
    (fun s es => CollisionFree crypto.sha256 (hashed crypto es) → Custody contract crypto s es)
    (State.empty tokens) (fun _ => custody_empty hzero)
    (fun es s i o s' hs h hfree => (step_effect h).custody (hs hfree.filterMap_left) hfree) is
  exact hrun hfree

/-- Only calls about a stored vault pay anything out. -/
theorem Effect.payouts_concern {i : Input contract} {o : Answer}
    (h : Effect crypto i.env s i.call o s') (hpaid : payouts (⟨s, i, o, s'⟩ : Step contract) ≠ []) :
    ∃ id, concerns id (⟨s, i, o, s'⟩ : Step contract) = true := by
  obtain ⟨env, call⟩ := i
  cases h with
  | setAdmin => exact absurd (Tokens.newFrom_self _ _) hpaid
  | @create recipient approvers vault hopened =>
    have hnone := Tokens.newFrom_move contract s.tokens
      ⟨vault.token, vault.depositor, contract, vault.amount⟩
    rw [if_neg hopened.outside] at hnone
    exact absurd hnone hpaid
  | vote => exact ⟨_, decide_eq_true rfl⟩
  | release => exact ⟨_, decide_eq_true rfl⟩
  | revoke => exact ⟨_, decide_eq_true rfl⟩
  | cancel => exact ⟨_, decide_eq_true rfl⟩
  | @elsewhere t hsender =>
    have hnone := Tokens.newFrom_move contract s.tokens t
    rw [if_neg hsender] at hnone
    exact absurd hnone hpaid

/-- In every run, a vault counts the standing votes of its approvers and pays out once, to its recipient
when there are enough of them or to its depositor when it is cancelled. And as long as nobody else sends
anything, the contract holds what is in the vaults. -/
theorem run_vaults {tokens : Tokens} (hzero : ∀ token, tokens.balance token contract = 0)
    (is : List (Input contract))
    (hfree : CollisionFree crypto.sha256
      (hashed crypto ((machine contract crypto).journal (State.empty tokens) is))) :
    let m := machine contract crypto
    let s := m.run (State.empty tokens) is
    let es := m.journal (State.empty tokens) is
    (∀ id vault, s.vault id = some vault →
        vault.approvers.Nodup ∧
          vault.approvals = vault.approvers.countP (fun a => s.voted (id, a)) ∧
          (vault.status = .pending → vault.approvals < vault.threshold) ∧
          (vault.status = .released →
            vault.threshold ≤ vault.approvers.countP fun a => s.voted (id, a)) ∧
          (es.filter (concerns id)).flatMap payouts = dues contract (some vault)) ∧
      (∀ e ∈ es, payouts e ≠ [] → ∃ id, concerns id e = true) ∧
      ((∀ e ∈ es, ∀ token, donation token e = 0) → ∀ token,
        {id | held contract token (s.vault id) ≠ 0}.Finite ∧
          s.tokens.balance token contract = holdings fun id => held contract token (s.vault id)) := by
  intro m s es
  have hcustody : Custody contract crypto s es := run_custody hzero is hfree
  refine ⟨?_, ?_, ?_⟩
  · intro id vault hstored
    have hsound := hcustody.sound id vault hstored
    have hpaid := hcustody.paid id
    rw [hstored] at hpaid
    refine ⟨hsound.nodup, hsound.counted, hsound.short, ?_, hpaid⟩
    intro hreleased
    rw [← hsound.counted]
    exact hsound.met hreleased
  · intro e he hpaid
    exact (step_effect (Machine.journal_step he).1).payouts_concern hpaid
  · intro hdonations token
    have hnothing : (es.map (donation token)).sum = 0 := by
      apply List.sum_eq_zero
      intro x hx
      obtain ⟨e, he, rfl⟩ := List.mem_map.mp hx
      exact hdonations e he token
    refine ⟨(hcustody.accounts token).finite, ?_⟩
    rw [hcustody.balance token, hnothing, add_zero]

section Samples

/-- The SHA-256 digest of the preimage of the first vault of depositor 1 at time 10. -/
def sampleId : Bytes32 := 0xb337a58f5a727cd47b118b8e4545693be39f1f7de5d95b2c4ff45c86081b0251

def sampleCrypto : Crypto where
  sha256 p := if p = beBytes 8 1 ++ beBytes 8 10 ++ accountXdr ⟨1⟩ then sampleId else 0
  addressXdr := accountXdr

/-- Books in which everybody but the contract holds 100. -/
def sampleTokens : Tokens := ⟨fun _ holder => if holder = ⟨0⟩ then 0 else 100, []⟩

/-- A vault with two approvers, and the first of two votes. -/
def sampleVote (recipient : Address) : List (Input ⟨0⟩) :=
  [⟨.sample, .createVault ⟨1⟩ recipient ⟨9⟩ 50 [⟨3⟩, ⟨4⟩] 2⟩,
    ⟨.sampleLater, .approveVault sampleId ⟨3⟩⟩]

/-- The second vote. -/
def sampleRelease (recipient : Address) : List (Input ⟨0⟩) :=
  sampleVote recipient ++ [⟨.sampleLater, .approveVault sampleId ⟨4⟩⟩]

theorem run_vaults_sample :
    let s := (machine ⟨0⟩ sampleCrypto).run (State.empty sampleTokens) (sampleVote ⟨2⟩)
    s.tokens.balance ⟨9⟩ ⟨0⟩ = 50 ∧
      s.tokens.balance ⟨9⟩ ⟨0⟩ = holdings fun id => held ⟨0⟩ ⟨9⟩ (s.vault id) := by
  have hvaults := @run_vaults ⟨0⟩ sampleCrypto sampleTokens (fun _ => rfl) (sampleVote ⟨2⟩)
    (by decide +kernel)
  refine ⟨by decide +kernel, (hvaults.2.2 ?_ ⟨9⟩).2⟩
  intro e he token
  obtain ⟨_, _, hstart, _⟩ := Machine.journal_prefix he
  have hcall : e.input ∈ sampleVote ⟨2⟩ :=
    hstart.subset List.mem_concat_self
  simp only [sampleVote, List.mem_cons, List.not_mem_nil, or_false] at hcall
  rcases hcall with hcreate | hvote
  · simp [donation, hcreate]
  · simp [donation, hvote]

/-- A vault is released to the contract itself: nothing is pending, and the contract still holds the
amount. -/
theorem released_to_contract :
    let s := (machine ⟨0⟩ sampleCrypto).run (State.empty sampleTokens) (sampleRelease ⟨0⟩)
    (∀ id vault, s.vault id = some vault → vault.status ≠ .pending) ∧
      s.tokens.balance ⟨9⟩ ⟨0⟩ = 50 := by
  intro s
  refine ⟨?_, by decide +kernel⟩
  intro id vault hstored hpending
  have hcustody := @run_custody ⟨0⟩ sampleCrypto sampleTokens (fun _ => rfl) (sampleRelease ⟨0⟩)
    (by decide +kernel)
  have hhashed : ∀ p ∈ hashed sampleCrypto ((machine ⟨0⟩ sampleCrypto).journal
      (State.empty sampleTokens) (sampleRelease ⟨0⟩)), sampleCrypto.sha256 p = sampleId := by
    decide +kernel
  have hstatus : (s.vault sampleId).map Vault.status = some .released := by decide +kernel
  obtain ⟨p, hp, hid⟩ := hcustody.issued.issued id fun hnone => by
    rw [hstored] at hnone
    cases hnone
  rw [← hhashed p hp, hid, hstored, Option.map_some, hpending] at hstatus
  cases hstatus

end Samples

end ChainVerse.EscrowVault
