import ChainVerse.Token.Supply

namespace ChainVerse.TokenContract

variable {contract : Address} {env : Env contract} {s s' : State} {call : Call}

/-- Who transfers how much to whom. -/
def Call.moves : Call → Option (Address × Address × Int)
  | .transfer sender receiver amount => some (sender, receiver, amount)
  | .transferFrom _ sender receiver amount => some (sender, receiver, amount)
  | _ => none

/-- What a transfer has been checked for. -/
structure Payable (s : State) (sender receiver : Address) (amount : Int) : Prop where
  positive : 0 < amount
  capped : amount ≤ maxSupply
  parties : sender ≠ receiver
  covered : amount ≤ s.balance sender

/-- The parts of the state that tell of balances and allowances stay. -/
structure SameAccounts (s s' : State) : Prop where
  initialized : s'.initialized = s.initialized
  totalSupply : s'.totalSupply = s.totalSupply
  balance : s'.balance = s.balance
  instanceBalance : s'.instanceBalance = s.instanceBalance
  allowance : s'.allowance = s.allowance
  rate : ∀ config, s'.royalty = some config → s.royalty = some config ∨ config.bps ≤ 10000

/-- The calls that touch neither balances nor allowances. -/
def Call.isConfiguration : Call → Bool
  | .pause _ => true
  | .unpause _ => true
  | .proposeAdmin _ _ => true
  | .acceptAdmin _ => true
  | .setRoyalty _ _ _ => true
  | _ => false

/-- Everything that an accepted call can have done to balances and allowances. -/
inductive Effect (env : Env contract) (s : State) : Call → State → Prop where
  | configured {call : Call} {s' : State} (kind : call.isConfiguration = true)
      (same : SameAccounts s s') : Effect env s call s'
  | initialized {admin : Address} {supply : Int} (fresh : s.initialized = false)
      (positive : 0 < supply) (capped : supply ≤ maxSupply) :
      Effect env s (.initializeContract admin supply)
        { s with
          admin := some admin
          totalSupply := some supply
          balance := Function.update s.balance admin supply
          paused := false
          initialized := true }
  | migrated {admin : Address} {holders : List Address} :
      Effect env s (.migrateBalances admin holders) (holders.foldl migrateBalance s)
  | approved {owner spender : Address} {amount : Int} {expiresAt : Option Nat} (positive : 0 < amount)
      (capped : amount ≤ maxSupply) :
      Effect env s (.approve owner spender amount expiresAt)
        { s with
          allowance := Function.update s.allowance (owner, spender) (some ⟨amount, expiresAt⟩) }
  | revoked {owner spender : Address} : Effect env s (.revokeAllowance owner spender)
        { s with allowance := Function.update s.allowance (owner, spender) none }
  | transferred {sender receiver : Address} {amount : Int}
      (payable : Payable s sender receiver amount) :
      Effect env s (.transfer sender receiver amount) (s.moved sender receiver amount)
  | spent {spender sender receiver : Address} {amount : Int} {allow : Allowance} {rest : Option Allowance}
      (payable : Payable s sender receiver amount) (stored : s.allowance (sender, spender) = some allow)
      (live : allow.expired env.timestamp = false) (enough : amount ≤ allow.amount)
      (left : rest = if allow.amount - amount = 0 then none
        else some { allow with amount := allow.amount - amount }) :
      Effect env s (.transferFrom spender sender receiver amount)
        { s.moved sender receiver amount with
          allowance := Function.update s.allowance (sender, spender) rest }

section Inversion

theorem Minted.applyTransfer_eq_ok (hs : Minted s) {sender receiver : Address} {amount : Int}
    (h : TokenContract.applyTransfer s sender receiver amount = .ok s') :
    Payable s sender receiver amount ∧ s' = s.moved sender receiver amount := by
  rw [hs.applyTransfer] at h
  simp only [bind_eq_ok, refuseIf_eq_ok, not_le, not_lt, exists_unit, pure_eq_ok] at h
  obtain ⟨hpositive, hcapped, hparties, hcovered, rfl⟩ := h
  exact ⟨⟨hpositive, hcapped, hparties, hcovered⟩, rfl⟩

theorem sameAccounts_rfl (h : s'.initialized = s.initialized ∧ s'.totalSupply = s.totalSupply ∧
    s'.balance = s.balance ∧ s'.instanceBalance = s.instanceBalance ∧ s'.allowance = s.allowance ∧
    s'.royalty = s.royalty) : SameAccounts s s' := by
  obtain ⟨hinitialized, hsupply, hbalance, hinstance, hallowance, hroyalty⟩ := h
  refine ⟨hinitialized, hsupply, hbalance, hinstance, hallowance, ?_⟩
  intro config hconfig
  rw [hroyalty] at hconfig
  exact .inl hconfig

theorem transferFrom_effect (hs : Minted s) {spender sender receiver : Address} {amount : Int}
    (h : transferFrom env s spender sender receiver amount = .ok s') :
    Effect env s (.transferFrom spender sender receiver amount) s' := by
  simp only [transferFrom, bind_eq_ok, refuseIf_eq_ok, requireAuth_eq_ok, orRefuse_eq_ok, not_lt,
    Bool.not_eq_true, exists_unit, fitsI128_eq_some, pure_eq_ok] at h
  obtain ⟨_, _, allow, hstored, hlive, henough, middle, hmiddle, left, ⟨_, rfl⟩, rfl⟩ := h
  obtain ⟨hpayable, rfl⟩ := hs.applyTransfer_eq_ok hmiddle
  exact .spent hpayable hstored hlive henough rfl

/-- What an accepted entry point has done. -/
theorem execute_effect (hs : Minted s) (h : execute env s call = .ok s') : Effect env s call s' := by
  cases call with
  | initializeContract admin supply =>
    simp only [execute, initializeContract, setBalance, bind_eq_ok, refuseIf_eq_ok, not_le, not_lt,
      Bool.not_eq_true, exists_unit, pure_eq_ok] at h
    obtain ⟨hfresh, hpositive, hcapped, _, rfl⟩ := h
    exact .initialized hfresh hpositive hcapped
  | transfer sender receiver amount =>
    simp only [execute, transfer, bind_eq_ok] at h
    obtain ⟨_, _, _, _, hmoved⟩ := h
    obtain ⟨hpayable, rfl⟩ := hs.applyTransfer_eq_ok hmoved
    exact .transferred hpayable
  | pause admin =>
    simp only [execute, pause, bind_eq_ok, pure_eq_ok] at h
    obtain ⟨_, _, rfl⟩ := h
    exact .configured rfl (sameAccounts_rfl ⟨rfl, rfl, rfl, rfl, rfl, rfl⟩)
  | unpause admin =>
    simp only [execute, unpause, bind_eq_ok, pure_eq_ok] at h
    obtain ⟨_, _, rfl⟩ := h
    exact .configured rfl (sameAccounts_rfl ⟨rfl, rfl, rfl, rfl, rfl, rfl⟩)
  | proposeAdmin currentAdmin newAdmin =>
    simp only [execute, proposeAdmin, bind_eq_ok, pure_eq_ok] at h
    obtain ⟨_, _, rfl⟩ := h
    exact .configured rfl (sameAccounts_rfl ⟨rfl, rfl, rfl, rfl, rfl, rfl⟩)
  | acceptAdmin newAdmin =>
    simp only [execute, acceptAdmin, bind_eq_ok, pure_eq_ok] at h
    obtain ⟨_, _, _, _, _, _, rfl⟩ := h
    exact .configured rfl (sameAccounts_rfl ⟨rfl, rfl, rfl, rfl, rfl, rfl⟩)
  | migrateBalances admin holders =>
    simp only [execute, migrateBalances, bind_eq_ok, pure_eq_ok] at h
    obtain ⟨_, _, rfl⟩ := h
    exact .migrated
  | setRoyalty admin recipient bps =>
    simp only [execute, setRoyalty, bind_eq_ok, refuseIf_eq_ok, not_lt, pure_eq_ok, exists_unit] at h
    obtain ⟨_, _, _, _, hrate, rfl⟩ := h
    refine .configured rfl ⟨rfl, rfl, rfl, rfl, rfl, ?_⟩
    intro config hconfig
    cases hconfig
    exact .inr hrate
  | approve owner spender amount expiresAt =>
    simp only [execute, approve, bind_eq_ok, refuseIf_eq_ok, not_le, not_lt, exists_unit, pure_eq_ok] at h
    obtain ⟨hpositive, hcapped, _, rfl⟩ := h
    exact .approved hpositive hcapped
  | revokeAllowance owner spender =>
    simp only [execute, revokeAllowance, bind_eq_ok, pure_eq_ok] at h
    obtain ⟨_, _, rfl⟩ := h
    exact .revoked
  | transferFrom spender sender receiver amount => exact transferFrom_effect hs h

end Inversion

section Invariants

theorem Minted.migrated (hs : Minted s) (holders : List Address) :
    holders.foldl migrateBalance s = s := by
  induction holders with
  | nil => rfl
  | cons holder holders ih =>
    have hnone : migrateBalance s holder = s := by
      rw [migrateBalance, hs.unmigrated]
    rw [List.foldl_cons, hnone, ih]

/-- Where the roles coincide their changes add up. -/
theorem moved_balance (s : State) (sender receiver : Address) (amount : Int) (holder : Address) :
    (s.moved sender receiver amount).balance holder = s.balance holder -
      (if sender = holder then amount else 0) +
      (if receiver = holder then amount - royaltyShare s amount else 0) +
      (if (getRoyalty s).map (·.recipient) = some holder then royaltyShare s amount else 0) := by
  change (credits s sender receiver amount).foldl credit s.balance holder = _
  rw [foldl_credit_apply, credits]
  cases hroyalty : getRoyalty s with
  | none =>
    simp only [Option.map_none, Option.toList_none, List.map_cons, List.map_nil, List.sum_cons,
      List.sum_nil, reduceCtorEq, if_false]
    split_ifs <;> omega
  | some config =>
    simp only [Option.map_some, Option.toList_some, List.map_cons, List.map_nil, List.sum_cons,
      List.sum_nil, Option.some.injEq]
    split_ifs <;> omega

theorem Minted.moved_sound (hs : Minted s) {sender receiver : Address} {amount : Int}
    (h : Payable s sender receiver amount) : Sound (s.moved sender receiver amount).balance := by
  constructor
  · exact (holdings_foldl_credit hs.sound.finite _).1
  · intro holder
    have hbefore := hs.sound.nonneg holder
    obtain ⟨hshare, hle⟩ := hs.share_bounds h.positive
    have hcovered := h.covered
    rw [moved_balance]
    split_ifs with hsender <;> first | omega | (rw [hsender] at hcovered; omega)

/-- What the sender gives is what the others get. -/
theorem Minted.moved_holdings (hs : Minted s) (sender receiver : Address) (amount : Int) :
    holdings (s.moved sender receiver amount).balance = holdings s.balance := by
  have htotal := (holdings_foldl_credit hs.sound.finite (credits s sender receiver amount)).2
  have hzero : ((credits s sender receiver amount).map Prod.snd).sum = 0 := by
    unfold credits royaltyShare
    cases getRoyalty s with
    | none => simp
    | some config => simp
  rw [hzero, Int.add_zero] at htotal
  exact htotal

theorem Minted.moved (hs : Minted s) {sender receiver : Address} {amount : Int}
    (h : Payable s sender receiver amount) : Minted (s.moved sender receiver amount) where
  sound := hs.moved_sound h
  supply := (hs.moved_holdings sender receiver amount).trans hs.supply
  capped := hs.capped
  unmigrated := hs.unmigrated
  rate := hs.rate
  allowed := hs.allowed
  fresh hnew := by
    have hcovered := h.covered
    rw [hs.fresh hnew] at hcovered
    exact absurd hcovered (not_le.mpr h.positive)

theorem Minted.of_same (hs : Minted s) (h : SameAccounts s s') : Minted s' where
  sound := by
    rw [h.balance]
    exact hs.sound
  supply := by
    rw [h.balance, h.totalSupply]
    exact hs.supply
  capped := by
    rw [h.totalSupply]
    exact hs.capped
  unmigrated holder := by
    rw [h.instanceBalance]
    exact hs.unmigrated holder
  rate config hconfig := by
    rcases h.rate config hconfig with hold | hnew
    · exact hs.rate config hold
    · exact hnew
  allowed := by
    rw [h.allowance]
    exact hs.allowed
  fresh hnew := by
    rw [h.initialized] at hnew
    rw [h.balance]
    exact hs.fresh hnew

theorem Minted.initialized (hs : Minted s) (hfresh : s.initialized = false) {admin : Address}
    {supply : Int} (hpositive : 0 < supply) (hcapped : supply ≤ maxSupply) :
    Minted { s with
      admin := some admin
      totalSupply := some supply
      balance := Function.update s.balance admin supply
      paused := false
      initialized := true } where
  sound := hs.sound.update admin hpositive.le
  supply := by
    have htotal := holdings_update hs.sound admin supply
    have hnothing : s.balance admin = 0 := by rw [hs.fresh hfresh]
    have hbefore : holdings s.balance = 0 := by rw [hs.fresh hfresh, holdings_zero]
    change holdings (Function.update s.balance admin supply) = supply
    omega
  capped := hcapped
  unmigrated := hs.unmigrated
  rate := hs.rate
  allowed := hs.allowed
  fresh hnew := by cases hnew

theorem Minted.of_allowance (hs : Minted s) (pair : Address × Address) {stored : Option Allowance}
    (hstored : ∀ allow, stored = some allow → 0 < allow.amount ∧ allow.amount ≤ maxSupply) :
    Minted { s with allowance := Function.update s.allowance pair stored } := by
  refine ⟨hs.sound, hs.supply, hs.capped, hs.unmigrated, hs.rate, ?_, hs.fresh⟩
  intro other allow hallow
  change Function.update s.allowance pair stored other = some allow at hallow
  rw [Function.update_apply] at hallow
  split_ifs at hallow with hpair
  · exact hstored allow hallow
  · exact hs.allowed other allow hallow

theorem Effect.minted (h : Effect env s call s') (hs : Minted s) : Minted s' := by
  cases h with
  | configured _ same => exact hs.of_same same
  | initialized fresh positive capped => exact hs.initialized fresh positive capped
  | migrated =>
    rw [hs.migrated]
    exact hs
  | approved positive capped =>
    apply hs.of_allowance
    intro allow hallow
    cases hallow
    exact ⟨positive, capped⟩
  | revoked =>
    apply hs.of_allowance
    intro allow hallow
    cases hallow
  | transferred payable => exact hs.moved payable
  | spent payable stored live enough left =>
    apply (hs.moved payable).of_allowance
    intro allow hallow
    have hbound := (hs.allowed _ _ stored).2
    have hpositive := payable.positive
    rw [left] at hallow
    split_ifs at hallow
    cases hallow
    dsimp only
    omega

variable {i : Input contract} {u : Unit}

theorem step_effect (hs : Minted s) (h : (machine contract).step s i = .ok (u, s')) :
    Effect i.env s i.call s' := by
  simp only [machine, map_eq_ok, Prod.mk.injEq] at h
  obtain ⟨_, hexecuted, _, rfl⟩ := h
  exact execute_effect hs hexecuted

theorem step_minted (hs : Minted s) (h : (machine contract).step s i = .ok (u, s')) : Minted s' :=
  (step_effect hs h).minted hs

theorem run_minted (is : List (Input contract)) : Minted ((machine contract).run State.empty is) :=
  Machine.run_invariant minted_empty (fun _ _ _ _ hs hstep => step_minted hs hstep) is

/-- A transfer is never turned down by the arithmetic. -/
theorem Minted.no_overflow (hs : Minted s) {move : Address × Address × Int}
    (hmoves : call.moves = some move) : execute env s call ≠ .error (.err .arithmeticOverflow) ∧
      execute env s call ≠ .error .overflow := by
  cases call with
  | transfer sender receiver amount =>
    simp [execute, transfer, hs.applyTransfer]
  | transferFrom spender sender receiver amount =>
    refine ⟨by simp [execute, transferFrom, hs.applyTransfer], ?_⟩
    intro herror
    simp [execute, transferFrom, hs.applyTransfer] at herror
    obtain ⟨_, _, allow, hstored, _, henough, hpositive, _, _, _, hnone⟩ := herror
    -- What is left of an allowance of at most the supply is an amount that fits.
    have hbound := (hs.allowed _ _ hstored).2
    have hmax : maxSupply < 2^127 := by decide
    have hfits : fitsI128 (allow.amount - amount) = some (allow.amount - amount) := by
      rw [fitsI128_eq_some]
      omega
    rw [hfits] at hnone
    cases hnone
  | _ => cases hmoves

end Invariants

end ChainVerse.TokenContract
