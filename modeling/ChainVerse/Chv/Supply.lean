import ChainVerse.Chv.Contract
import ChainVerse.Framework.Accounts

namespace ChainVerse.CHVToken

variable {contract : Address} {env : Env contract} {s s' : State} {amount : Int}

/-- The books of a token: who holds how much, how much was ever minted and how much is said to be
around. -/
@[ext] structure Books where
  balance : Address → Int
  totalMinted : Int
  circulatingSupply : Int

/-- What can happen to the books of a token. -/
inductive Books.Moves (b : Books) : Books → Prop where
  | aside : Moves b b
  | mint {recipient : Address} {amount : Int} (positive : 0 < amount)
      (capped : b.totalMinted + amount ≤ maxSupply) :
      Moves b {
        balance := Function.update b.balance recipient (b.balance recipient + amount)
        totalMinted := b.totalMinted + amount
        circulatingSupply := b.circulatingSupply + amount }
  | transfer {sender recipient : Address} {amount : Int} (positive : 0 < amount)
      (distinct : sender ≠ recipient) (covered : amount ≤ b.balance sender) :
      Moves b { b with
        balance := Function.update
          (Function.update b.balance sender (b.balance sender - amount)) recipient
          (b.balance recipient + amount) }
  | burn {holder : Address} {amount : Int} (positive : 0 < amount)
      (covered : amount ≤ b.balance holder) :
      Moves b { b with
        balance := Function.update b.balance holder (b.balance holder - amount)
        circulatingSupply := b.circulatingSupply - amount }

section Books

variable {b b' : Books} {gap : Int}

/-- Nobody holds less than nothing, at most the maximum was minted, and what is around exceeds what the
holders have by `gap`. -/
structure Books.Sound (b : Books) (gap : Int) : Prop where
  accounts : ChainVerse.Sound b.balance
  capped : b.totalMinted ≤ maxSupply
  supply : b.circulatingSupply = holdings b.balance + gap

theorem Books.Moves.sound (h : b.Moves b') (hs : b.Sound gap) : b'.Sound gap := by
  have haccounts := hs.accounts
  have hsupply := hs.supply
  cases h with
  | aside => exact hs
  | mint hpositive hcapped =>
    refine ⟨haccounts.update _ ?_, hcapped, ?_⟩
    · exact Int.add_nonneg (haccounts.nonneg _) hpositive.le
    · rw [holdings_update haccounts]
      show b.circulatingSupply + _ = _
      omega
  | @transfer sender recipient amount hpositive hdistinct hcovered =>
    have hsender : ChainVerse.Sound (Function.update b.balance sender (b.balance sender - amount)) :=
      haccounts.update sender (Int.sub_nonneg_of_le hcovered)
    refine ⟨hsender.update recipient ?_, hs.capped, ?_⟩
    · exact Int.add_nonneg (haccounts.nonneg recipient) hpositive.le
    · rw [holdings_update hsender, holdings_update haccounts,
        Function.update_of_ne hdistinct.symm]
      show b.circulatingSupply = _
      omega
  | burn hpositive hcovered =>
    refine ⟨haccounts.update _ (Int.sub_nonneg_of_le hcovered), hs.capped, ?_⟩
    rw [holdings_update haccounts]
    show b.circulatingSupply - _ = _
    omega

end Books

/-- What the queries of the contract say. -/
def State.books (s : State) : Books where
  balance := CHVToken.balance s
  totalMinted := CHVToken.totalMinted s
  circulatingSupply := CHVToken.circulatingSupply s

/-- The contract has been initialized, and needs no migration. -/
structure State.Ready (s : State) : Prop where
  initialized : s.initialized = true
  current : s.storageVersion = some currentStorageVersion

section Steps

@[simp] theorem trapping_eq_ok {x y : Int} :
    trapping x = .ok y ↔ (-2^127 ≤ x ∧ x < 2^127) ∧ x = y := by
  simp [trapping]

theorem balance_update (s : State) (account : Address) (amount : Int) :
    (fun a => (Function.update s.persistentBalance account (some amount) a).getD 0) =
      Function.update (balance s) account amount := by
  funext a
  by_cases ha : a = account
  · rw [ha, Function.update_self, Function.update_self]
    rfl
  · rw [Function.update_of_ne ha, Function.update_of_ne ha]
    rfl

theorem balance_setBalance (s : State) (account : Address) (amount : Int) :
    balance (setBalance s account amount) = Function.update (balance s) account amount :=
  balance_update s account amount

/-- What a transfer does once its sender is found to be allowed to make it. -/
theorem moveBalance_moves {sender recipient : Address} (hpositive : 0 < amount)
    (hdistinct : sender ≠ recipient) (h : moveBalance s sender recipient amount = .ok s') :
    s'.initialized = s.initialized ∧ s'.storageVersion = s.storageVersion ∧
      s.books.Moves s'.books := by
  simp only [moveBalance, bind_eq_ok, refuseIf_eq_ok, exists_unit, trapping_eq_ok, pure_eq_ok,
    not_lt] at h
  obtain ⟨hcovered, _, ⟨_, rfl⟩, _, ⟨_, rfl⟩, rfl⟩ := h
  have hmoves : s.books.Moves { s.books with
      balance := Function.update
        (Function.update (balance s) sender (balance s sender - amount)) recipient
        (balance s recipient + amount) } := .transfer hpositive hdistinct hcovered
  rw [← balance_setBalance, ← balance_setBalance] at hmoves
  exact ⟨rfl, rfl, hmoves⟩

theorem mint_moves {recipient : Address} (h : mint env s recipient amount = .ok s') :
    s'.initialized = s.initialized ∧ s'.storageVersion = s.storageVersion ∧
      s.books.Moves s'.books := by
  simp only [mint, bind_eq_ok, refuseIf_eq_ok, exists_unit, trapping_eq_ok, pure_eq_ok,
    not_lt, not_le] at h
  obtain ⟨hpositive, _, _, _, ⟨_, rfl⟩, hcapped, _, ⟨_, rfl⟩, _, ⟨_, rfl⟩, _, ⟨_, rfl⟩, rfl⟩ := h
  have hmoves : s.books.Moves {
      balance := Function.update (balance s) recipient (balance s recipient + amount)
      totalMinted := totalMinted s + amount
      circulatingSupply := circulatingSupply s + amount } := by
    apply Books.Moves.mint hpositive
    show totalMinted s + amount ≤ maxSupply
    omega
  rw [← balance_setBalance] at hmoves
  exact ⟨rfl, rfl, hmoves⟩

theorem burn_moves {holder : Address} (h : burn env s holder amount = .ok s') :
    s'.initialized = s.initialized ∧ s'.storageVersion = s.storageVersion ∧
      s.books.Moves s'.books := by
  simp only [burn, bind_eq_ok, refuseIf_eq_ok, exists_unit, trapping_eq_ok, pure_eq_ok,
    not_lt, not_le] at h
  obtain ⟨hpositive, _, hcovered, _, ⟨_, rfl⟩, _, ⟨_, rfl⟩, rfl⟩ := h
  have hmoves : s.books.Moves { s.books with
      balance := Function.update (balance s) holder (balance s holder - amount)
      circulatingSupply := circulatingSupply s - amount } := .burn hpositive hcovered
  rw [← balance_setBalance] at hmoves
  exact ⟨rfl, rfl, hmoves⟩

/-- The calls of a contract that is ready are moves of its books, and leave it ready. -/
theorem step_moves {i : Input contract} {u : Unit} (hready : s.Ready)
    (h : (machine contract).step s i = .ok (u, s')) : s'.Ready ∧ s.books.Moves s'.books := by
  obtain ⟨env, call⟩ := i
  obtain ⟨hinitialized, hcurrent⟩ := hready
  simp only [machine, map_eq_ok, Prod.mk.injEq, true_and, exists_eq_right] at h
  have hsame : ∀ {t : State}, (t.initialized = s.initialized ∧ t.storageVersion = s.storageVersion ∧
      s.books.Moves t.books) → t.Ready ∧ s.books.Moves t.books := by
    intro t ht
    obtain ⟨hkept, hversion, hmoves⟩ := ht
    exact ⟨⟨hkept.trans hinitialized, hversion.trans hcurrent⟩, hmoves⟩
  cases call with
  | initializeContract admin treasury =>
    simp [execute, initializeContract, hinitialized] at h
  | mint recipient amount => exact hsame (mint_moves h)
  | transfer sender recipient amount =>
    simp only [execute, transfer, bind_eq_ok, refuseIf_eq_ok, exists_unit, not_le] at h
    obtain ⟨hdistinct, hpositive, _, _, _, hmove⟩ := h
    exact hsame (moveBalance_moves hpositive hdistinct hmove)
  | transferFrom spender sender recipient amount =>
    simp only [execute, transferFrom, bind_eq_ok, refuseIf_eq_ok, exists_unit, not_le] at h
    obtain ⟨hdistinct, hpositive, _, _, _, _, _, _, _, _, _, hmove⟩ := h
    have hmoves := moveBalance_moves hpositive hdistinct hmove
    exact hsame hmoves
  | burn holder amount => exact hsame (burn_moves h)
  | migrate admin sourceVersion snapshot =>
    have hversion : storageVersion s = currentStorageVersion := by
      rw [storageVersion, hcurrent]
      rfl
    simp only [execute, migrate, hversion, if_true, bind_eq_ok, refuseIf_eq_ok, exists_unit,
      pure_eq_ok] at h
    obtain ⟨_, _, _, _, _, _, rfl⟩ := h
    exact hsame ⟨rfl, rfl, .aside⟩
  | approve =>
    simp only [execute, approve, bind_eq_ok, refuseIf_eq_ok, exists_unit, pure_eq_ok] at h
    obtain ⟨_, _, _, rfl⟩ := h
    exact hsame ⟨rfl, rfl, .aside⟩
  | revokeAllowance =>
    simp only [execute, revokeAllowance, bind_eq_ok, exists_unit, pure_eq_ok] at h
    obtain ⟨_, rfl⟩ := h
    exact hsame ⟨rfl, rfl, .aside⟩
  | freezeAccount =>
    simp only [execute, freezeAccount, setFrozen, bind_eq_ok, exists_unit, pure_eq_ok] at h
    obtain ⟨_, rfl⟩ := h
    exact hsame ⟨rfl, rfl, .aside⟩
  | unfreezeAccount =>
    simp only [execute, unfreezeAccount, setFrozen, bind_eq_ok, exists_unit, pure_eq_ok] at h
    obtain ⟨_, rfl⟩ := h
    exact hsame ⟨rfl, rfl, .aside⟩
  | proposeAdmin =>
    simp only [execute, proposeAdmin, bind_eq_ok, refuseIf_eq_ok, exists_unit, pure_eq_ok] at h
    obtain ⟨_, _, _, _, _, rfl⟩ := h
    exact hsame ⟨rfl, rfl, .aside⟩
  | acceptAdmin =>
    simp only [execute, acceptAdmin, bind_eq_ok, refuseIf_eq_ok, exists_unit, pure_eq_ok] at h
    obtain ⟨_, _, _, _, _, _, _, rfl⟩ := h
    exact hsame ⟨rfl, rfl, .aside⟩
  | cancelAdmin =>
    simp only [execute, cancelAdmin, bind_eq_ok, refuseIf_eq_ok, exists_unit, pure_eq_ok] at h
    obtain ⟨_, _, _, _, _, _, rfl⟩ := h
    exact hsame ⟨rfl, rfl, .aside⟩

/-- An accepted `initialize` finds no tokens under the key that balances are read from. -/
theorem initializeContract_sound {admin treasury : Address}
    (h : initializeContract env State.empty admin treasury = .ok s) :
    s.Ready ∧ s.books.Sound initialSupply := by
  simp only [initializeContract, bind_eq_ok, refuseIf_eq_ok, exists_unit, pure_eq_ok] at h
  obtain ⟨_, _, rfl⟩ := h
  have hcapped : initialSupply ≤ maxSupply := by decide
  refine ⟨⟨rfl, rfl⟩, sound_zero, hcapped, ?_⟩
  show initialSupply = holdings (fun _ => 0) + initialSupply
  rw [holdings_zero, zero_add]

end Steps

/-- In every state that calls reach from an accepted `initialize`, the balances do not add up to the
circulating supply: what `initialize` has put aside for the treasury is missing. Nobody's balance is
below zero, and no more than the maximum was minted. -/
theorem supply_exceeds_balances {s₀ : State} {admin treasury : Address}
    (h : initializeContract env State.empty admin treasury = .ok s₀) (is : List (Input contract)) :
    let s := (machine contract).run s₀ is
    circulatingSupply s ≠ holdings (balance s) ∧
      {account | balance s account ≠ 0}.Finite ∧
      circulatingSupply s = holdings (balance s) + initialSupply ∧
      (∀ account, 0 ≤ balance s account) ∧ totalMinted s ≤ maxSupply := by
  intro s
  have hstep : ∀ (t : State) i u t', t.Ready ∧ t.books.Sound initialSupply →
      (machine contract).step t i = .ok (u, t') → t'.Ready ∧ t'.books.Sound initialSupply := by
    intro t i u t' ht hstep
    obtain ⟨hready, hmoves⟩ := step_moves ht.1 hstep
    exact ⟨hready, hmoves.sound ht.2⟩
  have hsound : s.Ready ∧ s.books.Sound initialSupply :=
    @Machine.run_invariant _ _ _ _ (machine contract)
      (fun t => t.Ready ∧ t.books.Sound initialSupply) s₀ (initializeContract_sound h) hstep is
  have hsupply : circulatingSupply s = holdings (balance s) + initialSupply := hsound.2.supply
  have hinitial : 0 < initialSupply := by decide
  exact ⟨by omega, hsound.2.accounts.finite, hsupply, hsound.2.accounts.nonneg, hsound.2.capped⟩

section Samples

/-- The contract after its initialization. -/
def sampleInitialized : State where
  initialized := true
  admin := some ⟨1⟩
  pendingAdmin := none
  pendingAdminExpiry := none
  totalMinted := some initialSupply
  circulatingSupply := some initialSupply
  storageVersion := some currentStorageVersion
  instanceBalance := Function.update (fun _ => none) ⟨2⟩ (some initialSupply)
  persistentBalance := fun _ => none
  allowance := fun _ _ => none
  frozen := fun _ => none

/-- Five units are minted and two of them move on. -/
def sampleCalls : List (Input ⟨0⟩) :=
  [⟨.sample, .mint ⟨3⟩ 5⟩, ⟨.sample, .transfer ⟨3⟩ ⟨4⟩ 2⟩]

theorem supply_exceeds_balances_sample :
    let s := (machine ⟨0⟩).run sampleInitialized sampleCalls
    balance s ⟨3⟩ = 3 ∧ balance s ⟨4⟩ = 2 ∧ circulatingSupply s ≠ holdings (balance s) := by
  have hinitialized :
      initializeContract Env.sample State.empty ⟨1⟩ ⟨2⟩ = .ok sampleInitialized := rfl
  exact ⟨by decide, by decide, (supply_exceeds_balances hinitialized sampleCalls).1⟩

/-- Once the contract is initialized there is a circulating supply, and nobody holds any of it. -/
theorem initial_supply_unheld :
    initializeContract Env.sample State.empty ⟨1⟩ ⟨2⟩ = .ok sampleInitialized ∧
      circulatingSupply sampleInitialized = initialSupply ∧
      (∀ account, balance sampleInitialized account = 0) ∧
      circulatingSupply sampleInitialized ≠ holdings (balance sampleInitialized) := by
  refine ⟨rfl, rfl, fun _ => rfl, ?_⟩
  show initialSupply ≠ holdings fun _ => 0
  rw [holdings_zero]
  decide

end Samples

end ChainVerse.CHVToken
