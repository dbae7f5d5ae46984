import ChainVerse.Token.Contract
import ChainVerse.Framework.Accounts

namespace ChainVerse.TokenContract

variable {contract : Address} {env : Env contract} {s s' : State} {call : Call}
  {sender receiver : Address} {amount : Int}

/-- The royalty on an amount, rounded down. -/
def royaltyShare (s : State) (amount : Int) : Int :=
  (getRoyalty s).elim 0 fun config => amount * config.bps / 10000

/-- What a transfer gives to whom; an account may come up more than once. -/
def credits (s : State) (sender receiver : Address) (amount : Int) : List (Address × Int) :=
  (sender, -amount) :: (receiver, amount - royaltyShare s amount) ::
    ((getRoyalty s).map fun config => (config.recipient, royaltyShare s amount)).toList

def State.moved (s : State) (sender receiver : Address) (amount : Int) : State :=
  { s with balance := (credits s sender receiver amount).foldl credit s.balance }

/-- All balances together are the supply, which keeps to its limit; the royalty and the allowances keep
to theirs. -/
structure Minted (s : State) : Prop where
  sound : Sound s.balance
  supply : holdings s.balance = s.totalSupply.getD 0
  capped : s.totalSupply.getD 0 ≤ maxSupply
  unmigrated : ∀ holder, s.instanceBalance holder = none
  rate : ∀ config, s.royalty = some config → config.bps ≤ 10000
  allowed : ∀ pair allow, s.allowance pair = some allow → 0 < allow.amount ∧ allow.amount ≤ maxSupply
  fresh : s.initialized = false → s.balance = fun _ => 0

theorem minted_empty : Minted State.empty where
  sound := sound_zero
  supply := holdings_zero
  capped := by decide
  unmigrated _ := rfl
  rate _ h := by cases h
  allowed _ _ h := by cases h
  fresh _ := rfl

section Royalties

theorem Minted.share_bounds (hs : Minted s) (hamount : 0 < amount) :
    0 ≤ royaltyShare s amount ∧ royaltyShare s amount ≤ amount := by
  unfold royaltyShare getRoyalty
  cases hroyalty : s.royalty with
  | none => exact ⟨le_rfl, hamount.le⟩
  | some config =>
    have hrate : (config.bps : Int) ≤ 10000 := by exact_mod_cast hs.rate config hroyalty
    have hproduct : amount * config.bps ≤ amount * 10000 :=
      Int.mul_le_mul_of_nonneg_left hrate hamount.le
    have hnonneg : 0 ≤ amount * (config.bps : Int) :=
      Int.mul_nonneg hamount.le (Int.natCast_nonneg config.bps)
    simp only [Option.elim_some]
    omega

theorem Minted.balance_le (hs : Minted s) (holder : Address) :
    0 ≤ s.balance holder ∧ s.balance holder ≤ maxSupply := by
  have hle := hs.sound.le_holdings holder
  rw [hs.supply] at hle
  exact ⟨hs.sound.nonneg holder, hle.trans hs.capped⟩

/-- The multiplication never traps. -/
theorem Minted.royaltyOn (hs : Minted s) (hamount : 0 < amount) (hcap : amount ≤ maxSupply) :
    royaltyOn s amount = .ok (royaltyShare s amount) := by
  unfold TokenContract.royaltyOn royaltyShare getRoyalty
  cases hroyalty : s.royalty with
  | none => rfl
  | some config =>
    have hrate : (config.bps : Int) ≤ 10000 := by exact_mod_cast hs.rate config hroyalty
    have hproduct : amount * config.bps ≤ amount * 10000 :=
      Int.mul_le_mul_of_nonneg_left hrate hamount.le
    have hnonneg : 0 ≤ amount * (config.bps : Int) :=
      Int.mul_nonneg hamount.le (Int.natCast_nonneg config.bps)
    have hfits : fitsI128 (amount * config.bps) = some (amount * config.bps) := by
      rw [fitsI128_eq_some]
      simp only [maxSupply] at hcap
      omega
    simp only [hfits, Option.elim_some]
    rfl

/-- The credit of a royalty to an account other than the receiver. -/
theorem payRoyalty_eq {config : RoyaltyConfig} {share : Int} (hroyalty : s.royalty = some config)
    (hshare : 0 ≤ share) (hne : config.recipient ≠ receiver)
    (hfits : s.balance config.recipient + share < 2^127) (hbalance : 0 ≤ s.balance config.recipient) :
    payRoyalty s receiver share =
      .ok { s with balance := credit s.balance (config.recipient, share) } := by
  have hconfig : getRoyalty s = some config := hroyalty
  unfold payRoyalty
  rw [hconfig]
  by_cases hpos : 0 < share
  · have hvalue : fitsI128 (s.balance config.recipient + share) =
        some (s.balance config.recipient + share) := by
      rw [fitsI128_eq_some]
      omega
    simp only [hpos, hne, ne_eq, not_false_eq_true, and_self, if_true, hvalue]
    rfl
  · have hzero : share = 0 := by omega
    simp only [hpos, false_and, if_false]
    rw [hzero, credit_zero]
    rfl

end Royalties

section Transfers

/-- The writes of the sender's and the receiver's balance. -/
theorem setBalance_twice (hne : sender ≠ receiver) (credited : Int) :
    setBalance (setBalance s sender (s.balance sender - amount)) receiver
        (s.balance receiver + credited) =
      { s with balance := credit (credit s.balance (sender, -amount)) (receiver, credited) } := by
  have hreceiver : credit s.balance (sender, -amount) receiver = s.balance receiver :=
    Function.update_of_ne hne.symm _ _
  have hsent : Function.update s.balance sender (s.balance sender - amount) =
      credit s.balance (sender, -amount) := by
    rw [credit, sub_eq_add_neg]
  simp only [setBalance, hsent]
  rw [credit.eq_1 (credit s.balance (sender, -amount)), hreceiver]

/-- The three writes of a transfer, whichever of the three accounts coincide. -/
theorem Minted.writes (hs : Minted s) (hamount : 0 < amount) (hne : sender ≠ receiver)
    (hcovered : amount ≤ s.balance sender) :
    payRoyalty (setBalance (setBalance s sender (s.balance sender - amount)) receiver
        (s.balance receiver + if (getRoyalty s).map (·.recipient) = some receiver then amount
          else amount - royaltyShare s amount)) receiver (royaltyShare s amount) =
      .ok (s.moved sender receiver amount) := by
  obtain ⟨hshare, hle⟩ := hs.share_bounds hamount
  rw [setBalance_twice hne]
  rcases Option.eq_none_or_eq_some s.royalty with hroyalty | ⟨config, hroyalty⟩
  · simp only [payRoyalty, State.moved, credits, royaltyShare, getRoyalty, hroyalty, Option.map_none,
      Option.elim_none, Option.toList_none, List.foldl_cons, List.foldl_nil, reduceCtorEq, if_false,
      Int.sub_zero]
    rfl
  · have hmoved : (s.moved sender receiver amount).balance =
        credit (credit (credit s.balance (sender, -amount)) (receiver, amount - royaltyShare s amount))
          (config.recipient, royaltyShare s amount) := by
      simp only [State.moved, credits, getRoyalty, hroyalty, Option.map_some, Option.toList_some,
        List.foldl_cons, List.foldl_nil]
    have hconfig : getRoyalty s = some config := hroyalty
    rw [hconfig, Option.map_some]
    by_cases hrecipient : config.recipient = receiver
    · have hall : amount - royaltyShare s amount + royaltyShare s amount = amount := by omega
      rw [hrecipient, credit_twice, hall] at hmoved
      simp only [hrecipient, if_true, payRoyalty, getRoyalty, hroyalty, ne_eq, not_true_eq_false,
        and_false, if_false]
      rw [← hroyalty, ← hmoved]
      rfl
    · let paid := credit (credit s.balance (sender, -amount)) (receiver, amount - royaltyShare s amount)
      have hmax : maxSupply + maxSupply < 2^127 := by decide
      have hbefore := hs.balance_le config.recipient
      have hpaid : 0 ≤ paid config.recipient ∧ paid config.recipient ≤ maxSupply := by
        have hother : paid config.recipient = credit s.balance (sender, -amount) config.recipient :=
          Function.update_of_ne hrecipient _ _
        rw [hother, credit, Function.update_apply]
        dsimp only
        split_ifs with hsender
        · rw [hsender] at hbefore
          omega
        · exact hbefore
      have hfits : paid config.recipient + royaltyShare s amount < 2^127 := by
        have hsender := hs.balance_le sender
        omega
      have hpayable := payRoyalty_eq (s := { s with balance := paid }) hroyalty hshare hrecipient
        hfits hpaid.1
      simp only [Option.some.injEq, hrecipient, if_false]
      rw [hpayable, ← hmoved]
      rfl

/-- A transfer with its four checks; the arithmetic never fails. -/
theorem Minted.applyTransfer (hs : Minted s) (sender receiver : Address) (amount : Int) :
    applyTransfer s sender receiver amount = (do
      refuseIf (amount ≤ 0) (.err .invalidAmount)
      refuseIf (maxSupply < amount) (.err .supplyCapExceeded)
      refuseIf (sender = receiver) (.err .invalidAmount)
      refuseIf (s.balance sender < amount) (.err .insufficientBalance)
      pure (s.moved sender receiver amount)) := by
  unfold TokenContract.applyTransfer
  by_cases hpositive : amount ≤ 0
  · simp only [refuseIf, hpositive, if_true]
    rfl
  by_cases hcapped : maxSupply < amount
  · simp only [refuseIf, hpositive, hcapped, if_true, if_false]
    rfl
  by_cases hself : sender = receiver
  · simp only [refuseIf, hpositive, hcapped, hself, if_true, if_false]
    rfl
  by_cases hcovered : s.balance sender < amount
  · simp only [refuseIf, hpositive, hcapped, hself, hcovered, if_true, if_false]
    rfl
  have hamount : 0 < amount := not_le.mp hpositive
  have hmax : maxSupply + maxSupply < 2^127 := by decide
  obtain ⟨hshare, hle⟩ := hs.share_bounds hamount
  have hsender := hs.balance_le sender
  have hreceiver := hs.balance_le receiver
  have hproceeds : fitsI128 (amount - royaltyShare s amount) = some (amount - royaltyShare s amount) := by
    rw [fitsI128_eq_some]
    omega
  have hafter : fitsI128 (s.balance sender - amount) = some (s.balance sender - amount) := by
    rw [fitsI128_eq_some]
    omega
  have hcredited : ∀ credited : Int, 0 ≤ credited → credited ≤ amount →
      fitsI128 (s.balance receiver + credited) = some (s.balance receiver + credited) := by
    intro credited hlow hhigh
    rw [fitsI128_eq_some]
    omega
  have hcredit : fitsI128 (s.balance receiver +
        if (getRoyalty s).map (·.recipient) = some receiver then amount
        else amount - royaltyShare s amount) =
      some (s.balance receiver + if (getRoyalty s).map (·.recipient) = some receiver then amount
        else amount - royaltyShare s amount) := by
    apply hcredited
    · split_ifs <;> omega
    · split_ifs <;> omega
  have hwrites := hs.writes hamount hself (not_lt.mp hcovered)
  simp only [refuseIf, hpositive, hcapped, hself, hcovered, if_false, ok_bind,
    hs.royaltyOn hamount (not_lt.mp hcapped), hproceeds, hafter, hcredit, orRefuse, hwrites]
  rfl

end Transfers

end ChainVerse.TokenContract
