import ChainVerse.Disbursements.Wallets
import ChainVerse.Host.Issuance

namespace ChainVerse.ScholarshipDisbursements

section Wallets

variable {contract : Address} {crypto : Crypto} {s s' : State} {recipient wallet : Address} {n : Nat}

section Lifetimes

/-- The challenge has been opened and is for the wallet. -/
def Targets (s : State) (n : Nat) (recipient wallet : Address) : Prop :=
  Handed s ∧ ∃ challenge, s.challenge n = some challenge ∧ challenge.recipient = recipient ∧
    challenge.wallet = wallet

/-- A challenge is for the same wallet as long as it is stored. -/
theorem run_targets (hs : Targets s n recipient wallet) (is : List (Input contract)) :
    Targets ((machine contract crypto).run s is) n recipient wallet := by
  refine @Machine.run_invariant _ _ _ _ (machine contract crypto) (Targets · n recipient wallet) s hs ?_ is
  intro t i o t' ht h
  obtain ⟨hhanded, challenge, hstored, hrecipient, hwallet⟩ := ht
  have heffect := step_effect h
  refine ⟨heffect.handed hhanded, ?_⟩
  have hmove := heffect.challengeMove hhanded n
  rw [hstored] at hmove
  generalize t'.challenge n = row at hmove
  cases hmove with
  | kept => exact ⟨challenge, rfl, hrecipient, hwallet⟩
  | confirmed => exact ⟨_, rfl, hrecipient, hwallet⟩

/-- What an opening and a confirmation find. -/
theorem opening_targets {env : Env contract} {ttl : Nat} (hs : Handed s)
    (h : (machine contract crypto).step s ⟨env, .openWalletChallenge recipient wallet ttl⟩ =
      .ok (.challengeId n, s')) : Targets s' n recipient wallet ∧ s'.payoutAddress recipient = some wallet := by
  have heffect := step_effect h
  have hhanded := heffect.handed hs
  cases heffect with
  | quiet _ _ _ hunopened => exact absurd rfl (hunopened n)
  | opened _ _ _ binding hbound hcurrent =>
    refine ⟨⟨hhanded, _, Function.update_self _ _ _, rfl, rfl⟩, ?_⟩
    show (s.walletBinding recipient).map PayoutWallet.wallet = some wallet
    rw [hbound, Option.map_some, hcurrent]

theorem confirmation_wallet {env : Env contract} {pubkey : Bytes32} {signature : BitVec 512} {o : Answer}
    (hs : Targets s n recipient wallet)
    (h : (machine contract crypto).step s ⟨env, .confirmWalletChallenge n pubkey signature⟩ = .ok (o, s')) :
    s.payoutAddress recipient = some wallet := by
  obtain ⟨_, challenge, hstored, rfl, rfl⟩ := hs
  simp only [machine, execute, map_eq_ok, Prod.mk.injEq] at h
  obtain ⟨_, hconfirm, _, _⟩ := h
  obtain ⟨confirmed, binding, hchecked, _⟩ := confirmWalletChallenge_ok hconfirm
  obtain rfl : confirmed = challenge := Option.some.inj (hchecked.stored.symm.trans hstored)
  rw [State.payoutAddress, hchecked.bound, Option.map_some, hchecked.wallet]

/-- A recipient's address changes only where it is set. -/
theorem BindingMove.returns {call : Call} {row row' : Option PayoutWallet}
    (h : BindingMove contract crypto s call recipient row row')
    (hbefore : row.map PayoutWallet.wallet ≠ some wallet)
    (hafter : row'.map PayoutWallet.wallet = some wallet) : call.sets = some (recipient, wallet) := by
  cases h with
  | kept => exact absurd hafter hbefore
  | set _ written now hsets =>
    cases hafter
    exact hsets
  | confirmed => exact absurd hafter hbefore

theorem BindingMove.sets {call : Call} {row row' : Option PayoutWallet}
    (h : BindingMove contract crypto s call recipient row row')
    (hsets : call.sets = some (recipient, wallet)) : row'.map PayoutWallet.wallet = some wallet := by
  cases h with
  | kept _ hunset => exact absurd hsets (hunset wallet)
  | set _ written now hwritten =>
    rw [hwritten, Option.some.injEq, Prod.mk.injEq] at hsets
    exact congrArg some hsets.2
  | confirmed n pubkey signature challenge binding now hconfirms =>
    rw [hconfirms] at hsets
    cases hsets

theorem BindingMove.epoch {call : Call} {row row' : Option PayoutWallet}
    (h : BindingMove contract crypto s call recipient row row') :
    (row'.map PayoutWallet.epoch).getD 0 = (row.map PayoutWallet.epoch).getD 0 +
      if call.sets.map Prod.fst = some recipient then 1 else 0 := by
  cases h with
  | kept _ hunset =>
    rw [if_neg, Nat.add_zero]
    intro howner
    obtain ⟨⟨owner, wallet⟩, hsets, rfl⟩ := Option.map_eq_some_iff.mp howner
    exact hunset wallet hsets
  | set _ wallet now hsets =>
    simp only [hsets, Option.map_some, Option.getD_some, if_true]
  | confirmed n pubkey signature challenge binding now hconfirms =>
    rw [hconfirms]
    rfl

/-- Every accepted setting starts a new epoch. -/
theorem run_epoch (s : State) (is : List (Input contract)) (recipient : Address) :
    ((machine contract crypto).run s is).epoch recipient = s.epoch recipient +
      ((machine contract crypto).journal s is).countP fun e =>
        e.input.call.sets.map Prod.fst = some recipient := by
  refine @Machine.run_journal_invariant _ _ _ _ (machine contract crypto)
    (fun t es => t.epoch recipient = s.epoch recipient +
      es.countP fun e => e.input.call.sets.map Prod.fst = some recipient) s rfl ?_ is
  intro es t i o t' ht h
  have hstep := ((step_effect h).bindingMove recipient).epoch
  rw [countP_snoc, ← Nat.add_assoc, ← ht]
  simp only [decide_eq_true_eq]
  exact hstep

/-- A recipient's epoch stays just when no wallet is set. -/
theorem run_epoch_iff (s : State) (is : List (Input contract)) (recipient : Address) :
    ((machine contract crypto).run s is).epoch recipient = s.epoch recipient ↔
      ∀ e ∈ (machine contract crypto).journal s is, ∀ w, e.input.call.sets ≠ some (recipient, w) := by
  rw [run_epoch, Nat.add_eq_left, List.countP_eq_zero]
  constructor
  · intro hnone e he w hsets
    apply hnone e he
    rw [hsets]
    exact decide_eq_true rfl
  · intro hnone e he howner
    obtain ⟨⟨owner, w⟩, hsets, rfl⟩ := Option.map_eq_some_iff.mp (of_decide_eq_true howner)
    exact hnone e he w hsets

end Lifetimes

section Returns

variable {js : List (Input contract)} {e : Step contract}

theorem journal_bindingMove (he : e ∈ (machine contract crypto).journal s js) (recipient : Address) :
    BindingMove contract crypto e.pre e.input.call recipient (e.pre.walletBinding recipient)
      (e.post.walletBinding recipient) :=
  (step_effect (Machine.journal_step he).1).bindingMove recipient

/-- Away from the address that a run ends with, some later call sets it from another one. -/
theorem run_returns (hend : ((machine contract crypto).run s js).payoutAddress recipient = some wallet)
    (he : e ∈ (machine contract crypto).journal s js)
    (haway : e.post.payoutAddress recipient ≠ some wallet) :
    ∃ e' ∈ (machine contract crypto).journal s js, e'.input.call.sets = some (recipient, wallet) ∧
      e'.pre.payoutAddress recipient ≠ some wallet := by
  obtain ⟨e', he', hbefore, hafter⟩ :=
    Machine.exists_return (P := fun t => t.payoutAddress recipient = some wallet) he haway hend
  exact ⟨e', he', (journal_bindingMove he' recipient).returns hbefore hafter, hbefore⟩

theorem run_unset_iff
    (hend : ((machine contract crypto).run s js).payoutAddress recipient = some wallet) :
    (∀ e ∈ (machine contract crypto).journal s js, ∀ w, e.input.call.sets ≠ some (recipient, w)) ↔
      ∀ e ∈ (machine contract crypto).journal s js, e.input.call.sets ≠ some (recipient, wallet) := by
  constructor
  · intro hnone e he
    exact hnone e he wallet
  · intro hnone e he w hsets
    have hwritten := (journal_bindingMove he recipient).sets hsets
    have haway : e.post.payoutAddress recipient ≠ some wallet := by
      intro hsame
      obtain rfl : w = wallet := Option.some.inj (hwritten.symm.trans hsame)
      exact hnone e he hsets
    obtain ⟨e', he', hback, _⟩ := run_returns hend he haway
    exact hnone e' he' hback

theorem run_kept_iff (hstart : s.payoutAddress recipient = some wallet)
    (hend : ((machine contract crypto).run s js).payoutAddress recipient = some wallet) :
    (∀ e ∈ (machine contract crypto).journal s js, e.post.payoutAddress recipient = some wallet) ↔
      ∀ e ∈ (machine contract crypto).journal s js, e.input.call.sets = some (recipient, wallet) →
        e.pre.payoutAddress recipient = some wallet := by
  constructor
  · intro hsame e he _
    by_contra haway
    -- The address is the wallet's at the start, so some call before has led away from it.
    obtain ⟨_, before, hbefore, hpre⟩ := Machine.journal_step he
    rw [hpre] at haway
    obtain ⟨e', he', _, hafter⟩ := Machine.exists_turn
      (P := fun t : State => t.payoutAddress recipient ≠ some wallet) (not_not.mpr hstart) haway
    obtain ⟨ks, rfl⟩ := hbefore
    apply hafter
    apply hsame e'
    rw [Machine.journal_append]
    exact List.mem_append_left _ he'
  · intro hback e he
    by_contra haway
    obtain ⟨e', he', hsets, hbefore⟩ := run_returns hend he haway
    exact hbefore (hback e' he' hsets)

end Returns

/-- In every run in which a challenge is opened and later confirmed, the recipient's wallet has not been
set in between, and is of the epoch that it was of, just when it has not been set to the challenge's
address. And it has been that address all the time just when it has not been set back to it. -/
theorem run_challenges (is js : List (Input contract)) (opening confirmation : Env contract)
    (recipient wallet : Address) (ttl n : Nat) (pubkey : Bytes32) (signature : BitVec 512)
    (s s' : State) (o : Answer)
    (hopen : (machine contract crypto).step ((machine contract crypto).run State.empty is)
      ⟨opening, .openWalletChallenge recipient wallet ttl⟩ = .ok (.challengeId n, s))
    (hconfirm : (machine contract crypto).step ((machine contract crypto).run s js)
      ⟨confirmation, .confirmWalletChallenge n pubkey signature⟩ = .ok (o, s')) :
    let es := (machine contract crypto).journal s js
    ((∀ e ∈ es, ∀ w, e.input.call.sets ≠ some (recipient, w)) ↔
        ∀ e ∈ es, e.input.call.sets ≠ some (recipient, wallet)) ∧
      (((machine contract crypto).run s js).epoch recipient = s.epoch recipient ↔
        ∀ e ∈ es, e.input.call.sets ≠ some (recipient, wallet)) ∧
      ((∀ e ∈ es, e.post.payoutAddress recipient = some wallet) ↔
        ∀ e ∈ es, e.input.call.sets = some (recipient, wallet) → e.pre.payoutAddress recipient = some wallet) := by
  intro es
  obtain ⟨htargets, hstart⟩ := opening_targets (@run_book contract crypto is).handed hopen
  have hend := confirmation_wallet (run_targets htargets js) hconfirm
  have hunset := run_unset_iff hend
  refine ⟨hunset, ?_, run_kept_iff hstart hend⟩
  rw [← hunset]
  exact run_epoch_iff s js recipient

section Samples

/-- A network id, an ed25519 key, and the digest that the wallet 4 signs for the challenge 0 of the
recipient 3, with the signature. -/
def sampleNetwork : Bytes32 := 0xcee0302d59844d32bdca915c8203dd44b33fbb7edc19051ea37abedf28ecd472
def sampleKey : Bytes32 := 0xd75a980182b10ab7d54bfed3c964073a0ee172f3daa62325af021a68f707511a
def samplePayload : Bytes32 := 0x45b66ea808a6a1a8a75774b26951e84e001dc7bd11b32091af8a20d2190936a4
def sampleSignature : BitVec 512 :=
  0xd9fd60dc0bd3b2b1b949518c13b38c7286b067e8821b6da72b04226b6bce2aa157634234f0c38aae3d00641e573eb8e2ab140005d46f96cc0202c0756bf3490c

/-- The contract's XDR encoding, the encodings of the accounts, and the one of the message's symbol. -/
def sampleAddressXdr (a : Address) : List Byte :=
  if a = ⟨0⟩ then [0, 0, 0, 18, 0, 0, 0, 1] ++ beBytes 32 0 else accountXdr a

def sampleSymbolXdr (symbol : Symbol) : List Byte := [0, 0, 0, 15, 0, 0, 0, 19] ++ asciiBytes symbol ++ [0]

/-- The SHA-256 digests of the preimages of the sample. -/
def sampleDigest (p : List Byte) : Bytes32 :=
  if p = sampleAddressXdr ⟨0⟩ then 0x5979b0b6c05299c628c161df5240d571c2f010bbb195dd4346bc3b262441744b
  else if p = sampleSymbolXdr "payout_wallet_proof" then
    0x3a84d0ac7689c7a31ecef5032dcba75286843d518c14d16243eb2840301096d5
  else if p = walletProofDomainTag ++ beBytes 8 0 ++ accountXdr ⟨3⟩ ++ accountXdr ⟨4⟩ ++ beBytes 8 70 then
    0x08f0be0a162c0430861c97ab151ccbe0e94e244408406df7481f64094181b061
  else if p = Signing.domainTag ++ beBytes 4 1 ++ bytes32 sampleNetwork ++
      bytes32 0x5979b0b6c05299c628c161df5240d571c2f010bbb195dd4346bc3b262441744b ++
      bytes32 0x3a84d0ac7689c7a31ecef5032dcba75286843d518c14d16243eb2840301096d5 ++
      bytes32 0x08f0be0a162c0430861c97ab151ccbe0e94e244408406df7481f64094181b061 then samplePayload
  else 0

def sampleCrypto : Crypto where
  sha256 := sampleDigest
  addressXdr := sampleAddressXdr
  symbolXdr := sampleSymbolXdr
  verifyStrict key message signature :=
    key = sampleKey ∧ message = bytes32 samplePayload ∧ signature = sampleSignature

/-- The recipient 3 is paid at the wallet 4. -/
def sampleBound : List (Input ⟨0⟩) :=
  [⟨.sample, .initializeContract ⟨1⟩ sampleNetwork⟩,
    ⟨.sample, .registerWalletKey ⟨4⟩ sampleKey⟩,
    ⟨.sample, .setPayoutWallet ⟨3⟩ ⟨4⟩⟩]

def sampleOpening : Input ⟨0⟩ := ⟨.sample, .openWalletChallenge ⟨3⟩ ⟨4⟩ 60⟩

/-- The recipient changes the wallet to 5 and back to 4. -/
def sampleReturn : List (Input ⟨0⟩) :=
  [⟨.sample, .setPayoutWallet ⟨3⟩ ⟨5⟩⟩, ⟨.sample, .setPayoutWallet ⟨3⟩ ⟨4⟩⟩]

def sampleConfirmation : Input ⟨0⟩ :=
  ⟨.sampleLater, .confirmWalletChallenge 0 sampleKey sampleSignature⟩

theorem sampleReturn_accepted : ∃ s o s' t,
    (machine ⟨0⟩ sampleCrypto).step ((machine ⟨0⟩ sampleCrypto).run State.empty sampleBound)
        sampleOpening = .ok (.challengeId 0, s) ∧
      (machine ⟨0⟩ sampleCrypto).step ((machine ⟨0⟩ sampleCrypto).run s sampleReturn)
        sampleConfirmation = .ok (o, s') ∧
      ⟨s, ⟨.sample, .setPayoutWallet ⟨3⟩ ⟨5⟩⟩, .done, t⟩ ∈
        (machine ⟨0⟩ sampleCrypto).journal s sampleReturn ∧ t.payoutAddress ⟨3⟩ = some ⟨5⟩ := by
  obtain ⟨⟨o, s⟩, hopen, hid⟩ : ∃ a, (machine ⟨0⟩ sampleCrypto).step
      ((machine ⟨0⟩ sampleCrypto).run State.empty sampleBound) sampleOpening = .ok a ∧
        a.1 = .challengeId 0 := by
    decide +kernel
  have hs : (machine ⟨0⟩ sampleCrypto).run State.empty (sampleBound ++ [sampleOpening]) = s := by
    rw [Machine.run_append]
    exact Machine.next_ok _ hopen
  obtain ⟨⟨o', s'⟩, hconfirm⟩ : ∃ a, (machine ⟨0⟩ sampleCrypto).step
      ((machine ⟨0⟩ sampleCrypto).run
        ((machine ⟨0⟩ sampleCrypto).run State.empty (sampleBound ++ [sampleOpening])) sampleReturn)
      sampleConfirmation = .ok a := by
    decide +kernel
  obtain ⟨⟨o'', t⟩, hset, hdone, haddress⟩ : ∃ a, (machine ⟨0⟩ sampleCrypto).step
      ((machine ⟨0⟩ sampleCrypto).run State.empty (sampleBound ++ [sampleOpening]))
      ⟨.sample, .setPayoutWallet ⟨3⟩ ⟨5⟩⟩ = .ok a ∧
        a.1 = .done ∧ a.2.payoutAddress ⟨3⟩ = some ⟨5⟩ := by
    decide +kernel
  rw [hs] at hconfirm hset
  cases hid
  cases hdone
  exact ⟨s, o', s', t, hopen, hconfirm, @Machine.mem_journal _ _ _ _ _ _ _ [] _ _ _ hset, haddress⟩

theorem run_challenges_sample : ∃ s,
    ((machine ⟨0⟩ sampleCrypto).run s sampleReturn).epoch ⟨3⟩ ≠ s.epoch ⟨3⟩ := by
  obtain ⟨s, o, s', t, hopen, hconfirm, hmem, haddress⟩ := sampleReturn_accepted
  obtain ⟨hunset, hepoch, _⟩ := run_challenges sampleBound sampleReturn .sample .sampleLater ⟨3⟩ ⟨4⟩ 60 0
    sampleKey sampleSignature s s' o hopen hconfirm
  refine ⟨s, ?_⟩
  intro hsame
  exact hunset.mpr (hepoch.mp hsame) _ hmem ⟨5⟩ rfl

/-- A challenge is confirmed although the wallet has been another one since its opening. -/
theorem not_run_challenges : ¬∀ (is js : List (Input ⟨0⟩)) (opening confirmation : Env ⟨0⟩)
    (recipient wallet : Address) (ttl n : Nat) (pubkey : Bytes32) (signature : BitVec 512)
    (s s' : State) (o : Answer),
    (machine ⟨0⟩ sampleCrypto).step ((machine ⟨0⟩ sampleCrypto).run State.empty is)
        ⟨opening, .openWalletChallenge recipient wallet ttl⟩ = .ok (.challengeId n, s) →
      (machine ⟨0⟩ sampleCrypto).step ((machine ⟨0⟩ sampleCrypto).run s js)
        ⟨confirmation, .confirmWalletChallenge n pubkey signature⟩ = .ok (o, s') →
      ∀ e ∈ (machine ⟨0⟩ sampleCrypto).journal s js, e.post.payoutAddress recipient = some wallet := by
  intro hall
  obtain ⟨s, o, s', t, hopen, hconfirm, hmem, haddress⟩ := sampleReturn_accepted
  have hkept := hall sampleBound sampleReturn .sample .sampleLater ⟨3⟩ ⟨4⟩ 60 0 sampleKey sampleSignature
    s s' o hopen hconfirm _ hmem
  rw [haddress] at hkept
  exact absurd hkept (by decide)

end Samples

end Wallets

section Intents

variable {contract : Address} {crypto : Crypto} {s s' : State}
  {id : Bytes32} {intent paid : DisbursementIntent} {installment : Installment}

section Epochs

/-- No stored intent is of an epoch that its recipient has not reached. -/
def State.Dated (s : State) : Prop :=
  ∀ id intent, s.intent id = some intent → intent.walletEpoch ≤ s.epoch intent.recipient

theorem Effect.epoch_le {now : Nat} {call : Call} {o : Answer}
    (h : Effect contract crypto now s call o s') (recipient : Address) :
    s.epoch recipient ≤ s'.epoch recipient := by
  have hmove := (h.bindingMove recipient).epoch
  unfold State.epoch
  omega

/-- The intents stay while the epochs may grow. -/
theorem State.Dated.grow (hs : s.Dated) (hgrown : ∀ recipient, s.epoch recipient ≤ s'.epoch recipient)
    (hintent : s'.intent = s.intent) : s'.Dated := by
  intro id intent hfound
  rw [hintent] at hfound
  exact (hs id intent hfound).trans (hgrown intent.recipient)

theorem Effect.dated {now : Nat} {call : Call} {o : Answer}
    (h : Effect contract crypto now s call o s') (hs : s.Dated) : s'.Dated := by
  have hgrown := h.epoch_le
  cases h with
  | quiet _ _ _ _ _ _ _ hintent => exact hs.grow hgrown hintent
  | set => exact hs.grow hgrown rfl
  | opened => exact hs.grow hgrown rfl
  | confirmed => exact hs.grow hgrown rfl
  | created creator programId recipient amount installment id binding _ _ _ hbound =>
    apply forall_update_row hs rfl
    show binding.epoch ≤ s.epoch recipient
    rw [State.epoch, hbound, Option.map_some, Option.getD_some]
  | executed executor id intent binding hstored => exact forall_update_row hs rfl (hs id intent hstored)
  | cancelled caller id intent hstored => exact forall_update_row hs rfl (hs id intent hstored)

theorem run_dated (is : List (Input contract)) :
    ((machine contract crypto).run State.empty is).Dated :=
  Machine.run_invariant (fun _ _ h => nomatch h) (fun _ _ _ _ hs h => (step_effect h).dated hs) is

end Epochs

section Holds

/-- The installment has an intent of an epoch that is over. -/
def State.Over (s : State) (installment : Installment) : Prop :=
  ∃ id intent, s.intent id = some intent ∧ intent.pays = installment ∧
    intent.walletEpoch < s.epoch intent.recipient

theorem terms_epoch (h : paid.terms = intent.terms) :
    paid.pays = intent.pays ∧ paid.walletEpoch = intent.walletEpoch ∧
      paid.recipient = intent.recipient := by
  simp only [DisbursementIntent.terms, DisbursementIntent.mk.injEq] at h
  obtain ⟨_, hprogram, hrecipient, _, _, hinstallment, hepoch, _⟩ := h
  refine ⟨?_, hepoch, hrecipient⟩
  rw [DisbursementIntent.pays, hprogram, hrecipient, hinstallment]
  rfl

/-- After more calls the installment's intent is of an epoch that is over when it already was, or when
they have set the recipient's wallet often enough. -/
theorem over_of_count (js : List (Input contract)) (hfound : s.intent id = some intent)
    (hlate : intent.walletEpoch < s.epoch intent.recipient +
      ((machine contract crypto).journal s js).countP fun e =>
        e.input.call.sets.map Prod.fst = some intent.recipient) :
    ((machine contract crypto).run s js).Over intent.pays := by
  obtain ⟨kept, hkept, hterms⟩ := @run_terms contract crypto id intent s js hfound
  obtain ⟨hsame, hepoch, hrecipient⟩ := terms_epoch hterms
  refine ⟨id, kept, hkept, hsame, ?_⟩
  rw [hepoch, hrecipient, run_epoch]
  exact hlate

/-- The epoch of an intent is over for good. -/
theorem run_over (js : List (Input contract)) (hs : s.Over installment) :
    ((machine contract crypto).run s js).Over installment := by
  obtain ⟨id, intent, hfound, rfl, hover⟩ := hs
  exact over_of_count js hfound (Nat.lt_add_right _ hover)

/-- Setting a wallet ends the epoch of every intent that was there before. -/
theorem over_of_set (hs : s.Dated) (js : List (Input contract)) (hfound : s.intent id = some intent)
    (hchanged : ∃ e ∈ (machine contract crypto).journal s js,
      ∃ wallet, e.input.call.sets = some (intent.recipient, wallet)) :
    ((machine contract crypto).run s js).Over intent.pays := by
  obtain ⟨e, he, wallet, hsets⟩ := hchanged
  have hcounted : 0 < ((machine contract crypto).journal s js).countP fun e =>
      e.input.call.sets.map Prod.fst = some intent.recipient := by
    rw [List.countP_pos_iff]
    refine ⟨e, he, ?_⟩
    rw [hsets]
    exact decide_eq_true rfl
  have hdated := hs id intent hfound
  exact over_of_count js hfound (by omega)

/-- Only an intent of the recipient's present epoch is executable. -/
theorem executable_epoch (hfound : s.intent id = some intent)
    (hexecutable : isIntentExecutable s id = true) : s.epoch intent.recipient = intent.walletEpoch := by
  obtain ⟨binding, hpayable⟩ := isIntentExecutable_payable hfound hexecutable
  rw [State.epoch, hpayable.bound]
  exact hpayable.epoch

/-- An installment has one intent. -/
theorem intent_unique {is : List (Input contract)} {x : Bytes32}
    (hfound : ((machine contract crypto).run State.empty is).intent id = some intent)
    (hpaid : ((machine contract crypto).run State.empty is).intent x = some paid)
    (hpays : paid.pays = intent.pays) : paid = intent := by
  have hid := ((run_accounted is id).keyed intent hfound).2
  have hx := ((run_accounted is x).keyed paid hpaid).2
  simp only [DisbursementIntent.pays, Prod.mk.injEq] at hpays
  rw [hpays.1, hpays.2.1, hpays.2.2, ← hid] at hx
  rw [hx, hfound, Option.some.injEq] at hpaid
  exact hpaid.symm

/-- An installment whose intent's epoch is over has nothing executable. -/
theorem held_of_over {is : List (Input contract)}
    (hs : ((machine contract crypto).run State.empty is).Over installment) :
    ¬ ∃ id paid, ((machine contract crypto).run State.empty is).intent id = some paid ∧
      paid.pays = installment ∧
      isIntentExecutable ((machine contract crypto).run State.empty is) id = true := by
  rintro ⟨x, paid, hpaid, hpays, hexecutable⟩
  obtain ⟨id, intent, hfound, hown, hover⟩ := hs
  obtain rfl := intent_unique hfound hpaid (hpays.trans hown.symm)
  exact absurd (executable_epoch hpaid hexecutable) (Nat.ne_of_gt hover)

/-- In every run, once a recipient has set a wallet, the installments that intents were made for before
have no executable intent any more: neither the wallet's verification nor any other sequence of calls
brings one about. -/
theorem run_stranded (is js : List (Input contract))
    (hfound : ((machine contract crypto).run State.empty is).intent id = some intent)
    (hchanged : ∃ e ∈ (machine contract crypto).journal ((machine contract crypto).run State.empty is) js,
      ∃ wallet, e.input.call.sets = some (intent.recipient, wallet)) :
    ¬ ∃ ks x paid, ((machine contract crypto).run State.empty (is ++ js ++ ks)).intent x = some paid ∧
      paid.pays = intent.pays ∧
      isIntentExecutable ((machine contract crypto).run State.empty (is ++ js ++ ks)) x = true := by
  rintro ⟨ks, hexecutable⟩
  apply held_of_over _ hexecutable
  rw [Machine.run_append, Machine.run_append]
  exact run_over ks (over_of_set (run_dated is) js hfound hchanged)

end Holds

section Samples

/-- The SHA-256 digest of the preimage of the key for installment 1 of the recipient 3 in program 7. -/
def sampleIntentId : Bytes32 := 0xd5803521d087d18e2e3a1a61cb9dc8916f99dd3751032be89c46671096f72fbb

def sampleIntentCrypto : Crypto :=
  { sampleCrypto with
    sha256 := fun p => if p = intentPreimage sampleCrypto 7 ⟨3⟩ 1 then sampleIntentId else sampleDigest p }

/-- An installment is to be paid to the recipient 3 at the wallet 5. -/
def sampleIntended : List (Input ⟨0⟩) :=
  [⟨.sample, .initializeContract ⟨1⟩ sampleNetwork⟩,
    ⟨.sample, .registerWalletKey ⟨4⟩ sampleKey⟩,
    ⟨.sample, .setPayoutWallet ⟨3⟩ ⟨5⟩⟩,
    ⟨.sample, .createIntent ⟨1⟩ 7 ⟨3⟩ 100 1⟩]

/-- The recipient changes the wallet to 4 and verifies it. -/
def sampleChange : List (Input ⟨0⟩) :=
  [⟨.sample, .setPayoutWallet ⟨3⟩ ⟨4⟩⟩, sampleOpening, sampleConfirmation]

def sampleIntent : DisbursementIntent :=
  ⟨sampleIntentId, 7, ⟨3⟩, ⟨5⟩, 100, 1, 1, 10, ⟨1⟩, .pending, 0⟩

theorem sampleIntended_intent :
    ((machine ⟨0⟩ sampleIntentCrypto).run State.empty sampleIntended).intent sampleIntentId =
      some sampleIntent := by
  decide +kernel

theorem sampleChange_sets : ∃ e ∈ (machine ⟨0⟩ sampleIntentCrypto).journal
    ((machine ⟨0⟩ sampleIntentCrypto).run State.empty sampleIntended) sampleChange,
      ∃ wallet, e.input.call.sets = some (⟨3⟩, wallet) := by
  obtain ⟨⟨o, s⟩, hset⟩ : ∃ a, (machine ⟨0⟩ sampleIntentCrypto).step
      ((machine ⟨0⟩ sampleIntentCrypto).run State.empty sampleIntended)
      ⟨.sample, .setPayoutWallet ⟨3⟩ ⟨4⟩⟩ = .ok a := by
    decide +kernel
  exact ⟨_, @Machine.mem_journal _ _ _ _ _ _ _ [] _ _ _ hset, ⟨4⟩, rfl⟩

/-- Neither is the new wallet paid after the old intent is cancelled and created anew. -/
theorem run_stranded_sample : isIntentExecutable ((machine ⟨0⟩ sampleIntentCrypto).run State.empty
    (sampleIntended ++ sampleChange ++ [⟨.sampleLater, .cancelIntent ⟨1⟩ sampleIntentId⟩,
      ⟨.sampleLater, .createIntent ⟨1⟩ 7 ⟨3⟩ 100 1⟩])) sampleIntentId ≠ true := by
  intro hexecutable
  have hstored : (((machine ⟨0⟩ sampleIntentCrypto).run State.empty (sampleIntended ++ sampleChange ++
      [⟨.sampleLater, .cancelIntent ⟨1⟩ sampleIntentId⟩,
        ⟨.sampleLater, .createIntent ⟨1⟩ 7 ⟨3⟩ 100 1⟩])).intent sampleIntentId).map
          DisbursementIntent.pays = some (7, ⟨3⟩, 1) := by
    decide +kernel
  obtain ⟨paid, hpaid, hpays⟩ := Option.map_eq_some_iff.mp hstored
  exact run_stranded sampleIntended sampleChange sampleIntended_intent sampleChange_sets
    ⟨_, sampleIntentId, paid, hpaid, hpays, hexecutable⟩

/-- The recipient has changed and verified the wallet, and no sequence of calls pays the installment. -/
theorem not_run_payable : ¬ ∀ (is js : List (Input ⟨0⟩)) (id : Bytes32) (intent : DisbursementIntent)
    (binding : PayoutWallet),
    ((machine ⟨0⟩ sampleIntentCrypto).run State.empty is).intent id = some intent →
      intent.status = .pending →
      ((machine ⟨0⟩ sampleIntentCrypto).run State.empty is).payoutAddress intent.recipient ≠
        some binding.wallet →
      ((machine ⟨0⟩ sampleIntentCrypto).run State.empty (is ++ js)).walletBinding intent.recipient =
        some binding → binding.verified = true →
      ∃ ks x paid, ((machine ⟨0⟩ sampleIntentCrypto).run State.empty (is ++ js ++ ks)).intent x = some paid ∧
        paid.pays = intent.pays ∧ paid.amount = intent.amount ∧ paid.wallet = binding.wallet ∧
        isIntentExecutable ((machine ⟨0⟩ sampleIntentCrypto).run State.empty (is ++ js ++ ks)) x = true := by
  intro hpayable
  have hbinding : ((machine ⟨0⟩ sampleIntentCrypto).run State.empty
      (sampleIntended ++ sampleChange)).walletBinding sampleIntent.recipient =
        some ⟨⟨4⟩, true, 2, 20⟩ := by
    decide +kernel
  have hbefore : ((machine ⟨0⟩ sampleIntentCrypto).run State.empty sampleIntended).payoutAddress ⟨3⟩ ≠
      some ⟨4⟩ := by
    decide +kernel
  obtain ⟨ks, x, paid, hpaid, hpays, _, _, hexecutable⟩ := hpayable sampleIntended sampleChange
    sampleIntentId sampleIntent ⟨⟨4⟩, true, 2, 20⟩ sampleIntended_intent rfl hbefore hbinding rfl
  have hover : ((machine ⟨0⟩ sampleIntentCrypto).run State.empty
      (sampleIntended ++ sampleChange ++ ks)).Over sampleIntent.pays := by
    rw [Machine.run_append, Machine.run_append]
    exact run_over ks (over_of_set (run_dated sampleIntended) sampleChange sampleIntended_intent
      sampleChange_sets)
  exact held_of_over hover ⟨x, paid, hpaid, hpays, hexecutable⟩

end Samples

end Intents

end ChainVerse.ScholarshipDisbursements
