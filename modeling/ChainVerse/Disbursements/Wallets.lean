import ChainVerse.Disbursements.Intents

namespace ChainVerse.ScholarshipDisbursements

variable {contract : Address} {crypto : Crypto} {s s' : State} {call : Call} {n : Nat}
  {recipient : Address} {e : Step contract} {es : List (Step contract)} {challenge : WalletChallenge}
  {binding : PayoutWallet}

section Quantities

/-- The opening of the challenge by its recipient, for the wallet that is the recipient's then. -/
def Opens (challenge : WalletChallenge) (_ : List (Step contract)) (e : Step contract) : Prop :=
  e.output = .challengeId challenge.id ∧
    (∃ ttl, e.input.call = .openWalletChallenge challenge.recipient challenge.wallet ttl) ∧
    e.pre.payoutAddress challenge.recipient = some challenge.wallet ∧
    e.post.challenge challenge.id = some { challenge with used := false }

/-- The confirmation, by a signature of the wallet's key, of a challenge that has been opened for the
wallet of the binding, in the binding's epoch. -/
def Proves (crypto : Crypto) (recipient : Address) (binding : PayoutWallet)
    (earlier : List (Step contract)) (e : Step contract) : Prop :=
  ∃ challenge pubkey signature current,
    e.input.call = .confirmWalletChallenge challenge.id pubkey signature ∧
    Confirmed contract crypto e.pre challenge.id pubkey signature challenge current ∧
    challenge.recipient = recipient ∧ challenge.wallet = binding.wallet ∧
    current.epoch = binding.epoch ∧ Happened (Opens challenge) earlier

end Quantities

section Challenges

/-- What an accepted call makes of the challenge under an id. -/
inductive ChallengeMove (contract : Address) (crypto : Crypto) (s : State) (call : Call) (o : Answer)
    (n : Nat) : Option WalletChallenge → Option WalletChallenge → Prop
  | kept (row : Option WalletChallenge) (unconfirmed : call.confirms ≠ some n) :
      ChallengeMove contract crypto s call o n row row
  | opened (challenge : WalletChallenge) (ttl : Nat) (keyed : challenge.id = n)
      (opens : call = .openWalletChallenge challenge.recipient challenge.wallet ttl)
      (answer : o = .challengeId n) (unused : challenge.used = false)
      (bound : s.payoutAddress challenge.recipient = some challenge.wallet) :
      ChallengeMove contract crypto s call o n none (some challenge)
  | confirmed (challenge : WalletChallenge) (confirms : call.confirms = some n)
      (unused : challenge.used = false) :
      ChallengeMove contract crypto s call o n (some challenge) (some { challenge with used := true })

/-- Ids are handed out in order. -/
def Handed (s : State) : Prop := ∀ n, s.challengeCounter ≤ n → s.challenge n = none

variable {now : Nat} {o : Answer}

theorem Effect.handed (h : Effect contract crypto now s call o s') (hs : Handed s) : Handed s' := by
  intro m hm
  cases h with
  | quiet _ _ _ _ _ hcounter hchallenge =>
    rw [hchallenge]
    rw [hcounter] at hm
    exact hs m hm
  | set recipient wallet => exact hs m hm
  | opened recipient wallet ttl binding =>
    have hm' : s.challengeCounter + 1 ≤ m := hm
    have hne : m ≠ s.challengeCounter := by omega
    rw [saveChallenge_challenge, Function.update_of_ne hne]
    exact hs m (by omega)
  | confirmed id pubkey signature challenge binding hchecked =>
    have hm' : s.challengeCounter ≤ m := hm
    have hne : m ≠ id := by
      intro heq
      have hstored := hchecked.stored
      rw [← heq, hs m hm'] at hstored
      cases hstored
    show Function.update s.challenge id _ m = none
    rw [Function.update_of_ne hne]
    exact hs m hm'
  | created => exact hs m hm
  | executed => exact hs m hm
  | cancelled => exact hs m hm

theorem Effect.challengeMove (h : Effect contract crypto now s call o s') (hs : Handed s) (n : Nat) :
    ChallengeMove contract crypto s call o n (s.challenge n) (s'.challenge n) := by
  have hnever : (none : Option Nat) ≠ some n := (Option.some_ne_none n).symm
  cases h with
  | quiet _ hunconfirmed _ _ _ _ hchallenge =>
    rw [hchallenge]
    apply ChallengeMove.kept
    rw [hunconfirmed]
    exact hnever
  | set recipient wallet => exact .kept _ hnever
  | opened recipient wallet ttl binding hbound hcurrent =>
    rw [saveChallenge_challenge]
    by_cases hn : n = s.challengeCounter
    · subst hn
      rw [Function.update_self, hs _ le_rfl]
      refine .opened _ ttl rfl rfl rfl rfl ?_
      rw [State.payoutAddress, hbound, Option.map_some, hcurrent]
    · rw [Function.update_of_ne hn]
      exact .kept _ hnever
  | confirmed id pubkey signature challenge binding hchecked =>
    show ChallengeMove _ _ _ _ _ _ _ (Function.update s.challenge id _ n)
    by_cases hn : n = id
    · subst hn
      rw [Function.update_self, hchecked.stored]
      exact .confirmed challenge rfl hchecked.unused
    · rw [Function.update_of_ne hn]
      exact .kept _ fun heq => hn (Option.some.inj heq).symm
  | created => exact .kept _ hnever
  | executed => exact .kept _ hnever
  | cancelled => exact .kept _ hnever

/-- What the calls so far have made of the challenge under an id. -/
structure Consumed (es : List (Step contract)) (n : Nat) (row : Option WalletChallenge) : Prop where
  count : es.countP (fun e => e.input.call.confirms = some n) =
    if row.map WalletChallenge.used = some true then 1 else 0
  keyed : ∀ challenge, row = some challenge → challenge.id = n
  opened : ∀ challenge, row = some challenge → Happened (Opens challenge) es

theorem consumed_empty (n : Nat) : Consumed ([] : List (Step contract)) n none where
  count := rfl
  keyed _ h := by cases h
  opened _ h := by cases h

theorem Consumed.step {row row' : Option WalletChallenge} (h : Consumed es n row)
    (hmove : ChallengeMove contract crypto e.pre e.input.call e.output n row row')
    (hpost : e.post.challenge n = row') : Consumed (es ++ [e]) n row' := by
  have hquiet : e.input.call.confirms ≠ some n →
      (es ++ [e]).countP (fun e => e.input.call.confirms = some n) =
        es.countP fun e => e.input.call.confirms = some n := fun h => countP_snoc_of_neg h
  cases hmove with
  | kept _ hunconfirmed =>
    refine ⟨?_, h.keyed, ?_⟩
    · rw [hquiet hunconfirmed, h.count]
    · intro challenge hrow
      exact (h.opened challenge hrow).snoc e
  | opened challenge ttl hkeyed hopens hanswer hunused hbound =>
    have hunconfirmed : e.input.call.confirms ≠ some n := by
      rw [hopens]
      exact (Option.some_ne_none n).symm
    refine ⟨?_, ?_, ?_⟩
    · rw [hquiet hunconfirmed, h.count, Option.map_some, hunused]
      rfl
    · intro challenge' hrow
      cases hrow
      exact hkeyed
    · intro challenge' hrow
      cases hrow
      subst hkeyed
      apply happened_last
      refine ⟨hanswer, ⟨ttl, hopens⟩, hbound, ?_⟩
      rw [hpost, ← hunused]
  | confirmed challenge hconfirms hunused =>
    refine ⟨?_, ?_, ?_⟩
    · rw [countP_snoc_of_pos (q := fun e : Step contract => e.input.call.confirms = some n)
        hconfirms, h.count, Option.map_some, hunused]
      rfl
    · intro challenge' hrow
      cases hrow
      exact h.keyed challenge rfl
    · intro challenge' hrow
      cases hrow
      exact (h.opened challenge rfl).snoc e

end Challenges

section Bindings

/-- What an accepted call makes of a recipient's wallet. -/
inductive BindingMove (contract : Address) (crypto : Crypto) (s : State) (call : Call)
    (recipient : Address) : Option PayoutWallet → Option PayoutWallet → Prop
  | kept (row : Option PayoutWallet) (unset : ∀ wallet, call.sets ≠ some (recipient, wallet)) :
      BindingMove contract crypto s call recipient row row
  | set (row : Option PayoutWallet) (wallet : Address) (now : Nat)
      (sets : call.sets = some (recipient, wallet)) :
      BindingMove contract crypto s call recipient row
        (some ⟨wallet, false, (row.map PayoutWallet.epoch).getD 0 + 1, now⟩)
  | confirmed (n : Nat) (pubkey : Bytes32) (signature : BitVec 512) (challenge : WalletChallenge)
      (binding : PayoutWallet) (now : Nat) (confirms : call = .confirmWalletChallenge n pubkey signature)
      (checked : Confirmed contract crypto s n pubkey signature challenge binding)
      (owner : challenge.recipient = recipient) :
      BindingMove contract crypto s call recipient (some binding)
        (some { binding with verified := true, updatedAt := now })

variable {now : Nat} {o : Answer}

theorem Effect.bindingMove (h : Effect contract crypto now s call o s') (recipient : Address) :
    BindingMove contract crypto s call recipient (s.walletBinding recipient)
      (s'.walletBinding recipient) := by
  have hnever : ∀ wallet, (none : Option (Address × Address)) ≠ some (recipient, wallet) := by
    intro wallet
    exact (Option.some_ne_none _).symm
  cases h with
  | quiet hunset _ _ _ hbinding =>
    rw [hbinding]
    apply BindingMove.kept
    rw [hunset]
    exact hnever
  | set owner wallet =>
    rw [saveBinding_walletBinding]
    by_cases howner : recipient = owner
    · subst howner
      rw [Function.update_self]
      exact .set _ wallet now rfl
    · rw [Function.update_of_ne howner]
      apply BindingMove.kept
      intro wallet' heq
      cases heq
      exact howner rfl
  | opened owner wallet ttl binding => exact .kept _ hnever
  | confirmed id pubkey signature challenge binding hchecked =>
    rw [saveBinding_walletBinding]
    by_cases howner : recipient = challenge.recipient
    · subst howner
      rw [Function.update_self, hchecked.bound]
      exact .confirmed id pubkey signature challenge binding now rfl hchecked rfl
    · rw [Function.update_of_ne howner]
      exact .kept _ hnever
  | created => exact .kept _ hnever
  | executed => exact .kept _ hnever
  | cancelled => exact .kept _ hnever

/-- A verified wallet has been proven. -/
def Backed (crypto : Crypto) (es : List (Step contract)) (recipient : Address)
    (row : Option PayoutWallet) : Prop :=
  ∀ binding, row = some binding → binding.verified = true →
    Happened (Proves crypto recipient binding) es

theorem Backed.step {row row' : Option PayoutWallet} (h : Backed crypto es recipient row)
    (hmove : BindingMove contract crypto e.pre e.input.call recipient row row')
    (hopened : ∀ n challenge, e.pre.challenge n = some challenge →
      challenge.id = n ∧ Happened (Opens challenge) es) :
    Backed crypto (es ++ [e]) recipient row' := by
  intro binding' hrow hverified
  cases hmove with
  | kept => exact (h binding' hrow hverified).snoc e
  | set =>
    cases hrow
    cases hverified
  | confirmed n pubkey signature challenge binding now hconfirms hchecked howner =>
    cases hrow
    obtain ⟨hid, hbefore⟩ := hopened n challenge hchecked.stored
    subst hid
    apply happened_last
    exact ⟨challenge, pubkey, signature, binding, hconfirms, hchecked, howner, hchecked.wallet.symm, rfl,
      hbefore⟩

end Bindings

/-- The books on challenges and wallets, along a run. -/
structure Book (crypto : Crypto) (s : State) (es : List (Step contract)) : Prop where
  handed : Handed s
  consumed : ∀ n, Consumed es n (s.challenge n)
  backed : ∀ recipient, Backed crypto es recipient (s.walletBinding recipient)

theorem run_book (is : List (Input contract)) :
    Book crypto ((machine contract crypto).run State.empty is)
      ((machine contract crypto).journal State.empty is) := by
  refine @Machine.run_journal_invariant _ _ _ _ (machine contract crypto) (fun s es => Book crypto s es)
    State.empty ⟨fun _ _ => rfl, consumed_empty, fun _ _ h => by cases h⟩ ?_ is
  intro es s i o s' hs h
  have heffect := step_effect h
  refine ⟨heffect.handed hs.handed, ?_, ?_⟩
  · intro n
    exact (hs.consumed n).step (e := ⟨s, i, o, s'⟩) (heffect.challengeMove hs.handed n) rfl
  · intro recipient
    apply (hs.backed recipient).step (e := ⟨s, i, o, s'⟩) (heffect.bindingMove recipient)
    intro n challenge hfound
    exact ⟨(hs.consumed n).keyed challenge hfound, (hs.consumed n).opened challenge hfound⟩

/-- In every run each installment is executed at most once, and only while the recipient's wallet is
verified and the one that the intent names, stored intents keep their terms, each challenge is confirmed
at most once, and a wallet is verified only by a signature of its key on a challenge opened for it. -/
theorem run_disbursements (is : List (Input contract)) :
    let es := (machine contract crypto).journal State.empty is
    let s := (machine contract crypto).run State.empty is
    (∀ installment, es.countP (fun e => executedInstallment e = some installment) ≤ 1) ∧
      (∀ js, js <+: is → ∀ id intent,
        ((machine contract crypto).run State.empty js).intent id = some intent →
          ∃ intent', s.intent id = some intent' ∧ intent'.terms = intent.terms) ∧
      (∀ id intent, s.intent id = some intent → intent.status = .executed →
        Happened (Executes intent) es) ∧
      (∀ n, es.countP (fun e => e.input.call.confirms = some n) ≤ 1) ∧
      ∀ recipient binding, s.walletBinding recipient = some binding → binding.verified = true →
        Happened (Proves crypto recipient binding) es := by
  intro es s
  have hbook := @run_book contract crypto is
  refine ⟨run_executed_once is, ?_, ?_, ?_, hbook.backed⟩
  · intro js hjs id intent hfound
    obtain ⟨ks, rfl⟩ := hjs
    have hlater := @run_terms contract crypto id intent _ ks hfound
    rwa [← Machine.run_append] at hlater
  · intro id
    exact (run_accounted is id).executed
  · intro n
    rw [(hbook.consumed n).count]
    split_ifs <;> omega

end ChainVerse.ScholarshipDisbursements
