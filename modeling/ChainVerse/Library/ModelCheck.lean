import ChainVerse.Library.Contract
import ChainVerse.Library.Reference

namespace ChainVerse.LibraryRights

open Reference (Action Model)

variable {contract : Address} {W P : Type}

section Harness

theorem saturatingAdd_lt {a b : Nat} : saturatingAdd a b < 2^64 := by
  unfold saturatingAdd
  omega

/-- An invocation at time `t` that an account has signed, once or twice, and perhaps others. -/
def signedWith (contract : Address) (t : Nat) (h : t < 2^64) (caller : Address) (twice : Bool)
    (cosigners : Address → Bool) : Env contract :=
  { Env.signedByAll contract t h with
    signers := fun a => a ≠ contract ∧ (a = caller ∨ cosigners a = true)
    contract_not_signer := by simp
    secondSigners := fun a => a = caller ∧ twice = true }

/-- The works and the patrons of a model as the contract knows them, and the policy manager who puts the
works. -/
structure Fixture (contract : Address) (W P : Type) where
  crypto : Crypto
  registries : Registries
  works : W → Bytes32
  works_injective : works.Injective
  patrons : P → Address
  patrons_injective : patrons.Injective
  patron_ne : ∀ patron, patrons patron ≠ contract
  policyManager : Address
  policyManager_ne : policyManager ≠ contract
  policyId : Symbol

/-- The contract and the clock of its ledger. -/
structure Harness where
  state : State
  now : Nat
  now_lt : now < 2^64

/-- An action, with what the harness makes up for it. -/
structure Move (W P : Type) where
  action : Action W P
  /-- The caller submits two authorization entries. -/
  twice : Bool
  cosigners : Address → Bool
  workHash : Bytes32
  custodian : Address

variable (fx : Fixture contract W P)

/-- A call at the time of the ledger, by somebody who signs it. -/
def Fixture.send (h : Harness) (move : Move W P) (caller : Address) (call : LendCall) :
    Outcome (Answer × Harness) :=
  (fun after => (after.1, { h with state := after.2 })) <$>
    (machine contract fx.crypto).step h.state
      ⟨signedWith contract h.now h.now_lt caller move.twice move.cosigners, fx.registries, .lend call⟩

/-- `execute`: the patrons call for themselves. -/
def Fixture.execute (h : Harness) (move : Move W P) : Outcome (Answer × Harness) :=
  match move.action with
  | .putWork work =>
    fx.send h move fx.policyManager
      (.putWork fx.policyManager (fx.works work) move.workHash move.custodian fx.policyId)
  | .borrow work patron =>
    fx.send h move (fx.patrons patron)
      (.borrowWork (fx.patrons patron) (fx.works work) (fx.patrons patron))
  | .giveBack work patron =>
    fx.send h move (fx.patrons patron)
      (.returnWork (fx.patrons patron) (fx.works work) (fx.patrons patron))
  | .placeHold work patron =>
    fx.send h move (fx.patrons patron)
      (.placeHold (fx.patrons patron) (fx.works work) (fx.patrons patron))
  | .claimHold work patron =>
    fx.send h move (fx.patrons patron)
      (.claimHold (fx.patrons patron) (fx.works work) (fx.patrons patron))
  | .advanceTime secs =>
    pure (.none, { h with now := saturatingAdd h.now secs, now_lt := saturatingAdd_lt })

def Fixture.machine : Machine Harness (Move W P) Answer (Abort ContractError) where
  step := fx.execute

/-- The key of the loan and of the hold of a patron on a work. -/
def Fixture.slot (x : W × P) : Bytes32 × Address := (fx.works x.1, fx.patrons x.2)

theorem Fixture.slot_injective : fx.slot.Injective := by
  intro x y h
  obtain ⟨hwork, hpatron⟩ := Prod.mk.inj h
  exact Prod.ext (fx.works_injective hwork) (fx.patrons_injective hpatron)

def Fixture.loanRow (x : W × P) (expiry : Nat) : LoanRow :=
  .borrowed { workId := fx.works x.1, borrower := fx.patrons x.2, expiry }

def Fixture.holdRow (x : W × P) (hold : Reference.Hold) : HoldRecord :=
  { workId := fx.works x.1, holder := fx.patrons x.2, expiry := hold.expiresAt }

/-- The contract is set up, and its gates are open. -/
structure Fixture.Open (s : State) : Prop where
  active : s.pause = none
  writable : isMigrating s = false
  manager : s.governance.role .policyManager = some fx.policyManager
  librarian : s.governance.role .librarian ≠ none
  policy : s.lending.policy fx.policyId ≠ none

/-- Nothing has been put, lent or held. -/
structure Fixture.Ready (s : State) : Prop extends fx.Open s where
  works : ∀ id, s.lending.work id = none
  loans : ∀ slot, s.lending.loan slot = none
  holds : ∀ slot, s.lending.hold slot = none

/-- The contract has the loans and holds of the model, with their expiries, and no others. -/
structure Fixture.Agrees (h : Harness) (m : Model W P) : Prop where
  now : h.now = m.now
  opened : fx.Open h.state
  work : ∀ work, (h.state.lending.work (fx.works work)).isSome = m.workRegistered work
  loans : Mirrored fx.slot h.state.lending.loan fun x => (m.loanExpiry x).map (fx.loanRow x)
  holds : Mirrored fx.slot h.state.lending.hold fun x => (m.hold x).map (fx.holdRow x)
  held : ∀ work patron, m.hold (work, patron) ≠ none → m.workRegistered work = true

end Harness

section Calls

variable {env : Env contract} {s : State} {caller : Address}

/-- The contract is neither paused nor migrating. -/
structure Gates (s : State) : Prop where
  active : s.pause = none
  writable : isMigrating s = false

theorem Gates.pass (hgates : Gates s) :
    ensureActive s = .ok () ∧ ensureWritable s = .ok () := by
  simp [ensureActive, ensureWritable, hgates.active, hgates.writable]

/-- Behind open gates a signed loan asks for the work and for room, and adds up the expiry. -/
theorem borrowWork_passed (hgates : Gates s) (hsigned : env.signers caller = true) (workId : Bytes32)
    (borrower : Address) :
    borrowWork env s caller workId borrower =
      (refuseIf ((s.lending.work workId).isNone = true) (.err .workNotFound) >>= fun _ =>
        refuseIf ((s.lending.loan (workId, borrower)).isSome = true) (.err .unknown) >>= fun _ =>
          orRefuse (fitsU 64 (env.timestamp + loanSecs)) .overflow >>= fun expiry =>
            pure (setLoan s.lending workId borrower (.borrowed { workId, borrower, expiry }))) := by
  have hauth : (requireAuth env caller : Outcome Unit) = .ok () := requireAuth_eq_ok.mpr hsigned
  rw [borrowWork, hgates.pass.1, ok_bind, hauth, ok_bind, hgates.pass.2, ok_bind]

theorem placeHold_passed (hgates : Gates s) (hsigned : env.signers caller = true) (workId : Bytes32)
    (holder : Address) :
    placeHold env s caller workId holder =
      (refuseIf ((s.lending.work workId).isNone = true) (.err .workNotFound) >>= fun _ =>
        refuseIf ((s.lending.hold (workId, holder)).isSome = true) (.err .unknown) >>= fun _ =>
          orRefuse (fitsU 64 (env.timestamp + holdSecs)) .overflow >>= fun expiry =>
            pure { s.lending with
              hold := Function.update s.lending.hold (workId, holder)
                (some { workId, holder, expiry }) }) := by
  have hauth : (requireAuth env caller : Outcome Unit) = .ok () := requireAuth_eq_ok.mpr hsigned
  rw [placeHold, hgates.pass.1, ok_bind, hauth, ok_bind, hgates.pass.2, ok_bind]

theorem claimHold_passed (hgates : Gates s) (hsigned : env.signers caller = true) (workId : Bytes32)
    (holder : Address) :
    claimHold env s caller workId holder =
      (orRefuse (s.lending.hold (workId, holder)) (.err .holdNotFound) >>= fun hold =>
        refuseIf (hold.expiry < env.timestamp) (.err .holdExpired) >>= fun _ =>
          refuseIf (caller ≠ hold.holder) (.err .unauthorized) >>= fun _ =>
            requireAuthAgain env caller >>= fun _ =>
              borrowWork env s caller workId holder >>= fun l =>
                pure { l with hold := Function.update l.hold (workId, holder) none }) := by
  have hauth : (requireAuth env caller : Outcome Unit) = .ok () := requireAuth_eq_ok.mpr hsigned
  rw [claimHold, hgates.pass.1, ok_bind, hauth, ok_bind]

theorem putWork_known {policyId : Symbol} {policy : Policy} (hgates : Gates s)
    (hsigned : env.signers caller = true) (hmanager : s.governance.role .policyManager = some caller)
    (hpolicy : s.lending.policy policyId = some policy) (workId workHash : Bytes32)
    (custodian : Address) :
    putWork env s caller workId workHash custodian policyId = .ok { s.lending with
      work := Function.update s.lending.work workId (some { workHash, custodian, policyId }) } := by
  simp [putWork, ensureActive, requireRole, getRole, requireAuth, ensureWritable, getPolicy, refuseIf,
    orRefuse, hgates.active, hgates.writable, hsigned, hmanager, hpolicy]

end Calls

section Sending

variable {fx : Fixture contract W P} {h : Harness} {move : Move W P} {caller : Address}
variable {call : LendCall}

/-- The invocation in which a call of the harness arrives. -/
abbrev Fixture.envOf (h : Harness) (move : Move W P) (caller : Address) : Env contract :=
  signedWith contract h.now h.now_lt caller move.twice move.cosigners

theorem signedWith_caller {t : Nat} {ht : t < 2^64} {twice : Bool} {cosigners : Address → Bool}
    (hne : caller ≠ contract) :
    (signedWith contract t ht caller twice cosigners).signers caller = true := by
  simp [signedWith, hne]

theorem signedWith_again {t : Nat} {ht : t < 2^64} {twice : Bool} {cosigners : Address → Bool} :
    (signedWith contract t ht caller twice cosigners).secondSigners caller = twice := by
  simp [signedWith]

theorem send_ok {l : Lending}
    (hcall : lend (Fixture.envOf h move caller : Env contract) fx.crypto fx.registries h.state call =
      .ok (.none, l)) :
    fx.send h move caller call = .ok (.none, { h with state := { h.state with lending := l } }) := by
  simp only [Fixture.send, machine, execute, hcall]
  rfl

theorem send_error {x : Abort ContractError}
    (hcall : lend (Fixture.envOf h move caller : Env contract) fx.crypto fx.registries h.state call =
      .error x) : fx.send h move caller call = .error x := by
  simp only [Fixture.send, machine, execute, hcall]
  rfl

end Sending

section Steps

variable {fx : Fixture contract W P} {h : Harness} {m : Model W P} {move : Move W P}
variable {work : W} {patron : P}

theorem Fixture.Open.gates {s : State} (hs : fx.Open s) : Gates s := ⟨hs.active, hs.writable⟩

/-- A write to the works, loans and holds leaves the gates open. -/
theorem Fixture.Open.write {s : State} (hs : fx.Open s) {l : Lending}
    (hpolicy : l.policy = s.lending.policy) : fx.Open { s with lending := l } := by
  obtain ⟨hactive, hwritable, hmanager, hlibrarian, hstored⟩ := hs
  exact ⟨hactive, hwritable, hmanager, hlibrarian, by rwa [hpolicy]⟩

theorem Fixture.Agrees.work_isNone (hm : fx.Agrees h m) :
    (h.state.lending.work (fx.works work)).isNone = !m.workRegistered work := by
  rw [← hm.work work, Option.not_isSome]

theorem Fixture.Agrees.loan_isSome (hm : fx.Agrees h m) :
    (h.state.lending.loan (fx.works work, fx.patrons patron)).isSome = m.hasLoan work patron := by
  have hsame := hm.loans.inside (work, patron)
  rw [Fixture.slot] at hsame
  rw [hsame, Option.isSome_map, Model.hasLoan]

theorem Fixture.Agrees.hold_eq (hm : fx.Agrees h m) :
    h.state.lending.hold (fx.works work, fx.patrons patron) =
      (m.hold (work, patron)).map (fx.holdRow (work, patron)) :=
  hm.holds.inside (work, patron)

theorem Fixture.Agrees.hold_isSome (hm : fx.Agrees h m) :
    (h.state.lending.hold (fx.works work, fx.patrons patron)).isSome = m.hasHold work patron := by
  rw [hm.hold_eq, Option.isSome_map, Model.hasHold]

/-- What `borrow_work` answers to a patron, as the model has it. -/
theorem Fixture.Agrees.borrowWork_eq (hm : fx.Agrees h m) {env : Env contract} {caller : Address}
    (hsigned : env.signers caller = true) (htime : env.timestamp = h.now) (work : W) (patron : P) :
    (m.workRegistered work = false ∨ m.hasLoan work patron = true ∨
        fitsU 64 (m.now + Reference.loanSecs) = none) ∧
      (∃ x, borrowWork env h.state caller (fx.works work) (fx.patrons patron) = .error x) ∨
    ∃ expiry, m.workRegistered work = true ∧ m.hasLoan work patron = false ∧
      fitsU 64 (m.now + Reference.loanSecs) = some expiry ∧
      borrowWork env h.state caller (fx.works work) (fx.patrons patron) =
        .ok (setLoan h.state.lending (fx.works work) (fx.patrons patron)
          (fx.loanRow (work, patron) expiry)) := by
  have hborrow := borrowWork_passed hm.opened.gates hsigned (fx.works work) (fx.patrons patron)
  rw [hm.work_isNone, hm.loan_isSome, htime, hm.now] at hborrow
  cases hwork : m.workRegistered work with
  | false =>
    rw [hwork] at hborrow
    exact .inl ⟨.inl rfl, _, hborrow⟩
  | true =>
    cases hlent : m.hasLoan work patron with
    | true =>
      rw [hwork, hlent] at hborrow
      exact .inl ⟨.inr (.inl rfl), _, hborrow⟩
    | false =>
      cases hexpiry : fitsU 64 (m.now + Reference.loanSecs) with
      | none =>
        have htrap : fitsU 64 (m.now + loanSecs) = none := hexpiry
        rw [hwork, hlent, htrap] at hborrow
        exact .inl ⟨.inr (.inr rfl), _, hborrow⟩
      | some expiry =>
        have hfits : fitsU 64 (m.now + loanSecs) = some expiry := hexpiry
        rw [hwork, hlent, hfits] at hborrow
        exact .inr ⟨expiry, rfl, rfl, rfl, hborrow⟩

/-- A claim with one authorization entry is refused, whatever the hold. -/
theorem Fixture.claimHold_once (haction : move.action = .claimHold work patron)
    (honce : move.twice = false) : ∃ x, fx.execute h move = .error x := by
  have hsent : fx.execute h move = fx.send h move (fx.patrons patron)
      (.claimHold (fx.patrons patron) (fx.works work) (fx.patrons patron)) := by
    rw [Fixture.execute, haction]
  rcases hclaim : claimHold (Fixture.envOf h move (fx.patrons patron) : Env contract) h.state
      (fx.patrons patron) (fx.works work) (fx.patrons patron) with x | l
  · exact ⟨x, hsent.trans (send_error (congrArg (silent <$> ·) hclaim))⟩
  · simp only [claimHold, bind_eq_ok, exists_unit, requireAuthAgain_eq_ok] at hclaim
    obtain ⟨_, _, hold, _, _, _, hagain, _⟩ := hclaim
    rw [signedWith_again, honce] at hagain
    cases hagain

variable [DecidableEq W] [DecidableEq P]

/-- The loan of one pair is written on both sides. -/
theorem Fixture.Agrees.writeLoan (hm : fx.Agrees h m) (x : W × P) (expiry : Option Nat) :
    Mirrored fx.slot
      (Function.update h.state.lending.loan (fx.slot x) (expiry.map (fx.loanRow x)))
      fun y => (Function.update m.loanExpiry x expiry y).map (fx.loanRow y) := by
  have hrows : (fun y => (Function.update m.loanExpiry x expiry y).map (fx.loanRow y)) =
      Function.update (fun y => (m.loanExpiry y).map (fx.loanRow y)) x
        (expiry.map (fx.loanRow x)) := by
    funext y
    exact Function.apply_update (fun y (row : Option Nat) => row.map (fx.loanRow y)) m.loanExpiry x
      expiry y
  rw [hrows]
  exact hm.loans.update fx.slot_injective x _

/-- The hold of one pair is written on both sides. -/
theorem Fixture.Agrees.writeHold (hm : fx.Agrees h m) (x : W × P) (hold : Option Reference.Hold) :
    Mirrored fx.slot
      (Function.update h.state.lending.hold (fx.slot x) (hold.map (fx.holdRow x)))
      fun y => (Function.update m.hold x hold y).map (fx.holdRow y) := by
  have hrows : (fun y => (Function.update m.hold x hold y).map (fx.holdRow y)) =
      Function.update (fun y => (m.hold y).map (fx.holdRow y)) x (hold.map (fx.holdRow x)) := by
    funext y
    exact Function.apply_update (fun y (row : Option Reference.Hold) => row.map (fx.holdRow y)) m.hold
      x hold y
  rw [hrows]
  exact hm.holds.update fx.slot_injective x _

/-- Whoever holds a work has it registered, also when a hold on a registered work is written. -/
theorem Fixture.Agrees.held_write (hm : fx.Agrees h m) (hknown : m.workRegistered work = true)
    (row : Option Reference.Hold) (other : W) (holder : P)
    (hstored : Function.update m.hold (work, patron) row (other, holder) ≠ none) :
    m.workRegistered other = true := by
  by_cases hother : other = work
  · rw [hother]
    exact hknown
  · apply hm.held other holder
    have hne : (other, holder) ≠ (work, patron) := fun heq => hother (Prod.mk.inj heq).1
    rwa [Function.update_of_ne hne] at hstored

/-- What the contract answers to an action, and the model. -/
def Fixture.Matches (fx : Fixture contract W P) (h : Harness) (m : Model W P) (move : Move W P) : Prop :=
  Together fx.Agrees (fx.execute h move) ((Reference.machine W P).step m move.action)

theorem Fixture.matches_refused {caller : Address} {call : LendCall} {result : Outcome Lending}
    {x : Abort ContractError} (hsent : fx.execute h move = fx.send h move caller call)
    (hlend : lend (Fixture.envOf h move caller : Env contract) fx.crypto fx.registries h.state call =
      silent <$> result) (hresult : result = .error x) (hmodel : m.apply move.action = none) :
    fx.Matches h m move := by
  rw [hresult] at hlend
  have hcontract : fx.execute h move = .error x := hsent.trans (send_error hlend)
  simp only [Fixture.Matches, hcontract, Reference.machine, hmodel, orRefuse]
  exact .refused x ()

theorem Fixture.matches_accepted {caller : Address} {call : LendCall} {result : Outcome Lending}
    {l : Lending} {m' : Model W P} (hsent : fx.execute h move = fx.send h move caller call)
    (hlend : lend (Fixture.envOf h move caller : Env contract) fx.crypto fx.registries h.state call =
      silent <$> result) (hresult : result = .ok l) (hmodel : m.apply move.action = some m')
    (hagrees : fx.Agrees { h with state := { h.state with lending := l } } m') :
    fx.Matches h m move := by
  rw [hresult] at hlend
  have hcontract := hsent.trans (send_ok hlend)
  simp only [Fixture.Matches, hcontract, Reference.machine, hmodel, orRefuse]
  exact .accepted hagrees

theorem Fixture.Agrees.putWork (hm : fx.Agrees h m) (haction : move.action = .putWork work) :
    fx.Matches h m move := by
  have hsigned : (Fixture.envOf h move fx.policyManager : Env contract).signers fx.policyManager = true :=
    signedWith_caller fx.policyManager_ne
  obtain ⟨policy, hpolicy⟩ := Option.ne_none_iff_exists'.mp hm.opened.policy
  have hput := putWork_known hm.opened.gates hsigned hm.opened.manager hpolicy (fx.works work)
    move.workHash move.custodian
  have hsent : fx.execute h move = fx.send h move fx.policyManager
      (.putWork fx.policyManager (fx.works work) move.workHash move.custodian fx.policyId) := by
    rw [Fixture.execute, haction]
  have hmodel : m.apply move.action =
      some { m with workRegistered := Function.update m.workRegistered work true } := by
    rw [haction, Model.apply]
  refine Fixture.matches_accepted hsent rfl hput hmodel ?_
  refine ⟨hm.now, hm.opened.write rfl, ?_, hm.loans, hm.holds, ?_⟩
  · intro other
    by_cases hother : other = work
    · simp [hother]
    · simp [hother, fx.works_injective.ne hother, hm.work other]
  · intro other patron hheld
    by_cases hother : other = work
    · simp [hother]
    · simp [hother, hm.held other patron hheld]

theorem Fixture.Agrees.borrow (hm : fx.Agrees h m) (haction : move.action = .borrow work patron) :
    fx.Matches h m move := by
  have hsigned : (Fixture.envOf h move (fx.patrons patron) : Env contract).signers (fx.patrons patron) =
      true := signedWith_caller (fx.patron_ne patron)
  have hsent : fx.execute h move = fx.send h move (fx.patrons patron)
      (.borrowWork (fx.patrons patron) (fx.works work) (fx.patrons patron)) := by
    rw [Fixture.execute, haction]
  rcases hm.borrowWork_eq hsigned rfl work patron with
    ⟨hrefused, x, hborrow⟩ | ⟨expiry, hwork, hlacks, hfits, hborrow⟩
  · refine Fixture.matches_refused hsent rfl hborrow ?_
    rw [haction, Model.apply]
    split_ifs with hwork hlent
    · rfl
    · rfl
    · rw [(hrefused.resolve_left hwork).resolve_left hlent, Option.map_none]
  · have hmodel : m.apply move.action = some { m with
        loanExpiry := Function.update m.loanExpiry (work, patron) (some expiry)
        borrows := m.borrows + 1 } := by
      rw [haction, Model.apply, if_neg (by simp [hwork]), if_neg (by simp [hlacks]), hfits,
        Option.map_some]
    refine Fixture.matches_accepted hsent rfl hborrow hmodel ?_
    exact ⟨hm.now, hm.opened.write rfl, hm.work, hm.writeLoan (work, patron) (some expiry), hm.holds,
      hm.held⟩

theorem Fixture.Agrees.giveBack (hm : fx.Agrees h m) (haction : move.action = .giveBack work patron) :
    fx.Matches h m move := by
  have hsent : fx.execute h move = fx.send h move (fx.patrons patron)
      (.returnWork (fx.patrons patron) (fx.works work) (fx.patrons patron)) := by
    rw [Fixture.execute, haction]
  obtain ⟨librarian, hlibrarian⟩ := Option.ne_none_iff_exists'.mp hm.opened.librarian
  have hreturn : returnWork h.state (fx.patrons patron) (fx.works work) (fx.patrons patron) =
      if (h.state.lending.loan (fx.works work, fx.patrons patron)).isSome = true then
        .ok (removeLoan h.state.lending (fx.works work) (fx.patrons patron))
      else .ok h.state.lending := by
    simp [returnWork, getRole, hlibrarian, orRefuse, refuseIf, pure, Except.pure]
  rw [hm.loan_isSome] at hreturn
  by_cases hlent : m.hasLoan work patron = true
  · have hmodel : m.apply move.action = some { m with
        loanExpiry := Function.update m.loanExpiry (work, patron) none
        terminations := m.terminations + 1 } := by
      rw [haction, Model.apply, if_pos hlent]
    refine Fixture.matches_accepted hsent rfl (hreturn.trans (if_pos hlent)) hmodel ?_
    exact ⟨hm.now, hm.opened.write rfl, hm.work, hm.writeLoan (work, patron) none, hm.holds, hm.held⟩
  · have hmodel : m.apply move.action = some m := by
      rw [haction, Model.apply, if_neg hlent]
    refine Fixture.matches_accepted hsent rfl (hreturn.trans (if_neg hlent)) hmodel ?_
    exact ⟨hm.now, hm.opened.write rfl, hm.work, hm.loans, hm.holds, hm.held⟩

theorem Fixture.Agrees.placeHold (hm : fx.Agrees h m) (haction : move.action = .placeHold work patron) :
    fx.Matches h m move := by
  have hsigned : (Fixture.envOf h move (fx.patrons patron) : Env contract).signers (fx.patrons patron) =
      true := signedWith_caller (fx.patron_ne patron)
  have hsent : fx.execute h move = fx.send h move (fx.patrons patron)
      (.placeHold (fx.patrons patron) (fx.works work) (fx.patrons patron)) := by
    rw [Fixture.execute, haction]
  have htime : (Fixture.envOf h move (fx.patrons patron) : Env contract).timestamp = m.now := hm.now
  have hplace := placeHold_passed hm.opened.gates hsigned (fx.works work) (fx.patrons patron)
  rw [hm.work_isNone, hm.hold_isSome, htime] at hplace
  cases hwork : m.workRegistered work with
  | false =>
    rw [hwork] at hplace
    refine Fixture.matches_refused hsent rfl hplace ?_
    rw [haction, Model.apply, if_pos hwork]
  | true =>
    have hknown : ¬m.workRegistered work = false := by
      rw [hwork]
      exact Bool.noConfusion
    cases hheld : m.hasHold work patron with
    | true =>
      rw [hwork, hheld] at hplace
      refine Fixture.matches_refused hsent rfl hplace ?_
      rw [haction, Model.apply, if_neg hknown, if_pos hheld]
    | false =>
      have hfree : ¬m.hasHold work patron = true := by
        rw [hheld]
        exact Bool.false_ne_true
      cases hexpiry : fitsU 64 (m.now + Reference.holdSecs) with
      | none =>
        have htrap : fitsU 64 (m.now + holdSecs) = none := hexpiry
        rw [hwork, hheld, htrap] at hplace
        refine Fixture.matches_refused hsent rfl hplace ?_
        rw [haction, Model.apply, if_neg hknown, if_neg hfree, hexpiry, Option.map_none]
      | some expiry =>
        have hfits : fitsU 64 (m.now + holdSecs) = some expiry := hexpiry
        rw [hwork, hheld, hfits] at hplace
        have hmodel : m.apply move.action = some { m with
            hold := Function.update m.hold (work, patron) (some { seq := m.nextSeq, expiresAt := expiry })
            nextSeq := m.nextSeq + 1 } := by
          rw [haction, Model.apply, if_neg hknown, if_neg hfree, hexpiry, Option.map_some]
        refine Fixture.matches_accepted hsent rfl hplace hmodel ?_
        exact ⟨hm.now, hm.opened.write rfl, hm.work, hm.loans,
          hm.writeHold (work, patron) (some { seq := m.nextSeq, expiresAt := expiry }),
          hm.held_write hwork (some { seq := m.nextSeq, expiresAt := expiry })⟩

theorem Fixture.Agrees.claimHold (hm : fx.Agrees h m) (haction : move.action = .claimHold work patron)
    (htwice : move.twice = true) : fx.Matches h m move := by
  have hsigned : (Fixture.envOf h move (fx.patrons patron) : Env contract).signers (fx.patrons patron) =
      true := signedWith_caller (fx.patron_ne patron)
  have hsent : fx.execute h move = fx.send h move (fx.patrons patron)
      (.claimHold (fx.patrons patron) (fx.works work) (fx.patrons patron)) := by
    rw [Fixture.execute, haction]
  have hagain : (requireAuthAgain (Fixture.envOf h move (fx.patrons patron) : Env contract)
      (fx.patrons patron) : Outcome Unit) = .ok () := by
    rw [requireAuthAgain_eq_ok, signedWith_again, htwice]
  have htime : (Fixture.envOf h move (fx.patrons patron) : Env contract).timestamp = m.now := hm.now
  have hclaim := claimHold_passed hm.opened.gates hsigned (fx.works work) (fx.patrons patron)
  rw [hm.hold_eq] at hclaim
  cases hheld : m.hold (work, patron) with
  | none =>
    rw [hheld] at hclaim
    refine Fixture.matches_refused hsent rfl hclaim ?_
    simp only [haction, Model.apply, hheld]
  | some hold =>
    have hown : refuseIf (fx.patrons patron ≠ (fx.holdRow (work, patron) hold).holder)
        (.err .unauthorized : Abort ContractError) = .ok () := by
      rw [refuseIf_eq_ok]
      exact not_not_intro rfl
    rw [hheld, Option.map_some, orRefuse, ok_bind, htime] at hclaim
    by_cases hexpired : hold.expiresAt < m.now
    · have hlate : refuseIf ((fx.holdRow (work, patron) hold).expiry < m.now)
          (.err .holdExpired : Abort ContractError) = .error (.err .holdExpired) := by
        rw [refuseIf_eq_error]
        exact ⟨hexpired, rfl⟩
      rw [hlate] at hclaim
      refine Fixture.matches_refused hsent rfl hclaim ?_
      simp only [haction, Model.apply, hheld, if_pos hexpired]
    · have htimely : refuseIf ((fx.holdRow (work, patron) hold).expiry < m.now)
          (.err .holdExpired : Abort ContractError) = .ok () := by
        rw [refuseIf_eq_ok]
        exact hexpired
      rw [htimely, ok_bind, hown, ok_bind, hagain, ok_bind] at hclaim
      have hknown : m.workRegistered work = true := by
        apply hm.held work patron
        rw [hheld]
        exact Option.some_ne_none hold
      rcases hm.borrowWork_eq hsigned rfl work patron with
        ⟨hrefused, x, hborrow⟩ | ⟨expiry, _, hlacks, hfits, hborrow⟩
      · rw [hborrow] at hclaim
        refine Fixture.matches_refused hsent rfl hclaim ?_
        have hreason := hrefused.resolve_left (by rw [hknown]; exact Bool.noConfusion)
        simp only [haction, Model.apply, hheld, if_neg hexpired]
        split_ifs with hlent
        · rfl
        · rw [hreason.resolve_left hlent, Option.map_none]
      · rw [hborrow, ok_bind] at hclaim
        have hmodel : m.apply move.action = some { m with
            loanExpiry := Function.update m.loanExpiry (work, patron) (some expiry)
            borrows := m.borrows + 1
            hold := Function.update m.hold (work, patron) none } := by
          simp only [haction, Model.apply, hheld, if_neg hexpired, hlacks, hfits, Option.map_some,
            if_neg Bool.false_ne_true]
        refine Fixture.matches_accepted hsent rfl hclaim hmodel ?_
        exact ⟨hm.now, hm.opened.write rfl, hm.work, hm.writeLoan (work, patron) (some expiry),
          hm.writeHold (work, patron) none, hm.held_write hknown none⟩

theorem Fixture.Agrees.advanceTime {secs : Nat} (hm : fx.Agrees h m)
    (haction : move.action = .advanceTime secs) : fx.Matches h m move := by
  have hmodel : m.apply move.action = some { m with now := saturatingAdd m.now secs } := by
    rw [haction, Model.apply]
  have hcontract : fx.execute h move =
      .ok (.none, { h with now := saturatingAdd h.now secs, now_lt := saturatingAdd_lt }) := by
    rw [Fixture.execute, haction]
    rfl
  simp only [Fixture.Matches, hcontract, Reference.machine, hmodel, orRefuse]
  refine .accepted ⟨?_, hm.opened, hm.work, hm.loans, hm.holds, hm.held⟩
  exact congrArg (saturatingAdd · secs) hm.now

/-- A claim of a hold that can be claimed comes with two authorization entries of its caller. -/
def Move.Entered (m : Model W P) (move : Move W P) : Prop :=
  ∀ work patron, move.action = .claimHold work patron → m.Claimable work patron → move.twice = true

/-- The contract and the model take every action together, when its claims come with two entries. -/
theorem Fixture.Agrees.matches (hm : fx.Agrees h m) (hentered : move.Entered m) :
    fx.Matches h m move := by
  cases haction : move.action with
  | putWork work => exact hm.putWork haction
  | borrow work patron => exact hm.borrow haction
  | giveBack work patron => exact hm.giveBack haction
  | placeHold work patron => exact hm.placeHold haction
  | claimHold work patron =>
    cases htwice : move.twice with
    | true => exact hm.claimHold haction htwice
    | false =>
      obtain ⟨x, hcontract⟩ := fx.claimHold_once (h := h) haction htwice
      have hmodel : m.apply move.action = none := by
        by_contra haccepted
        rw [haction] at haccepted
        rw [hentered work patron haction (Reference.claimable_iff.mpr haccepted)] at htwice
        cases htwice
      simp only [Fixture.Matches, hcontract, Reference.machine, hmodel, orRefuse]
      exact .refused x ()
  | advanceTime secs => exact hm.advanceTime haction

/-- Without the second entry the model accepts the claim alone. -/
theorem Fixture.parts (hentered : ¬move.Entered m) :
    fx.machine.acceptances h [move] ≠ (Reference.machine W P).acceptances m [move.action] := by
  simp only [Move.Entered, not_forall, Bool.not_eq_true] at hentered
  obtain ⟨work, patron, haction, hclaimable, honce⟩ := hentered
  obtain ⟨x, hcontract⟩ := fx.claimHold_once (h := h) haction honce
  obtain ⟨m', hmodel⟩ := Option.ne_none_iff_exists'.mp (Reference.claimable_iff.mp hclaimable)
  rw [← haction] at hmodel
  have hrefused : fx.machine.step h move = .error x := hcontract
  simp [Machine.acceptances, hrefused, Reference.machine, hmodel, orRefuse]

end Steps

section Runs

variable {fx : Fixture contract W P} {h : Harness} {m : Model W P} {s : State}

theorem Fixture.Ready.agrees (hready : fx.Ready s) (now : Nat) (hnow : now < 2^64) :
    fx.Agrees ⟨s, now, hnow⟩ (Model.fresh now : Model W P) := by
  have hloans : s.lending.loan = fun _ => none := funext hready.loans
  have hholds : s.lending.hold = fun _ => none := funext hready.holds
  refine ⟨rfl, hready.toOpen, ?_, ?_, ?_, ?_⟩
  · intro work
    rw [hready.works]
    rfl
  · rw [hloans]
    exact mirrored_empty
  · rw [hholds]
    exact mirrored_empty
  · intro work patron hheld
    exact absurd rfl hheld

/-- A loan of the contract is the loan of the model with the same expiry for the same pair. -/
theorem Fixture.Agrees.loan_iff (hm : fx.Agrees h m) (slot : Bytes32 × Address) (row : LoanRow) :
    h.state.lending.loan slot = some row ↔
      ∃ x expiry, fx.slot x = slot ∧ m.loanExpiry x = some expiry ∧ fx.loanRow x expiry = row := by
  rw [hm.loans.some_iff]
  simp only [Option.map_eq_some_iff, ← exists_and_left]

theorem Fixture.Agrees.hold_iff (hm : fx.Agrees h m) (slot : Bytes32 × Address) (row : HoldRecord) :
    h.state.lending.hold slot = some row ↔
      ∃ x hold, fx.slot x = slot ∧ m.hold x = some hold ∧ fx.holdRow x hold = row := by
  rw [hm.holds.some_iff]
  simp only [Option.map_eq_some_iff, ← exists_and_left]

/-- The contract has a loan for the pairs of the model and for no others. -/
theorem Fixture.Agrees.lent_eq (hm : fx.Agrees h m) :
    {slot | h.state.lending.loan slot ≠ none} = fx.slot '' {x | m.loanExpiry x ≠ none} := by
  ext slot
  simp only [Set.mem_ofPred_eq, Set.mem_image, Option.ne_none_iff_exists']
  constructor
  · intro hlent
    obtain ⟨row, hrow⟩ := hlent
    obtain ⟨x, expiry, hslot, hexpiry, _⟩ := (hm.loan_iff slot row).mp hrow
    exact ⟨x, ⟨expiry, hexpiry⟩, hslot⟩
  · intro hlent
    obtain ⟨x, ⟨expiry, hexpiry⟩, hslot⟩ := hlent
    exact ⟨_, (hm.loan_iff slot _).mpr ⟨x, expiry, hslot, hexpiry, rfl⟩⟩

variable [DecidableEq W] [DecidableEq P]

/-- After moves of which every claim comes with two entries, contract and model agree. -/
theorem run_agrees (hready : fx.Ready s) (now : Nat) (hnow : now < 2^64) {moves : List (Move W P)}
    (hentered : ∀ earlier move later, moves = earlier ++ move :: later →
      move.Entered ((Reference.machine W P).run (Model.fresh now) (earlier.map Move.action))) :
    fx.Agrees (fx.machine.run ⟨s, now, hnow⟩ moves)
      ((Reference.machine W P).run (Model.fresh now) (moves.map Move.action)) :=
  Machine.run_together (P := fun (m : Model W P) (move : Move W P) => move.Entered m)
    (fun _ _ _ hm hmove => hm.matches hmove) (hready.agrees now hnow) hentered

/-- The contract and the model accept the same actions, have the same loans and holds after them, are
changed by none that they refuse, and made as many loans as were ended and are still held, exactly
when each claim of a live hold, by a patron without the loan, comes with two authorization entries. -/
theorem run_reference (fx : Fixture contract W P) (s : State) (hready : fx.Ready s) (now : Nat)
    (hnow : now < 2^64) (moves : List (Move W P)) :
    let start : Harness := ⟨s, now, hnow⟩
    let actions := moves.map Move.action
    let h := fx.machine.run start moves
    let m := (Reference.machine W P).run (Model.fresh now) actions
    (fx.machine.acceptances start moves = (Reference.machine W P).acceptances (Model.fresh now) actions ∧
      h.now = m.now ∧
      (∀ slot row, h.state.lending.loan slot = some row ↔
        ∃ x expiry, fx.slot x = slot ∧ m.loanExpiry x = some expiry ∧ fx.loanRow x expiry = row) ∧
      (∀ slot row, h.state.lending.hold slot = some row ↔
        ∃ x hold, fx.slot x = slot ∧ m.hold x = some hold ∧ fx.holdRow x hold = row) ∧
      (∀ earlier move later, moves = earlier ++ move :: later →
        let before := fx.machine.run start earlier
        let model := (Reference.machine W P).run (Model.fresh now) (earlier.map Move.action)
        fx.machine.acceptances before [move] = [false] →
          fx.machine.next before move = before ∧
            (Reference.machine W P).next model move.action = model) ∧
      {slot | h.state.lending.loan slot ≠ none}.Finite ∧
      m.borrows = m.terminations + {slot | h.state.lending.loan slot ≠ none}.ncard) ↔
    ∀ earlier move later, moves = earlier ++ move :: later →
      move.Entered ((Reference.machine W P).run (Model.fresh now) (earlier.map Move.action)) := by
  intro start actions h m
  have hexact := Machine.acceptances_eq_iff (m := fx.machine) (n := Reference.machine W P)
    (f := Move.action) (P := fun (m : Model W P) (move : Move W P) => move.Entered m)
    (fun _ _ _ hm hmove => Fixture.Agrees.matches hm hmove)
    (fun _ _ _ _ hmove => Fixture.parts hmove) (hready.agrees now hnow) moves
  constructor
  · intro hrefines
    exact hexact.mp hrefines.1
  · intro hentered
    have hagrees : fx.Agrees h m := run_agrees hready now hnow hentered
    have hcounted := Reference.counted_run now actions
    have hloans := hagrees.lent_eq
    refine ⟨hexact.mpr hentered, hagrees.now, hagrees.loan_iff, hagrees.hold_iff, ?_, ?_, ?_⟩
    · intro earlier move later hmoves before model hrefused
      have hbefore : fx.Agrees before model := by
        apply run_agrees hready now hnow
        intro first other rest hearlier
        apply hentered first other (rest ++ move :: later)
        rw [hmoves, hearlier, List.append_assoc, List.cons_append]
      have hmatch : Together fx.Agrees (fx.machine.step before move)
          ((Reference.machine W P).step model move.action) :=
        hbefore.matches (hentered earlier move later hmoves)
      cases hcontract : fx.machine.step before move with
      | ok after => simp [Machine.acceptances, hcontract] at hrefused
      | error e =>
        rw [hcontract] at hmatch
        cases hmodel : (Reference.machine W P).step model move.action with
        | ok after =>
          rw [hmodel] at hmatch
          cases hmatch
        | error f => exact ⟨Machine.next_error _ hcontract, Machine.next_error _ hmodel⟩
    · rw [hloans]
      exact hcounted.finite.image _
    · rw [hloans, Set.ncard_image_of_injective _ fx.slot_injective]
      exact hcounted.count

end Runs

def sampleFixture : Fixture ⟨0⟩ Bool Bool where
  crypto := sampleCrypto
  registries := sampleRegistries
  works work := if work then 1 else 2
  works_injective := by decide
  patrons patron := if patron then ⟨8⟩ else ⟨9⟩
  patrons_injective := by decide
  patron_ne := by decide
  policyManager := ⟨3⟩
  policyManager_ne := by decide
  policyId := "p"

def sampleReady : State :=
  (machine ⟨0⟩ sampleCrypto).run State.empty
    [sampleBootstrap, ⟨.sample, sampleRegistries, .lend (.putPolicy ⟨3⟩ "p" 16 64)⟩]

/-- Works are put, lent, held, claimed and given back, each move with as many entries as told. -/
def sampleMoves (twice : Bool) : List (Move Bool Bool) :=
  [.putWork true, .borrow true true, .borrow false true, .placeHold true false, .borrow true true,
    .advanceTime 604800, .claimHold true false, .giveBack true true, .giveBack true true,
    .claimHold true false].map (⟨·, twice, fun _ => false, 5, ⟨3⟩⟩)

theorem sampleReady_ready : sampleFixture.Ready sampleReady := by
  have hopen : sampleFixture.Open sampleReady := by
    constructor <;> decide +kernel
  exact ⟨hopen, fun _ => rfl, fun _ => rfl, fun _ => rfl⟩

/-- The loan of an unknown work, the second loan of a work, and the second claim of a hold are refused. -/
theorem sampleMoves_agree :
    sampleFixture.machine.acceptances ⟨sampleReady, 10, by decide⟩ (sampleMoves true) =
      [true, true, false, true, false, true, true, true, true, false] := by
  have hentered : ∀ earlier move later, sampleMoves true = earlier ++ move :: later →
      move.Entered ((Reference.machine Bool Bool).run (Model.fresh 10) (earlier.map Move.action)) := by
    intro earlier move later hmoves work patron _ _
    have hmem : move ∈ sampleMoves true := hmoves ▸ List.mem_append_cons_self
    obtain ⟨action, _, rfl⟩ := List.mem_map.mp hmem
    rfl
  have hboth := (run_reference sampleFixture sampleReady sampleReady_ready 10 (by decide)
    (sampleMoves true)).mpr hentered
  exact hboth.1.trans (by decide +kernel)

/-- With one entry for each move, as under `mock_all_auths`, the contract refuses the claim that the model
accepts. -/
theorem claim_once_refused :
    sampleFixture.machine.acceptances ⟨sampleReady, 10, by decide⟩ (sampleMoves false) =
        [true, true, false, true, false, true, false, true, true, false] ∧
      (Reference.machine Bool Bool).acceptances (Model.fresh 10)
          ((sampleMoves false).map Move.action) =
        [true, true, false, true, false, true, true, true, true, false] := by
  decide +kernel

end ChainVerse.LibraryRights
