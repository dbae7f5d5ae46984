import ChainVerse.Library.Steps

namespace ChainVerse.LibraryRights

section Loans

variable {contract : Address} {crypto : Crypto} {registries : Registries} {env : Env contract}
variable {s : State} {l : Lending} {caller borrower : Address} {workId courseId : Bytes32}

/-- Who may name himself the caller of a return. -/
structure MayReturn (s : State) (caller borrower : Address) : Prop where
  staffed : s.governance.role .librarian ≠ none
  named : caller = borrower ∨ s.governance.role .librarian = some caller

/-- Everything that an accepted lending call can do. -/
inductive Lends (env : Env contract) (crypto : Crypto) (s : State) :
    LendCall → Answer → Lending → Prop where
  | putPolicy {caller : Address} {policyId : Symbol} {perPatron most : Nat} :
      Lends env crypto s (.putPolicy caller policyId perPatron most) .none
        (setPolicy s.lending policyId
          { maxConcurrentLoansPerPatron := perPatron
            totalActiveLoans := ((s.lending.policy policyId).map Policy.totalActiveLoans).getD 0
            maxTotalConcurrentLoans := most })
  | putWork {caller custodian : Address} {workId workHash : Bytes32} {policyId : Symbol} :
      Lends env crypto s (.putWork caller workId workHash custodian policyId) .none
        { s.lending with
          work := Function.update s.lending.work workId (some { workHash, custodian, policyId }) }
  | borrow {caller borrower : Address} {workId : Bytes32} (expiry : Nat)
      (free : s.lending.loan (workId, borrower) = none) :
      Lends env crypto s (.borrowWork caller workId borrower) .none
        (setLoan s.lending workId borrower (.borrowed { workId, borrower, expiry }))
  | giveBack {caller borrower : Address} {workId : Bytes32} (may : MayReturn s caller borrower) :
      Lends env crypto s (.returnWork caller workId borrower) .none
        (removeLoan s.lending workId borrower)
  | hold {caller holder : Address} {workId : Bytes32} (expiry : Nat) :
      Lends env crypto s (.placeHold caller workId holder) .none { s.lending with
        hold := Function.update s.lending.hold (workId, holder) (some { workId, holder, expiry }) }
  | claim {caller holder : Address} {workId : Bytes32} (expiry : Nat)
      (free : s.lending.loan (workId, holder) = none) :
      Lends env crypto s (.claimHold caller workId holder) .none
        { setLoan s.lending workId holder (.borrowed { workId, borrower := holder, expiry }) with
          hold := Function.update s.lending.hold (workId, holder) none }
  | reserve {caller : Address} {workId courseId : Bytes32} {seats expiry : Nat}
      (fresh : s.lending.reserve (workId, courseId) = none) :
      Lends env crypto s (.createReserve caller workId courseId seats expiry) .none
        (setReserve s.lending workId courseId { workId, courseId, seats, expiry })
  | borrowReserve {caller borrower : Address} {workId courseId : Bytes32} (row : ReserveRecord)
      (expiry : Nat) (found : s.lending.reserve (workId, courseId) = some row)
      (seated : row.seats ≠ 0) (free : s.lending.loan (workId, borrower) = none) :
      Lends env crypto s (.borrowFromReserve caller workId courseId borrower) .none
        (setReserve (setLoan s.lending workId borrower (.borrowed { workId, borrower, expiry }))
          workId courseId { row with seats := row.seats - 1 })
  | returnReserve {caller borrower : Address} {workId courseId : Bytes32} (row : ReserveRecord)
      (may : MayReturn s caller borrower) (found : s.lending.reserve (workId, courseId) = some row)
      (fits : row.seats + 1 < 2^32) :
      Lends env crypto s (.returnToReserve caller workId courseId borrower) .none
        (setReserve (removeLoan s.lending workId borrower) workId courseId
          { row with seats := row.seats + 1 })
  | checkout {patron : Address} {workId : Bytes32} {duration maxRenewals licensed : Nat}
      {autoRenew : Bool} (work : WorkRecord) (policy : Policy) (loan : PatronLoan)
      (known : s.lending.work workId = some work)
      (stored : s.lending.policy work.policyId = some policy)
      (below : s.lending.patronPolicyActiveLoans (patron, work.policyId) <
        policy.maxConcurrentLoansPerPatron)
      (room : policy.totalActiveLoans < policy.maxTotalConcurrentLoans)
      (active : loan.isActive = true) (ofWork : loan.workId = workId)
      (made : loan.createdAt = env.timestamp) (under : loan.policyId = work.policyId) :
      Lends env crypto s (.checkoutWork patron workId duration autoRenew maxRenewals licensed)
        (.id (crypto.sha256 (loanPreimage workId env.timestamp)))
        (setPolicy
          { setLoan s.lending (crypto.sha256 (loanPreimage workId env.timestamp)) patron
              (.checkedOut loan) with
            patronPolicyActiveLoans := Function.update s.lending.patronPolicyActiveLoans
              (patron, work.policyId)
              (s.lending.patronPolicyActiveLoans (patron, work.policyId) + 1) }
          work.policyId { policy with totalActiveLoans := policy.totalActiveLoans + 1 })
  | returnLoan {patron : Address} {loanId : Bytes32} (loan : PatronLoan) (policy : Policy)
      (found : s.lending.loan (loanId, patron) = some (.checkedOut loan))
      (active : loan.isActive = true) (stored : s.lending.policy loan.policyId = some policy) :
      Lends env crypto s (.returnLoan patron loanId) .none
        (setPolicy
          { setLoan s.lending loanId patron (.checkedOut { loan with isActive := false }) with
            patronPolicyActiveLoans := Function.update s.lending.patronPolicyActiveLoans
              (patron, loan.policyId)
              (s.lending.patronPolicyActiveLoans (patron, loan.policyId) - 1) }
          loan.policyId { policy with totalActiveLoans := policy.totalActiveLoans - 1 })
  | renew {patron : Address} {loanId : Bytes32} {duration : Nat} (loan : PatronLoan)
      (expiresAt : Nat) (found : s.lending.loan (loanId, patron) = some (.checkedOut loan)) :
      Lends env crypto s (.renewLoan patron loanId duration) .none
        (setLoan s.lending loanId patron (.checkedOut
          { loan with expiresAt, renewalCount := loan.renewalCount + 1 }))

section Specs

theorem borrowWork_eq_ok (h : borrowWork env s caller workId borrower = .ok l) :
    s.lending.loan (workId, borrower) = none ∧
      ∃ expiry, l = setLoan s.lending workId borrower (.borrowed { workId, borrower, expiry }) := by
  simp only [borrowWork, bind_eq_ok, refuseIf_eq_ok, exists_unit, pure_eq_ok, Bool.not_eq_true,
    Option.isSome_eq_false_iff, Option.isNone_iff_eq_none] at h
  obtain ⟨_, _, _, _, hfree, expiry, _, rfl⟩ := h
  exact ⟨hfree, expiry, rfl⟩

theorem removeLoan_none (h : s.lending.loan (workId, borrower) = none) :
    removeLoan s.lending workId borrower = s.lending := by
  rw [removeLoan, ← h, Function.update_eq_self]

theorem returnWork_eq_ok :
    returnWork s caller workId borrower = .ok l ↔
      MayReturn s caller borrower ∧ l = removeLoan s.lending workId borrower := by
  have hrow : (if (s.lending.loan (workId, borrower)).isSome = true then
      (pure (removeLoan s.lending workId borrower) : Outcome Lending) else pure s.lending) =
        .ok (removeLoan s.lending workId borrower) := by
    split_ifs with hlent
    · rfl
    · rw [removeLoan_none (by simpa using hlent)]
      rfl
  simp only [returnWork, hrow, getRole, bind_eq_ok, refuseIf_eq_ok, orRefuse_eq_ok, exists_unit,
    Except.ok.injEq]
  constructor
  · intro h
    obtain ⟨librarian, hlibrarian, hnamed, rfl⟩ := h
    refine ⟨⟨?_, ?_⟩, rfl⟩
    · rw [hlibrarian]
      exact Option.some_ne_none librarian
    · rw [hlibrarian, Option.some.injEq]
      by_contra hother
      rw [not_or] at hother
      exact hnamed ⟨hother.1, fun heq => hother.2 heq.symm⟩
  · intro h
    obtain ⟨⟨hstaffed, hnamed⟩, rfl⟩ := h
    obtain ⟨librarian, hlibrarian⟩ := Option.ne_none_iff_exists'.mp hstaffed
    refine ⟨librarian, hlibrarian, ?_, rfl⟩
    rw [hlibrarian, Option.some.injEq] at hnamed
    intro hother
    exact hnamed.elim hother.1 fun heq => hother.2 heq.symm

theorem returnToReserve_eq_ok :
    returnToReserve s caller workId courseId borrower = .ok l ↔
      MayReturn s caller borrower ∧ ∃ row, s.lending.reserve (workId, courseId) = some row ∧
        row.seats + 1 < 2^32 ∧ l = setReserve (removeLoan s.lending workId borrower) workId courseId
          { row with seats := row.seats + 1 } := by
  simp only [returnToReserve, bind_eq_ok, returnWork_eq_ok, orRefuse_eq_ok, fitsU_eq_some, pure_eq_ok]
  constructor
  · intro h
    obtain ⟨_, ⟨hmay, rfl⟩, row, hrow, _, ⟨hfits, rfl⟩, rfl⟩ := h
    exact ⟨hmay, row, hrow, hfits, rfl⟩
  · intro h
    obtain ⟨hmay, row, hrow, hfits, rfl⟩ := h
    exact ⟨_, ⟨hmay, rfl⟩, row, hrow, _, ⟨hfits, rfl⟩, rfl⟩

theorem asPatronLoan_eq_ok {row : Option LoanRow} {loan : PatronLoan} :
    asPatronLoan row = .ok (some loan) ↔ row = some (.checkedOut loan) := by
  cases row with
  | none => simp [asPatronLoan, pure, Except.pure]
  | some row =>
    cases row with
    | borrowed other => simp [asPatronLoan]
    | checkedOut other => simp [asPatronLoan, pure, Except.pure]

theorem checkoutWork_spec {patron : Address} {duration maxRenewals licensed : Nat} {autoRenew : Bool}
    {id : Bytes32}
    (h : checkoutWork env crypto s patron workId duration autoRenew maxRenewals licensed =
      .ok (id, l)) :
    Lends env crypto s (.checkoutWork patron workId duration autoRenew maxRenewals licensed) (.id id)
      l := by
  simp only [checkoutWork, getWork, getPolicy, bind_eq_ok, refuseIf_eq_ok, orRefuse_eq_ok, exists_unit,
    fitsU_eq_some, pure_eq_ok, Prod.mk.injEq, not_le] at h
  obtain ⟨_, _, work, hwork, policy, hpolicy, _, _, _, hbelow, hroom, _, _, _, _, count, ⟨_, rfl⟩, total,
    ⟨_, rfl⟩, rfl, rfl⟩ := h
  exact .checkout work policy _ hwork hpolicy hbelow hroom rfl rfl rfl rfl

theorem returnLoan_spec {patron : Address} {loanId : Bytes32}
    (h : returnLoan env s patron loanId = .ok l) :
    Lends env crypto s (.returnLoan patron loanId) .none l := by
  simp only [returnLoan, bind_eq_ok, refuseIf_eq_ok, orRefuse_eq_ok, exists_unit, pure_eq_ok,
    Bool.not_eq_false] at h
  obtain ⟨_, _, hfound, loan, rfl, hactive, policy, hpolicy, rfl⟩ := h
  exact .returnLoan loan policy (asPatronLoan_eq_ok.mp hfound) hactive hpolicy

theorem renewLoan_spec {patron : Address} {loanId : Bytes32} {duration : Nat}
    (h : renewLoan env s patron loanId duration = .ok l) :
    Lends env crypto s (.renewLoan patron loanId duration) .none l := by
  simp only [renewLoan, bind_eq_ok, refuseIf_eq_ok, orRefuse_eq_ok, exists_unit, pure_eq_ok] at h
  obtain ⟨_, _, _, hfound, loan, rfl, _, _, expiresAt, _, _, _, _, rfl⟩ := h
  exact .renew loan expiresAt (asPatronLoan_eq_ok.mp hfound)

theorem lend_spec {call : LendCall} {o : Answer}
    (h : lend env crypto registries s call = .ok (o, l)) : Lends env crypto s call o l := by
  cases call with
  | putPolicy =>
    simp only [lend, putPolicy, map_eq_ok, silent, Prod.mk.injEq, bind_eq_ok, exists_unit,
      pure_eq_ok] at h
    obtain ⟨_, ⟨_, _, rfl⟩, rfl, rfl⟩ := h
    exact .putPolicy
  | putWork =>
    simp only [lend, putWork, map_eq_ok, silent, Prod.mk.injEq, bind_eq_ok, exists_unit,
      pure_eq_ok] at h
    obtain ⟨_, ⟨_, _, _, _, _, rfl⟩, rfl, rfl⟩ := h
    exact .putWork
  | borrowWork =>
    simp only [lend, map_eq_ok, silent, Prod.mk.injEq] at h
    obtain ⟨_, hcall, rfl, rfl⟩ := h
    obtain ⟨hfree, expiry, rfl⟩ := borrowWork_eq_ok hcall
    exact .borrow expiry hfree
  | returnWork =>
    simp only [lend, map_eq_ok, silent, Prod.mk.injEq, returnWork_eq_ok] at h
    obtain ⟨_, ⟨hmay, rfl⟩, rfl, rfl⟩ := h
    exact .giveBack hmay
  | placeHold =>
    simp only [lend, placeHold, map_eq_ok, silent, Prod.mk.injEq, bind_eq_ok, exists_unit,
      pure_eq_ok] at h
    obtain ⟨_, ⟨_, _, _, _, _, expiry, _, rfl⟩, rfl, rfl⟩ := h
    exact .hold expiry
  | claimHold =>
    simp only [lend, claimHold, map_eq_ok, silent, Prod.mk.injEq, bind_eq_ok, exists_unit,
      pure_eq_ok] at h
    obtain ⟨_, ⟨_, _, _, _, _, _, _, _, hborrow, rfl⟩, rfl, rfl⟩ := h
    obtain ⟨hfree, expiry, rfl⟩ := borrowWork_eq_ok hborrow
    exact .claim expiry hfree
  | createReserve =>
    simp only [lend, createReserve, map_eq_ok, silent, Prod.mk.injEq, bind_eq_ok, exists_unit,
      refuseIf_eq_ok, Bool.not_eq_true, Option.isSome_eq_false_iff, Option.isNone_iff_eq_none,
      pure_eq_ok] at h
    obtain ⟨_, ⟨_, _, _, _, hfresh, rfl⟩, rfl, rfl⟩ := h
    exact .reserve hfresh
  | borrowFromReserve =>
    simp only [lend, borrowFromReserve, map_eq_ok, silent, Prod.mk.injEq, bind_eq_ok, exists_unit,
      refuseIf_eq_ok, orRefuse_eq_ok, pure_eq_ok] at h
    obtain ⟨_, ⟨_, _, _, _, _, row, hrow, hseated, _, _, hborrow, rfl⟩, rfl, rfl⟩ := h
    obtain ⟨hfree, expiry, rfl⟩ := borrowWork_eq_ok hborrow
    exact .borrowReserve row expiry hrow hseated hfree
  | returnToReserve =>
    simp only [lend, map_eq_ok, silent, Prod.mk.injEq, returnToReserve_eq_ok] at h
    obtain ⟨_, ⟨hmay, row, hrow, hfits, rfl⟩, rfl, rfl⟩ := h
    exact .returnReserve row hmay hrow hfits
  | checkoutWork =>
    simp only [lend, map_eq_ok, withId, Prod.mk.injEq] at h
    obtain ⟨⟨id, _⟩, hcall, rfl, rfl⟩ := h
    exact checkoutWork_spec hcall
  | returnLoan =>
    simp only [lend, map_eq_ok, silent, Prod.mk.injEq] at h
    obtain ⟨_, hcall, rfl, rfl⟩ := h
    exact returnLoan_spec hcall
  | renewLoan =>
    simp only [lend, map_eq_ok, silent, Prod.mk.injEq] at h
    obtain ⟨_, hcall, rfl, rfl⟩ := h
    exact renewLoan_spec hcall

end Specs

/-- An accepted call is a lending call, or it leaves the lending as it is. -/
theorem step_lends {i : Input contract} {o : Answer} {s' : State}
    (h : (machine contract crypto).step s i = .ok (o, s')) :
    (∃ call l, i.call = .lend call ∧ Lends i.env crypto s call o l ∧ s' = { s with lending := l }) ∨
      (∀ call, i.call ≠ .lend call) ∧ s'.lending = s.lending := by
  cases hcall : i.call with
  | govern call =>
    have hframe := (govern_spec (step_govern hcall h)).frame
    exact .inr ⟨fun _ heq => Call.noConfusion heq, hframe.1⟩
  | lend call =>
    obtain ⟨l, hlend, hs'⟩ := step_lend hcall h
    exact .inl ⟨call, l, rfl, lend_spec hlend, hs'⟩
  | catalog call =>
    obtain ⟨_, _, rfl⟩ := step_catalog hcall h
    exact .inr ⟨fun _ heq => Call.noConfusion heq, rfl⟩
  | serve call =>
    obtain ⟨_, _, rfl⟩ := step_serve hcall h
    exact .inr ⟨fun _ heq => Call.noConfusion heq, rfl⟩

end Loans

variable {contract : Address} {crypto : Crypto} {s s' : State} {i : Input contract} {o : Answer}

section Endings

/-- The caller that a return names, and the key of the loan that it ends. -/
def LendCall.ending : LendCall → Option (Address × Bytes32 × Address)
  | .returnWork caller workId borrower => some (caller, workId, borrower)
  | .returnToReserve caller workId _ borrower => some (caller, workId, borrower)
  | _ => none

/-- A return to a reserve needs one, with room in the counter of its seats. -/
def LendCall.fits (l : Lending) : LendCall → Prop
  | .returnToReserve _ workId courseId _ =>
    ∃ row, l.reserve (workId, courseId) = some row ∧ row.seats + 1 < 2^32
  | _ => True

/-- The borrower or the present librarian has signed. -/
def Countersigned (env : Env contract) (s : State) (borrower : Address) : Prop :=
  env.signers borrower = true ∨
    ∃ librarian, s.governance.role .librarian = some librarian ∧ env.signers librarian = true

/-- Every loan that the call ends is ended with such a signature. -/
def Step.authorized (e : Step contract) : Prop :=
  ∀ workId borrower, e.pre.lending.loan (workId, borrower) ≠ none →
    e.post.lending.loan (workId, borrower) = none → Countersigned e.input.env e.pre borrower

/-- A return of a loan in the name of its borrower or of the librarian, which neither has signed. -/
structure Forged (s : State) (i : Input contract) (call : LendCall) (caller : Address)
    (workId : Bytes32) (borrower : Address) : Prop where
  arrives : i.call = .lend call
  returns : call.ending = some (caller, workId, borrower)
  fits : call.fits s.lending
  lent : s.lending.loan (workId, borrower) ≠ none
  may : MayReturn s caller borrower
  unsigned : ¬Countersigned i.env s borrower

end Endings

section Returns

variable {env : Env contract} {call : LendCall} {l : Lending} {slot : Bytes32 × Address}

/-- Only a return ends a loan, and only the loan that it names. -/
theorem Lends.ended (h : Lends env crypto s call o l) (hlent : s.lending.loan slot ≠ none)
    (hended : l.loan slot = none) :
    ∃ caller, call.ending = some (caller, slot) ∧ call.fits s.lending ∧ MayReturn s caller slot.2 := by
  have hkept : ∀ id holder (row : LoanRow),
      Function.update s.lending.loan (id, holder) (some row) slot ≠ none := by
    intro id holder row
    by_cases hslot : slot = (id, holder)
    · simp [hslot]
    · rwa [Function.update_of_ne hslot]
  have hnamed : ∀ id holder, Function.update s.lending.loan (id, holder) none slot = none →
      slot = (id, holder) := by
    intro id holder hgone
    by_contra hslot
    rw [Function.update_of_ne hslot] at hgone
    exact hlent hgone
  cases h with
  | putPolicy => exact absurd hended hlent
  | putWork => exact absurd hended hlent
  | borrow expiry free => exact absurd hended (hkept _ _ _)
  | giveBack may =>
    obtain rfl := hnamed _ _ hended
    exact ⟨_, rfl, trivial, may⟩
  | hold => exact absurd hended hlent
  | claim expiry free => exact absurd hended (hkept _ _ _)
  | reserve => exact absurd hended hlent
  | borrowReserve row expiry found seated free => exact absurd hended (hkept _ _ _)
  | returnReserve row may found fits =>
    obtain rfl := hnamed _ _ hended
    exact ⟨_, rfl, ⟨row, found, fits⟩, may⟩
  | checkout => exact absurd hended (hkept _ _ _)
  | returnLoan => exact absurd hended (hkept _ _ _)
  | renew => exact absurd hended (hkept _ _ _)

/-- A return that may be made is accepted and ends the loan. -/
theorem lend_ending (env : Env contract) (crypto : Crypto) (registries : Registries) {caller : Address}
    (hending : call.ending = some (caller, slot)) (hfits : call.fits s.lending)
    (hmay : MayReturn s caller slot.2) :
    ∃ l, lend env crypto registries s call = .ok (.none, l) ∧ l.loan slot = none := by
  cases call with
  | returnWork caller workId borrower =>
    obtain ⟨rfl, rfl⟩ := Prod.mk.inj (Option.some.inj hending)
    have haccepted : returnWork s caller workId borrower =
        .ok (removeLoan s.lending workId borrower) := returnWork_eq_ok.mpr ⟨hmay, rfl⟩
    refine ⟨removeLoan s.lending workId borrower, ?_, Function.update_self _ _ _⟩
    rw [lend, haccepted]
    rfl
  | returnToReserve caller workId courseId borrower =>
    obtain ⟨rfl, rfl⟩ := Prod.mk.inj (Option.some.inj hending)
    obtain ⟨row, hrow, hroom⟩ := hfits
    have haccepted : returnToReserve s caller workId courseId borrower =
        .ok (setReserve (removeLoan s.lending workId borrower) workId courseId
          { row with seats := row.seats + 1 }) :=
      returnToReserve_eq_ok.mpr ⟨hmay, row, hrow, hroom, rfl⟩
    refine ⟨setReserve (removeLoan s.lending workId borrower) workId courseId
      { row with seats := row.seats + 1 }, ?_, Function.update_self _ _ _⟩
    rw [lend, haccepted]
    rfl
  | _ => cases hending

/-- Only such a return ends a loan that nobody entitled has signed for. -/
theorem authorized_of_step (h : (machine contract crypto).step s i = .ok (o, s'))
    (hforged : ∀ call caller workId borrower, ¬Forged s i call caller workId borrower) :
    Step.authorized ⟨s, i, o, s'⟩ := by
  intro workId borrower hlent hended
  rcases step_lends h with ⟨call, l, hcall, hlends, rfl⟩ | ⟨_, hsame⟩
  · obtain ⟨caller, hending, hfits, hmay⟩ := hlends.ended hlent hended
    by_contra hunsigned
    exact hforged call caller workId borrower ⟨hcall, hending, hfits, hlent, hmay, hunsigned⟩
  · rw [hsame] at hended
    exact absurd hended hlent

/-- It is accepted, and ends the loan. -/
theorem Forged.step {caller borrower : Address} {workId : Bytes32}
    (h : Forged s i call caller workId borrower) (crypto : Crypto) :
    ∃ s', (machine contract crypto).step s i = .ok (.none, s') ∧
      ¬Step.authorized ⟨s, i, (.none : Answer), s'⟩ := by
  obtain ⟨l, hlend, hgone⟩ := lend_ending i.env crypto i.registries h.returns h.fits h.may
  refine ⟨{ s with lending := l }, ?_, ?_⟩
  · simp only [machine, execute, h.arrives, hlend]
    rfl
  · intro hauthorized
    exact h.unsigned (hauthorized workId borrower h.lent hgone)

end Returns

/-- Loans are ended with the signature of their borrower or of the librarian in those runs in which no
return comes in the name of one of them without the signature of either. -/
theorem run_endings (crypto : Crypto) (is : List (Input contract)) :
    (∀ e ∈ (machine contract crypto).journal State.empty is, Step.authorized e) ↔
      ∀ earlier i later, is = earlier ++ i :: later → ∀ call caller workId borrower,
        ¬Forged ((machine contract crypto).run State.empty earlier) i call caller workId borrower := by
  constructor
  · intro hauthorized earlier i later hsplit call caller workId borrower hforged
    obtain ⟨s', hstep, hunauthorized⟩ := hforged.step crypto
    apply hunauthorized
    apply hauthorized
    rw [hsplit]
    exact (machine contract crypto).mem_journal hstep
  · intro hnone e he
    obtain ⟨hstep, earlier, ⟨later, hsplit⟩, hpre⟩ := Machine.journal_prefix he
    apply authorized_of_step hstep
    rw [hpre]
    rw [List.append_assoc, List.singleton_append] at hsplit
    exact hnone earlier e.input later hsplit.symm

/-- Account 9 borrows a work, which is returned in its name while nobody signs. -/
def sampleLent : List (Input ⟨0⟩) :=
  [sampleBootstrap, ⟨.sample, sampleRegistries, .lend (.putPolicy ⟨3⟩ "p" 2 5)⟩,
    ⟨.sample, sampleRegistries, .lend (.putWork ⟨3⟩ 1 1 ⟨3⟩ "p")⟩,
    ⟨.sample, sampleRegistries, .lend (.borrowWork ⟨9⟩ 1 ⟨9⟩)⟩]

def sampleUnsigned : Input ⟨0⟩ :=
  ⟨{ Env.sample with signers := fun _ => false, contract_not_signer := rfl }, sampleRegistries,
    .lend (.returnWork ⟨9⟩ 1 ⟨9⟩)⟩

theorem sampleUnsigned_ended :
    ¬∀ e ∈ (machine ⟨0⟩ sampleCrypto).journal State.empty (sampleLent ++ [sampleUnsigned]),
      Step.authorized e := by
  intro hauthorized
  have hlent : ((machine ⟨0⟩ sampleCrypto).run State.empty sampleLent).lending.loan (1, ⟨9⟩) ≠ none := by
    decide +kernel
  have hstaffed : ((machine ⟨0⟩ sampleCrypto).run State.empty sampleLent).governance.role .librarian ≠
      none := by
    decide +kernel
  have hunsigned : ¬Countersigned sampleUnsigned.env
      ((machine ⟨0⟩ sampleCrypto).run State.empty sampleLent) ⟨9⟩ := by
    intro hsigned
    rcases hsigned with hborrower | ⟨librarian, _, hlibrarian⟩
    · cases hborrower
    · cases hlibrarian
  have hforged : Forged ((machine ⟨0⟩ sampleCrypto).run State.empty sampleLent) sampleUnsigned
      (.returnWork ⟨9⟩ 1 ⟨9⟩) ⟨9⟩ 1 ⟨9⟩ :=
    ⟨rfl, rfl, trivial, hlent, ⟨hstaffed, .inl rfl⟩, hunsigned⟩
  obtain ⟨s', hstep, hunauthorized⟩ := hforged.step sampleCrypto
  exact hunauthorized (hauthorized _ ((machine ⟨0⟩ sampleCrypto).mem_journal hstep))

end ChainVerse.LibraryRights
