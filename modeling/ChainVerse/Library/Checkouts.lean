import ChainVerse.Framework.Accounts
import ChainVerse.Host.Issuance
import ChainVerse.Library.Loans

namespace ChainVerse.LibraryRights

section Checkouts

variable {contract : Address} {crypto : Crypto} {s s' : State} {i : Input contract} {o : Answer}

section Standing

/-- The work and the policy of an active loan. -/
def LoanRow.standing : Option LoanRow → Option (Bytes32 × Symbol)
  | some (.checkedOut loan) => if loan.isActive = true then some (loan.workId, loan.policyId) else none
  | _ => none

def Lending.standing (l : Lending) (x : Bytes32 × Address) : Option (Bytes32 × Symbol) :=
  LoanRow.standing (l.loan x)

/-- The ids of the active loans of a patron under a policy. -/
def Lending.activeLoans (l : Lending) (patron : Address) (policyId : Symbol) : Set Bytes32 :=
  {id | ∃ workId, l.standing (id, patron) = some (workId, policyId)}

/-- The active loans that a policy counts; a policy that is not there counts none. -/
def Lending.total (l : Lending) (policyId : Symbol) : Nat :=
  ((l.policy policyId).map Policy.totalActiveLoans).getD 0

/-- The counters count the active loans, of which there is one for each patron and work. The ids of loans
are 32 bytes, so that there are finitely many, and finitely many patrons have a counter. -/
structure LimitsReal (l : Lending) : Prop where
  finite : ∀ policyId, {patron | l.patronPolicyActiveLoans (patron, policyId) ≠ 0}.Finite
  counters : ∀ patron policyId,
    l.patronPolicyActiveLoans (patron, policyId) = (l.activeLoans patron policyId).ncard
  totals : ∀ policyId, l.total policyId = ∑ᶠ patron, l.patronPolicyActiveLoans (patron, policyId)
  single : ∀ patron id id' workId policyId policyId',
    l.standing (id, patron) = some (workId, policyId) →
      l.standing (id', patron) = some (workId, policyId') → id = id'

end Standing

section Lines

/-- The patron and the work that a line checks out. -/
def Step.checksOut (e : Step contract) : Option (Address × Bytes32) :=
  match e.input.call with
  | .lend (.checkoutWork patron workId _ _ _ _) => some (patron, workId)
  | _ => none

/-- The bytes that a line hashes for the id of a loan. -/
def Step.loanBytes (e : Step contract) : Option (List Byte) :=
  (Step.checksOut e).map fun x => loanPreimage x.2 e.input.env.timestamp

/-- A work is checked out below the limits in force. -/
def Step.withinLimits (e : Step contract) : Prop :=
  ∀ patron workId, Step.checksOut e = some (patron, workId) →
    ∃ work policy, e.pre.lending.work workId = some work ∧
      e.pre.lending.policy work.policyId = some policy ∧
      e.pre.lending.patronPolicyActiveLoans (patron, work.policyId) <
        policy.maxConcurrentLoansPerPatron ∧
      policy.totalActiveLoans < policy.maxTotalConcurrentLoans

/-- The patron who checks out a work has no active loan of it. -/
def Step.unlent (e : Step contract) : Prop :=
  ∀ patron workId, Step.checksOut e = some (patron, workId) →
    ∀ id policyId, e.pre.lending.standing (id, patron) ≠ some (workId, policyId)

end Lines

/-- Everything that an accepted call can do to the active loans and to what counts them. -/
inductive Checking (crypto : Crypto) (e : Step contract) : Prop where
  | quiet (call : Step.checksOut e = none) (standing : e.post.lending.standing = e.pre.lending.standing)
      (counters : e.post.lending.patronPolicyActiveLoans = e.pre.lending.patronPolicyActiveLoans)
      (totals : e.post.lending.total = e.pre.lending.total)
  | checkout (patron : Address) (workId : Bytes32) (policyId : Symbol)
      (call : Step.checksOut e = some (patron, workId))
      (standing : e.post.lending.standing = Function.update e.pre.lending.standing
        (crypto.sha256 (loanPreimage workId e.input.env.timestamp), patron) (some (workId, policyId)))
      (counters : e.post.lending.patronPolicyActiveLoans =
        Function.update e.pre.lending.patronPolicyActiveLoans (patron, policyId)
          (e.pre.lending.patronPolicyActiveLoans (patron, policyId) + 1))
      (totals : e.post.lending.total =
        Function.update e.pre.lending.total policyId (e.pre.lending.total policyId + 1))
  | giveBack (patron : Address) (id workId : Bytes32) (policyId : Symbol)
      (call : Step.checksOut e = none)
      (found : e.pre.lending.standing (id, patron) = some (workId, policyId))
      (standing : e.post.lending.standing = Function.update e.pre.lending.standing (id, patron) none)
      (counters : e.post.lending.patronPolicyActiveLoans =
        Function.update e.pre.lending.patronPolicyActiveLoans (patron, policyId)
          (e.pre.lending.patronPolicyActiveLoans (patron, policyId) - 1))
      (totals : e.post.lending.total =
        Function.update e.pre.lending.total policyId (e.pre.lending.total policyId - 1))

section Writes

variable {l : Lending} {id : Bytes32} {patron : Address} {row : LoanRow} {policyId : Symbol}
variable {policy : Policy}

theorem standing_setLoan : (setLoan l id patron row).standing =
    Function.update l.standing (id, patron) (LoanRow.standing (some row)) := by
  funext x
  exact Function.apply_update (fun _ => LoanRow.standing) l.loan (id, patron) (some row) x

/-- A row that is not an active loan may be written where none stood. -/
theorem standing_setLoan_same
    (hrow : LoanRow.standing (some row) = l.standing (id, patron)) :
    (setLoan l id patron row).standing = l.standing := by
  rw [standing_setLoan, hrow, Function.update_eq_self]

theorem total_setPolicy : (setPolicy l policyId policy).total =
    Function.update l.total policyId policy.totalActiveLoans := by
  funext x
  exact Function.apply_update (fun _ (row : Option Policy) => (row.map Policy.totalActiveLoans).getD 0)
    l.policy policyId (some policy) x

theorem total_stored (h : l.policy policyId = some policy) : l.total policyId = policy.totalActiveLoans := by
  rw [Lending.total, h]
  rfl

end Writes

/-- What an accepted call does, where it removes no loan. -/
theorem step_checking (h : (machine contract crypto).step s i = .ok (o, s'))
    (hcall : ∀ call, i.call = .lend call → call.ending = none) :
    Checking crypto (⟨s, i, o, s'⟩ : Step contract) := by
  obtain ⟨env, registries, call⟩ := i
  rcases step_lends h with ⟨lending, l, harrives, hlends, rfl⟩ | ⟨hother, hsame⟩
  · dsimp only at harrives hlends
    subst harrives
    have hending := hcall lending rfl
    cases hlends with
    | putPolicy =>
      refine .quiet rfl rfl rfl ?_
      exact total_setPolicy.trans (Function.update_eq_self _ _)
    | putWork => exact .quiet rfl rfl rfl rfl
    | borrow expiry free =>
      refine .quiet rfl ?_ rfl rfl
      exact standing_setLoan_same (by rw [Lending.standing, free]; rfl)
    | giveBack => cases hending
    | hold => exact .quiet rfl rfl rfl rfl
    | claim expiry free =>
      refine .quiet rfl ?_ rfl rfl
      exact standing_setLoan_same (by rw [Lending.standing, free]; rfl)
    | reserve => exact .quiet rfl rfl rfl rfl
    | borrowReserve row expiry found seated free =>
      refine .quiet rfl ?_ rfl rfl
      exact standing_setLoan_same (by rw [Lending.standing, free]; rfl)
    | returnReserve => cases hending
    | checkout work policy loan known stored below room active ofWork made under =>
      have hrow : LoanRow.standing (some (.checkedOut loan)) = some (loan.workId, loan.policyId) :=
        if_pos active
      refine .checkout _ _ work.policyId rfl ?_ rfl ?_
      · rw [← ofWork, ← under, ← hrow]
        exact standing_setLoan
      · rw [total_stored stored]
        exact total_setPolicy
    | returnLoan loan policy found active stored =>
      have hrow : LoanRow.standing (some (.checkedOut loan)) = some (loan.workId, loan.policyId) :=
        if_pos active
      refine .giveBack _ _ loan.workId loan.policyId rfl ?_ standing_setLoan rfl ?_
      · rw [Lending.standing, found, hrow]
      · rw [total_stored stored]
        exact total_setPolicy
    | renew loan expiresAt found =>
      refine .quiet rfl ?_ rfl rfl
      exact standing_setLoan_same (by rw [Lending.standing, found]; rfl)
  · have hquiet : Step.checksOut (⟨s, ⟨env, registries, call⟩, o, s'⟩ : Step contract) = none := by
      cases call with
      | lend lending => exact absurd rfl (hother lending)
      | _ => rfl
    exact .quiet hquiet (congrArg Lending.standing hsame)
      (congrArg Lending.patronPolicyActiveLoans hsame) (congrArg Lending.total hsame)

/-- A checkout is accepted below the limits. -/
theorem step_withinLimits (h : (machine contract crypto).step s i = .ok (o, s')) :
    Step.withinLimits (⟨s, i, o, s'⟩ : Step contract) := by
  obtain ⟨env, registries, call⟩ := i
  intro patron workId hout
  rcases step_lends h with ⟨lending, l, harrives, hlends, rfl⟩ | ⟨hother, _⟩
  · dsimp only at harrives hlends
    subst harrives
    cases hlends with
    | checkout work policy loan known stored below room active ofWork made under =>
      cases hout
      exact ⟨work, policy, known, stored, below, room⟩
    | _ => cases hout
  · cases call with
    | lend lending => exact absurd rfl (hother lending)
    | _ => cases hout

end Checkouts

variable {contract : Address} {crypto : Crypto} {s s' : State} {i : Input contract} {o : Answer}

section Keys

/-- A loan is stored under the hash of its work and its time. -/
def LoanRow.keyed (crypto : Crypto) (hashed : List (List Byte)) (x : Bytes32 × Address)
    (row : LoanRow) : Prop :=
  ∀ loan, row = .checkedOut loan →
    loanPreimage loan.workId loan.createdAt ∈ hashed ∧
      crypto.sha256 (loanPreimage loan.workId loan.createdAt) = x.1

theorem loanPreimage_inj {workId workId' : Bytes32} {t t' : Nat}
    (h : loanPreimage workId t = loanPreimage workId' t') : workId = workId' :=
  bytes32_inj (List.append_inj h (by simp)).1

/-- What holds of the loans in every run that hashes only what is listed. -/
def Keyed (crypto : Crypto) (hashed : List (List Byte)) (l : Lending) : Prop :=
  ∀ x row, l.loan x = some row → LoanRow.keyed crypto hashed x row

/-- A line of a run that hashes only what is listed, and removes no loan. -/
structure Step.admitted (hashed : List (List Byte)) (e : Step contract) : Prop where
  keeps : ∀ call, e.input.call = .lend call → call.ending = none
  listed : ∀ p, Step.loanBytes e = some p → p ∈ hashed

variable {hashed : List (List Byte)} {l : Lending} {id workId : Bytes32} {patron : Address} {t : Nat}
  {policyId : Symbol}

theorem keyed_empty : Keyed crypto hashed State.empty.lending := fun _ _ h => nomatch h

/-- An active loan under the id of a new one is of the same work. -/
theorem Keyed.same_work (h : Keyed crypto hashed l) (hfree : CollisionFree crypto.sha256 hashed)
    (hlisted : loanPreimage workId t ∈ hashed) {other : Bytes32}
    (hfound : l.standing (crypto.sha256 (loanPreimage workId t), patron) = some (other, policyId)) :
    other = workId := by
  rw [Lending.standing] at hfound
  cases hrow : l.loan (crypto.sha256 (loanPreimage workId t), patron) with
  | none =>
    rw [hrow] at hfound
    cases hfound
  | some row =>
    rw [hrow] at hfound
    cases row with
    | borrowed loan => cases hfound
    | checkedOut loan =>
      rw [LoanRow.standing] at hfound
      split_ifs at hfound
      cases hfound
      obtain ⟨hin, hsame⟩ := h _ _ hrow loan rfl
      exact loanPreimage_inj (hfree _ hin _ hlisted hsame)

theorem keyed_borrowed {x : Bytes32 × Address} {loan : LoanRecord} :
    LoanRow.keyed crypto hashed x (.borrowed loan) := fun _ h => nomatch h

theorem step_keyed (h : (machine contract crypto).step s i = .ok (o, s'))
    (hline : Step.admitted hashed (⟨s, i, o, s'⟩ : Step contract))
    (hkeyed : Keyed crypto hashed s.lending) : Keyed crypto hashed s'.lending := by
  obtain ⟨env, registries, call⟩ := i
  rcases step_lends h with ⟨lending, l, harrives, hlends, rfl⟩ | ⟨_, hsame⟩
  · dsimp only at harrives hlends
    subst harrives
    have hending := hline.keeps lending rfl
    cases hlends with
    | putPolicy => exact hkeyed
    | putWork => exact hkeyed
    | borrow expiry free => exact forall_update_row hkeyed rfl keyed_borrowed
    | giveBack => cases hending
    | hold => exact hkeyed
    | claim expiry free => exact forall_update_row hkeyed rfl keyed_borrowed
    | reserve => exact hkeyed
    | borrowReserve row expiry found seated free =>
      exact forall_update_row hkeyed rfl keyed_borrowed
    | returnReserve => cases hending
    | checkout work policy loan known stored below room active ofWork made under =>
      refine forall_update_row hkeyed rfl ?_
      intro other hother
      cases hother
      rw [ofWork, made]
      exact ⟨hline.listed _ rfl, rfl⟩
    | returnLoan loan policy found active stored =>
      refine forall_update_row hkeyed rfl ?_
      intro other hother
      cases hother
      exact hkeyed _ _ found loan rfl
    | renew loan expiresAt found =>
      refine forall_update_row hkeyed rfl ?_
      intro other hother
      cases hother
      exact hkeyed _ _ found loan rfl
  · rw [hsame]
    exact hkeyed

end Keys

section Counting

variable {l l' : Lending} {id : Bytes32} {patron patron' : Address} {policyId policyId' : Symbol}
variable {v : Option (Bytes32 × Symbol)}

/-- The patron and the policy under which a loan is counted. -/
def countedUnder (patron : Address) (row : Option (Bytes32 × Symbol)) : Option (Address × Symbol) :=
  row.map fun x => (patron, x.2)

theorem countedUnder_none : countedUnder patron none = none := rfl

theorem countedUnder_some {workId : Bytes32} :
    countedUnder patron (some (workId, policyId)) = some (patron, policyId) := rfl

/-- Writing one loan moves the number of active loans of its patron under its policy. -/
theorem ncard_standing (h : l'.standing = Function.update l.standing (id, patron) v)
    (patron' : Address) (policyId' : Symbol) :
    (l'.activeLoans patron' policyId').ncard +
        (if countedUnder patron (l.standing (id, patron)) = some (patron', policyId') then 1 else 0) =
      (l.activeLoans patron' policyId').ncard +
        (if countedUnder patron v = some (patron', policyId') then 1 else 0) := by
  have hactive : ∀ l : Lending, l.activeLoans patron' policyId' =
      {id | (l.standing (id, patron')).map Prod.snd = some policyId'} := by
    intro l
    ext x
    simp [Lending.activeLoans]
  have hunder : ∀ row : Option (Bytes32 × Symbol),
      countedUnder patron row = some (patron', policyId') ↔
        patron' = patron ∧ row.map Prod.snd = some policyId' := by
    intro row
    cases row with
    | none => simp [countedUnder]
    | some x => simp [countedUnder, eq_comm]
  have hfinite : {id | (l.standing (id, patron')).map Prod.snd = some policyId'}.Finite :=
    finite_bytes32 _
  have hmoved := ncard_update_column (p := fun row => row.map Prod.snd = some policyId') hfinite id patron v
  rw [hactive, hactive, h, if_congr (hunder _) rfl rfl, if_congr (hunder _) rfl rfl]
  exact hmoved

theorem standing_removed (h : l'.standing = Function.update l.standing (id, patron) none)
    {x : Bytes32 × Address} {row : Bytes32 × Symbol} (hrow : l'.standing x = some row) :
    l.standing x = some row := by
  rw [h] at hrow
  by_cases hx : x = (id, patron)
  · rw [hx, Function.update_self] at hrow
    cases hrow
  · rwa [Function.update_of_ne hx] at hrow

theorem LimitsReal.congr (h : LimitsReal l) (hstanding : l'.standing = l.standing)
    (hcounters : l'.patronPolicyActiveLoans = l.patronPolicyActiveLoans) (htotals : l'.total = l.total) :
    LimitsReal l' := by
  obtain ⟨hfinite, hcount, htotal, hsingle⟩ := h
  refine ⟨?_, ?_, ?_, ?_⟩
  · rw [hcounters]
    exact hfinite
  · intro patron policyId
    rw [hcounters, hcount, Lending.activeLoans, Lending.activeLoans, hstanding]
  · intro policyId
    rw [htotals, htotal, hcounters]
  · intro patron id id' workId policyId policyId' hid hid'
    rw [hstanding] at hid hid'
    exact hsingle patron id id' workId policyId policyId' hid hid'

/-- A counter and its total move together. -/
theorem total_moved {counters : Address × Symbol → Nat} {totals : Symbol → Nat}
    (hfinite : {patron | counters (patron, policyId') ≠ 0}.Finite)
    (htotal : ∀ policyId, totals policyId = ∑ᶠ patron, counters (patron, policyId)) {count total : Nat}
    (hmoved : total + counters (patron, policyId) = totals policyId + count) :
    Function.update totals policyId total policyId' =
      ∑ᶠ x, Function.update counters (patron, policyId) count (x, policyId') := by
  have hsum := finsum_update_column hfinite patron policyId count
  rw [← htotal policyId'] at hsum
  by_cases hsame : policyId' = policyId
  · subst hsame
    rw [if_pos rfl, if_pos rfl] at hsum
    rw [Function.update_self]
    omega
  · rw [if_neg hsame, if_neg hsame] at hsum
    rw [Function.update_of_ne hsame]
    omega

end Counting

section Limits

variable {hashed : List (List Byte)} {e : Step contract}

theorem LimitsReal.returned (h : LimitsReal e.pre.lending) {patron : Address} {id workId : Bytes32}
    {policyId : Symbol}
    (hfound : e.pre.lending.standing (id, patron) = some (workId, policyId))
    (hstanding : e.post.lending.standing = Function.update e.pre.lending.standing (id, patron) none)
    (hcounters : e.post.lending.patronPolicyActiveLoans =
      Function.update e.pre.lending.patronPolicyActiveLoans (patron, policyId)
        (e.pre.lending.patronPolicyActiveLoans (patron, policyId) - 1))
    (htotals : e.post.lending.total =
      Function.update e.pre.lending.total policyId (e.pre.lending.total policyId - 1)) :
    LimitsReal e.post.lending := by
  have hmoved := ncard_standing hstanding
  have hactive : 0 < e.pre.lending.patronPolicyActiveLoans (patron, policyId) := by
    rw [h.counters, Set.ncard_pos (finite_bytes32 _)]
    exact ⟨id, workId, hfound⟩
  have hle : e.pre.lending.patronPolicyActiveLoans (patron, policyId) ≤ e.pre.lending.total policyId := by
    rw [h.totals]
    exact single_le_finsum patron (h.finite policyId) fun _ => Nat.zero_le _
  refine ⟨?_, ?_, ?_, ?_⟩
  · intro policyId'
    rw [hcounters]
    exact finite_update_column (p := (· ≠ 0)) (h.finite policyId') _ _ _
  · intro patron' policyId'
    have hrow := hmoved patron' policyId'
    simp only [← h.counters, hfound, countedUnder_some, countedUnder_none, Option.some.injEq,
      reduceCtorEq, if_false, Nat.add_zero] at hrow
    rw [hcounters]
    by_cases hsame : (patron, policyId) = (patron', policyId')
    · rw [if_pos hsame, ← hsame] at hrow
      rw [← hsame, Function.update_self]
      omega
    · rw [if_neg hsame, Nat.add_zero] at hrow
      rw [Function.update_of_ne (Ne.symm hsame), hrow]
  · intro policyId'
    rw [htotals, hcounters]
    apply total_moved (h.finite policyId') h.totals
    omega
  · intro patron' x x' other p p' hx hx'
    exact h.single patron' x x' other p p' (standing_removed hstanding hx)
      (standing_removed hstanding hx')

/-- A checkout that finds no active loan of the patron on the work keeps the counts. -/
theorem LimitsReal.lent (h : LimitsReal e.pre.lending) {patron : Address} {id workId : Bytes32}
    {policyId : Symbol}
    (hfree : e.pre.lending.standing (id, patron) = none)
    (hunlent : ∀ id policyId, e.pre.lending.standing (id, patron) ≠ some (workId, policyId))
    (hstanding : e.post.lending.standing =
      Function.update e.pre.lending.standing (id, patron) (some (workId, policyId)))
    (hcounters : e.post.lending.patronPolicyActiveLoans =
      Function.update e.pre.lending.patronPolicyActiveLoans (patron, policyId)
        (e.pre.lending.patronPolicyActiveLoans (patron, policyId) + 1))
    (htotals : e.post.lending.total =
      Function.update e.pre.lending.total policyId (e.pre.lending.total policyId + 1)) :
    LimitsReal e.post.lending := by
  have hmoved := ncard_standing hstanding
  refine ⟨?_, ?_, ?_, ?_⟩
  · intro policyId'
    rw [hcounters]
    exact finite_update_column (p := (· ≠ 0)) (h.finite policyId') _ _ _
  · intro patron' policyId'
    have hrow := hmoved patron' policyId'
    simp only [← h.counters, hfree, countedUnder_some, countedUnder_none, Option.some.injEq,
      reduceCtorEq, if_false, Nat.add_zero] at hrow
    rw [hcounters, hrow]
    by_cases hsame : (patron, policyId) = (patron', policyId')
    · rw [if_pos hsame, ← hsame, Function.update_self]
    · rw [if_neg hsame, Function.update_of_ne (Ne.symm hsame),
        Nat.add_zero]
  · intro policyId'
    rw [htotals, hcounters]
    apply total_moved (h.finite policyId') h.totals
    omega
  · intro patron' x x' other p p' hx hx'
    rw [hstanding] at hx hx'
    by_cases hnew : (x, patron') = (id, patron)
    · obtain ⟨rfl, rfl⟩ := Prod.mk.inj hnew
      rw [Function.update_self] at hx
      cases hx
      by_contra hne
      have hold : (x', patron') ≠ (x, patron') := fun heq => hne (Prod.mk.inj heq).1.symm
      rw [Function.update_of_ne hold] at hx'
      exact hunlent x' p' hx'
    · rw [Function.update_of_ne hnew] at hx
      by_cases hnew' : (x', patron') = (id, patron)
      · obtain ⟨rfl, rfl⟩ := Prod.mk.inj hnew'
        rw [Function.update_self] at hx'
        cases hx'
        exact absurd hx (hunlent x p)
      · rw [Function.update_of_ne hnew'] at hx'
        exact h.single patron' x x' other p p' hx hx'

/-- Where the patron has an active loan of the work, a further checkout gives a second one, or is counted
although it takes the place of the first. -/
theorem LimitsReal.overlent (h : LimitsReal e.pre.lending) {patron : Address}
    {id first workId : Bytes32} {policyId policyId' : Symbol}
    (hfirst : e.pre.lending.standing (first, patron) = some (workId, policyId'))
    (hstanding : e.post.lending.standing =
      Function.update e.pre.lending.standing (id, patron) (some (workId, policyId)))
    (hcounters : e.post.lending.patronPolicyActiveLoans =
      Function.update e.pre.lending.patronPolicyActiveLoans (patron, policyId)
        (e.pre.lending.patronPolicyActiveLoans (patron, policyId) + 1)) :
    ¬LimitsReal e.post.lending := by
  intro hafter
  by_cases hsame : first = id
  · subst hsame
    have hrow := ncard_standing hstanding patron policyId'
    rw [← h.counters, ← hafter.counters, hcounters, hfirst, countedUnder_some, countedUnder_some,
      if_pos rfl] at hrow
    by_cases hpolicy : policyId' = policyId
    · subst hpolicy
      rw [Function.update_self, if_pos rfl] at hrow
      omega
    · have hkey : (patron, policyId') ≠ (patron, policyId) := fun heq => hpolicy (Prod.mk.inj heq).2
      have hother : ¬some (patron, policyId) = some (patron, policyId') :=
        fun heq => hkey (Option.some.inj heq).symm
      rw [Function.update_of_ne hkey, if_neg hother] at hrow
      omega
  · apply hsame
    apply hafter.single patron first id workId policyId' policyId
    · have hkey : (first, patron) ≠ (id, patron) := fun heq => hsame (Prod.mk.inj heq).1
      rw [hstanding, Function.update_of_ne hkey, hfirst]
    · rw [hstanding, Function.update_self]

/-- The limits stay real after a line when, and only when, the patron has no active loan of the work that
the line checks out. -/
theorem LimitsReal.step (h : LimitsReal e.pre.lending) (hkeyed : Keyed crypto hashed e.pre.lending)
    (hfree : CollisionFree crypto.sha256 hashed) (hadmitted : Step.admitted hashed e)
    (hline : Checking crypto e) : LimitsReal e.post.lending ↔ Step.unlent e := by
  cases hline with
  | quiet call standing counters totals =>
    refine iff_of_true (h.congr standing counters totals) ?_
    intro patron workId hout
    rw [call] at hout
    cases hout
  | checkout patron workId policyId call standing counters totals =>
    have hlisted := hadmitted.listed _ (by rw [Step.loanBytes, call]; rfl)
    constructor
    · intro hafter patron' workId' hout id policyId' hfirst
      rw [call] at hout
      cases hout
      exact h.overlent hfirst standing counters hafter
    · intro hunlent
      apply h.lent _ (hunlent patron workId call) standing counters totals
      cases hfound : e.pre.lending.standing
          (crypto.sha256 (loanPreimage workId e.input.env.timestamp), patron) with
      | none => rfl
      | some row =>
        obtain rfl := hkeyed.same_work hfree hlisted hfound
        exact absurd hfound (hunlent patron row.1 call _ row.2)
  | giveBack patron id workId policyId call found standing counters totals =>
    refine iff_of_true (h.returned found standing counters totals) ?_
    intro patron' workId' hout
    rw [call] at hout
    cases hout

theorem limitsReal_empty : LimitsReal State.empty.lending where
  finite policyId := by simp [State.empty, Lending.empty]
  counters patron policyId := by
    have hnone : State.empty.lending.activeLoans patron policyId = ∅ := by
      rw [Set.eq_empty_iff_forall_notMem]
      intro id hid
      obtain ⟨workId, hfound⟩ := hid
      cases hfound
    rw [hnone, Set.ncard_empty]
    rfl
  totals policyId := finsum_zero.symm
  single _ _ _ _ _ _ h := nomatch h

/-- Checkouts stay below the limits. The counters count the active loans all along a run, one for each
patron and work, when no patron checks out a work of which he has an active loan, and only then. -/
theorem run_limits (crypto : Crypto) (is : List (Input contract))
    (hcalls : ∀ i ∈ is, ∀ call, i.call = .lend call → call.ending = none)
    (hfree : CollisionFree crypto.sha256
      (((machine contract crypto).journal State.empty is).filterMap Step.loanBytes)) :
    (∀ e ∈ (machine contract crypto).journal State.empty is, Step.withinLimits e) ∧
    ((∀ js, js <+: is → LimitsReal ((machine contract crypto).run State.empty js).lending) ↔
      ∀ e ∈ (machine contract crypto).journal State.empty is, Step.unlent e) := by
  constructor
  · intro e he
    exact step_withinLimits ((machine contract crypto).journal_step he).1
  · let hashed := ((machine contract crypto).journal State.empty is).filterMap Step.loanBytes
    have hadmitted : ∀ e ∈ (machine contract crypto).journal State.empty is,
        Step.admitted hashed e := by
      intro e he
      constructor
      · apply hcalls
        exact ((machine contract crypto).journal_inputs State.empty is).subset (List.mem_map_of_mem he)
      · intro p hp
        exact List.mem_filterMap.mpr ⟨e, he, hp⟩
    have halong := @Machine.along_iff _ _ _ _ (machine contract crypto) (Step.admitted hashed)
      (fun s _ => Keyed crypto hashed s.lending) (fun s _ => LimitsReal s.lending)
      (fun _ e => Step.unlent e) State.empty keyed_empty limitsReal_empty
      (fun es s i o s' hline hkeyed hstep => step_keyed hstep hline hkeyed)
      (fun es s i o s' hline hkeyed hreal hstep =>
        hreal.step hkeyed hfree hline (step_checking hstep hline.keeps)) is hadmitted
    rw [halong]
    constructor
    · intro hlines e he
      obtain ⟨earlier, later, hsplit⟩ := List.append_of_mem he
      exact hlines earlier e later hsplit
    · intro hlines earlier e later hsplit
      apply hlines
      rw [hsplit]
      exact List.mem_append_cons_self

/-- The patron 6 checks one work out twice, at two times. -/
def sampleCheckouts : List (Input ⟨0⟩) :=
  [sampleBootstrap, ⟨.sample, sampleRegistries, .lend (.putPolicy ⟨3⟩ "p" 2 5)⟩,
    ⟨.sample, sampleRegistries, .lend (.putWork ⟨3⟩ 1 1 ⟨3⟩ "p")⟩,
    ⟨.sample, sampleRegistries, .lend (.checkoutWork ⟨6⟩ 1 100 false 1 1000)⟩,
    ⟨.sampleLater, sampleRegistries, .lend (.checkoutWork ⟨6⟩ 1 100 false 1 1000)⟩]

theorem sampleCheckouts_within :
    (∀ e ∈ (machine ⟨0⟩ sampleCrypto).journal State.empty sampleCheckouts, Step.withinLimits e) ∧
    ((∀ js, js <+: sampleCheckouts →
        LimitsReal ((machine ⟨0⟩ sampleCrypto).run State.empty js).lending) ↔
      ∀ e ∈ (machine ⟨0⟩ sampleCrypto).journal State.empty sampleCheckouts, Step.unlent e) := by
  apply run_limits
  · intro i hi call hcall
    simp only [sampleCheckouts, sampleBootstrap, List.mem_cons, List.not_mem_nil, or_false] at hi
    rcases hi with rfl | rfl | rfl | rfl | rfl <;> cases hcall <;> rfl
  · decide +kernel

/-- He has two active loans of it. -/
theorem sampleCheckouts_overlent :
    ¬LimitsReal ((machine ⟨0⟩ sampleCrypto).run State.empty sampleCheckouts).lending := by
  intro hreal
  have hfirst : ((machine ⟨0⟩ sampleCrypto).run State.empty sampleCheckouts).lending.standing
      (sampleLoanId, ⟨6⟩) = some (1, "p") := by
    decide +kernel
  have hsecond : ((machine ⟨0⟩ sampleCrypto).run State.empty sampleCheckouts).lending.standing
      (sampleSecondLoanId, ⟨6⟩) = some (1, "p") := by
    decide +kernel
  have hsame := hreal.single ⟨6⟩ sampleLoanId sampleSecondLoanId 1 "p" "p" hfirst hsecond
  exact absurd hsame (by decide)

end Limits

end ChainVerse.LibraryRights
