import ChainVerse.Framework.Histories
import ChainVerse.Library.Loans

namespace ChainVerse.LibraryRights

section Seats

variable {contract : Address} {crypto : Crypto} {s s' : State} {i : Input contract} {o : Answer}

section Lines

/-- The reserve that a line creates, with its seats. -/
def Step.creates (e : Step contract) : Option ((Bytes32 × Bytes32) × Nat) :=
  match e.input.call with
  | .lend (.createReserve _ workId courseId seats _) => some ((workId, courseId), seats)
  | _ => none

/-- The reserve that a line borrows from, and for whom. -/
def Step.takes (e : Step contract) : Option ((Bytes32 × Bytes32) × Address) :=
  match e.input.call with
  | .lend (.borrowFromReserve _ workId courseId borrower) => some ((workId, courseId), borrower)
  | _ => none

/-- The reserve that a line gives a seat back to. -/
def Step.restores (e : Step contract) : Option (Bytes32 × Bytes32) :=
  match e.input.call with
  | .lend (.returnToReserve _ workId courseId _) => some (workId, courseId)
  | _ => none

/-- The line ends the loan of a work to a borrower. -/
structure Step.ends (e : Step contract) (slot : Bytes32 × Address) : Prop where
  lent : e.pre.lending.loan slot ≠ none
  ended : e.post.lending.loan slot = none

/-- A loan made from the reserve that has not been returned. -/
def Outstanding (es : List (Step contract)) (k : Bytes32 × Bytes32) (borrower : Address) : Prop :=
  Since (fun e => Step.takes e = some (k, borrower)) (fun e => Step.ends e (k.1, borrower)) es

/-- A seat is given back to the reserve from which the loan was made, and a loan from a reserve is
returned to it. -/
def Step.proper (es : List (Step contract)) (e : Step contract) : Prop :=
  match e.input.call with
  | .lend (.returnToReserve _ workId courseId borrower) => Outstanding es (workId, courseId) borrower
  | .lend (.returnWork _ workId borrower) => ∀ courseId, ¬Outstanding es (workId, courseId) borrower
  | _ => True

/-- The seats of every reserve and the loans outstanding from it are the seats it was created with. -/
def SeatsConserved (s : State) (es : List (Step contract)) : Prop :=
  ∀ e ∈ es, ∀ k seats, Step.creates e = some (k, seats) →
    ∃ row, s.lending.reserve k = some row ∧ {b | Outstanding es k b}.Finite ∧
      row.seats + {b | Outstanding es k b}.ncard = seats ∧ row.seats ≤ seats

end Lines

section Outstanding

variable {es : List (Step contract)} {e : Step contract} {k : Bytes32 × Bytes32} {borrower : Address}

theorem outstanding_snoc : Outstanding (es ++ [e]) k borrower ↔
    Step.takes e = some (k, borrower) ∨ Outstanding es k borrower ∧ ¬Step.ends e (k.1, borrower) :=
  since_snoc

/-- What always holds of the reserves and of the loans made from them. -/
structure Seated (s : State) (es : List (Step contract)) : Prop where
  /-- The reserves are those that were created. -/
  created : ∀ k, s.lending.reserve k ≠ none ↔ ∃ e ∈ es, ∃ seats, Step.creates e = some (k, seats)
  /-- A loan outstanding is there, and was made from one reserve. -/
  lent : ∀ k b, Outstanding es k b → s.lending.loan (k.1, b) ≠ none
  stored : ∀ k b, Outstanding es k b → s.lending.reserve k ≠ none
  single : ∀ k k' b, Outstanding es k b → Outstanding es k' b → k.1 = k'.1 → k = k'
  finite : ∀ k, {b | Outstanding es k b}.Finite

end Outstanding

open Classical in
/-- What an accepted call does to the seats and to the loans, by what its line says of them. -/
structure Seating (e : Step contract) : Prop where
  fresh : ∀ k seats, Step.creates e = some (k, seats) →
    e.pre.lending.reserve k = none ∧ ∃ row, e.post.lending.reserve k = some row ∧ row.seats = seats
  absent : ∀ k, e.pre.lending.reserve k = none → e.post.lending.reserve k ≠ none →
    ∃ seats, Step.creates e = some (k, seats)
  moved : ∀ k row, e.pre.lending.reserve k = some row →
    ∃ next, e.post.lending.reserve k = some next ∧
      next.seats + (if ∃ b, Step.takes e = some (k, b) then 1 else 0) =
        row.seats + (if Step.restores e = some k then 1 else 0)
  taken : ∀ k b, Step.takes e = some (k, b) → e.pre.lending.reserve k ≠ none ∧
    e.pre.lending.loan (k.1, b) = none ∧ e.post.lending.loan (k.1, b) ≠ none
  restored : ∀ k, Step.restores e = some k → e.pre.lending.reserve k ≠ none
  ends : ∀ slot, Step.ends e slot →
    ∃ call caller, e.input.call = .lend call ∧ call.ending = some (caller, slot)
  ended : ∀ call caller slot, e.input.call = .lend call → call.ending = some (caller, slot) →
    e.post.lending.loan slot = none

section Seating

variable {e : Step contract}

/-- A line that says nothing of reserves, and writes none. -/
theorem seating_quiet (hcreates : Step.creates e = none) (htakes : Step.takes e = none)
    (hrestores : Step.restores e = none) (hreserves : e.post.lending.reserve = e.pre.lending.reserve)
    (hends : ∀ slot, Step.ends e slot →
      ∃ call caller, e.input.call = .lend call ∧ call.ending = some (caller, slot))
    (hended : ∀ call caller slot, e.input.call = .lend call → call.ending = some (caller, slot) →
      e.post.lending.loan slot = none) : Seating e := by
  refine ⟨?_, ?_, ?_, ?_, ?_, hends, hended⟩
  · intro k seats hk
    rw [hcreates] at hk
    cases hk
  · intro k hbefore hafter
    rw [hreserves] at hafter
    exact absurd hbefore hafter
  · intro k row hrow
    rw [← hreserves] at hrow
    refine ⟨row, hrow, ?_⟩
    simp [htakes, hrestores]
  · intro k b hk
    rw [htakes] at hk
    cases hk
  · intro k hk
    rw [hrestores] at hk
    cases hk

open Classical in
/-- A line that counts the seats of one reserve up or down. -/
theorem seating_counted {k : Bytes32 × Bytes32} {row : ReserveRecord} {seats : Nat}
    (hcreates : Step.creates e = none) (hfound : e.pre.lending.reserve k = some row)
    (hreserves : e.post.lending.reserve =
      Function.update e.pre.lending.reserve k (some { row with seats }))
    (htakes : ∀ x b, Step.takes e = some (x, b) → x = k ∧ e.pre.lending.loan (x.1, b) = none ∧
      e.post.lending.loan (x.1, b) ≠ none)
    (hrestores : ∀ x, Step.restores e = some x → x = k)
    (hmoved : seats + (if ∃ b, Step.takes e = some (k, b) then 1 else 0) =
      row.seats + (if Step.restores e = some k then 1 else 0))
    (hends : ∀ slot, Step.ends e slot →
      ∃ call caller, e.input.call = .lend call ∧ call.ending = some (caller, slot))
    (hended : ∀ call caller slot, e.input.call = .lend call → call.ending = some (caller, slot) →
      e.post.lending.loan slot = none) : Seating e := by
  have hstored : e.pre.lending.reserve k ≠ none := by
    rw [hfound]
    exact Option.some_ne_none row
  refine ⟨?_, ?_, ?_, ?_, ?_, hends, hended⟩
  · intro x count hx
    rw [hcreates] at hx
    cases hx
  · intro x hbefore hafter
    by_cases hx : x = k
    · rw [hx] at hbefore
      exact absurd hbefore hstored
    · rw [hreserves, Function.update_of_ne hx] at hafter
      exact absurd hbefore hafter
  · intro x other hother
    by_cases hx : x = k
    · subst hx
      rw [hfound] at hother
      cases hother
      exact ⟨_, by rw [hreserves, Function.update_self], hmoved⟩
    · refine ⟨other, by rw [hreserves, Function.update_of_ne hx, hother], ?_⟩
      have hnotake : ¬∃ b, Step.takes e = some (x, b) := fun ⟨b, hb⟩ => hx (htakes x b hb).1
      have hnorestore : ¬Step.restores e = some x := fun hrestored => hx (hrestores x hrestored)
      rw [if_neg hnotake, if_neg hnorestore]
  · intro x b hx
    obtain ⟨rfl, hfree, hlent⟩ := htakes x b hx
    exact ⟨hstored, hfree, hlent⟩
  · intro x hx
    obtain rfl := hrestores x hx
    exact hstored

/-- After a return the loan that it names is gone. -/
theorem Lends.unlent {env : Env contract} {call : LendCall} {l : Lending} {caller : Address}
    {slot : Bytes32 × Address} (h : Lends env crypto s call o l)
    (hending : call.ending = some (caller, slot)) : l.loan slot = none := by
  cases h with
  | giveBack may =>
    cases hending
    exact Function.update_self _ _ _
  | returnReserve row may found fits =>
    cases hending
    exact Function.update_self _ _ _
  | _ => cases hending

theorem step_seating (h : (machine contract crypto).step s i = .ok (o, s')) :
    Seating (⟨s, i, o, s'⟩ : Step contract) := by
  obtain ⟨env, registries, call⟩ := i
  rcases step_lends h with ⟨lending, l, hcall, hlends, rfl⟩ | ⟨hother, hsame⟩
  · dsimp only at hcall hlends
    subst hcall
    have hends : ∀ slot,
        Step.ends (⟨s, ⟨env, registries, .lend lending⟩, o, { s with lending := l }⟩ : Step contract)
          slot → ∃ call caller, Call.lend lending = .lend call ∧ call.ending = some (caller, slot) := by
      intro slot hslot
      obtain ⟨caller, hending, _⟩ := hlends.ended hslot.lent hslot.ended
      exact ⟨lending, caller, rfl, hending⟩
    have hended : ∀ call caller slot, Call.lend lending = .lend call →
        call.ending = some (caller, slot) → l.loan slot = none := by
      intro call caller slot heq hending
      cases heq
      exact hlends.unlent hending
    cases hlends with
    | @reserve _ workId courseId seats expiry fresh =>
      refine ⟨?_, ?_, ?_, ?_, ?_, hends, hended⟩
      · intro k count hk
        cases hk
        exact ⟨fresh, _, Function.update_self _ _ _, rfl⟩
      · intro k hbefore hafter
        by_cases hk : k = (workId, courseId)
        · exact ⟨seats, by rw [hk]; rfl⟩
        · exact absurd ((Function.update_of_ne hk _ _).trans hbefore) hafter
      · intro k row hrow
        have hk : k ≠ (workId, courseId) := by
          intro heq
          rw [heq, fresh] at hrow
          cases hrow
        exact ⟨row, (Function.update_of_ne hk _ _).trans hrow, by simp [Step.takes, Step.restores]⟩
      · intro k b hk
        exact nomatch hk
      · intro k hk
        exact nomatch hk
    | @borrowReserve _ borrower workId courseId row expiry found seated free =>
      refine seating_counted rfl found rfl ?_ (fun _ hx => nomatch hx) ?_ hends hended
      · intro x b hx
        cases hx
        refine ⟨rfl, free, ?_⟩
        intro hgone
        have hlent : Function.update s.lending.loan (workId, borrower)
            (some (LoanRow.borrowed { workId, borrower, expiry })) (workId, borrower) = none := hgone
        rw [Function.update_self] at hlent
        cases hlent
      · rw [if_pos ⟨borrower, rfl⟩, if_neg (by exact fun hx => nomatch hx)]
        omega
    | @returnReserve _ borrower workId courseId row may found fits =>
      refine seating_counted rfl found rfl (fun _ _ hx => nomatch hx) ?_ ?_ hends hended
      · intro x hx
        cases hx
        rfl
      · rw [if_neg (by exact fun ⟨_, hx⟩ => nomatch hx), if_pos (by rfl)]
    | _ => exact seating_quiet rfl rfl rfl rfl hends hended
  · have hends : ∀ slot, ¬Step.ends (⟨s, ⟨env, registries, call⟩, o, s'⟩ : Step contract) slot := by
      intro slot hslot
      have hgone := hslot.ended
      rw [hsame] at hgone
      exact hslot.lent hgone
    cases call with
    | lend lending => exact absurd rfl (hother lending)
    | _ =>
      exact seating_quiet rfl rfl rfl (congrArg Lending.reserve hsame)
        (fun slot hslot => absurd hslot (hends slot)) fun _ _ _ heq => nomatch heq

end Seating

end Seats

variable {contract : Address} {crypto : Crypto} {s s' : State} {i : Input contract} {o : Answer}

section Standing

variable {es : List (Step contract)} {e : Step contract} {k : Bytes32 × Bytes32} {borrower : Address}

theorem not_outstanding_nil : ¬Outstanding ([] : List (Step contract)) k borrower := by
  intro hout
  obtain ⟨earlier, x, later, hsplit, _⟩ := hout
  exact List.append_ne_nil_of_right_ne_nil _ (List.cons_ne_nil _ _) hsplit.symm

theorem seated_empty : Seated State.empty ([] : List (Step contract)) where
  created k := by simp [State.empty, Lending.empty]
  lent k b hout := absurd hout not_outstanding_nil
  stored k b hout := absurd hout not_outstanding_nil
  single k k' b hout := absurd hout not_outstanding_nil
  finite k := by
    have hnone : {b | Outstanding ([] : List (Step contract)) k b} = ∅ :=
      Set.eq_empty_iff_forall_notMem.mpr fun b => not_outstanding_nil
    rw [hnone]
    exact Set.finite_empty

/-- A loan that a reserve makes is not outstanding before from any. -/
theorem Seated.taken_new (hseated : Seated e.pre es) (hline : Seating e)
    (htakes : Step.takes e = some (k, borrower)) {x : Bytes32 × Bytes32} (hx : x.1 = k.1) :
    ¬Outstanding es x borrower := by
  intro hout
  have hlent := hseated.lent x borrower hout
  rw [hx] at hlent
  exact hlent (hline.taken k borrower htakes).2.1

theorem Seating.kept (hline : Seating e) (hstored : e.pre.lending.reserve k ≠ none) :
    e.post.lending.reserve k ≠ none := by
  obtain ⟨row, hrow⟩ := Option.ne_none_iff_exists'.mp hstored
  obtain ⟨next, hnext, _⟩ := hline.moved k row hrow
  rw [hnext]
  exact Option.some_ne_none next

theorem Seated.step (hseated : Seated e.pre es) (hline : Seating e) : Seated e.post (es ++ [e]) := by
  constructor
  · intro x
    constructor
    · intro hafter
      by_cases hbefore : e.pre.lending.reserve x = none
      · obtain ⟨seats, hcreates⟩ := hline.absent x hbefore hafter
        exact ⟨e, List.mem_concat_self, seats, hcreates⟩
      · obtain ⟨first, hfirst, hcreates⟩ := (hseated.created x).mp hbefore
        exact ⟨first, List.mem_append_left _ hfirst, hcreates⟩
    · intro hcreated
      obtain ⟨first, hfirst, seats, hcreates⟩ := hcreated
      rcases List.mem_append.mp hfirst with hold | hnew
      · exact hline.kept ((hseated.created x).mpr ⟨first, hold, seats, hcreates⟩)
      · obtain rfl := List.mem_singleton.mp hnew
        obtain ⟨_, row, hrow, _⟩ := hline.fresh x seats hcreates
        rw [hrow]
        exact Option.some_ne_none row
  · intro x b hout
    rcases outstanding_snoc.mp hout with htakes | ⟨hold, hends⟩
    · exact (hline.taken x b htakes).2.2
    · intro hgone
      exact hends ⟨hseated.lent x b hold, hgone⟩
  · intro x b hout
    rcases outstanding_snoc.mp hout with htakes | ⟨hold, _⟩
    · exact hline.kept (hline.taken x b htakes).1
    · exact hline.kept (hseated.stored x b hold)
  · intro x y b hx hy hsame
    rcases outstanding_snoc.mp hx with htakes | ⟨holdx, _⟩
    · rcases outstanding_snoc.mp hy with htakes' | ⟨holdy, _⟩
      · rw [htakes, Option.some.injEq, Prod.mk.injEq] at htakes'
        exact htakes'.1
      · exact absurd holdy (hseated.taken_new hline htakes hsame.symm)
    · rcases outstanding_snoc.mp hy with htakes' | ⟨holdy, _⟩
      · exact absurd holdx (hseated.taken_new hline htakes' hsame)
      · exact hseated.single x y b holdx holdy hsame
  · intro x
    have htaken : {b | Step.takes e = some (x, b)}.Subsingleton := by
      intro b hb b' hb'
      rw [Set.mem_ofPred_eq] at hb hb'
      rw [hb, Option.some.injEq, Prod.mk.injEq] at hb'
      exact hb'.2
    apply (htaken.finite.union (hseated.finite x)).subset
    intro b hout
    exact (outstanding_snoc.mp hout).imp_right And.left

end Standing

section Balance

variable {es : List (Step contract)} {e : Step contract} {k : Bytes32 × Bytes32}

/-- The line ends a loan outstanding from the reserve. -/
def Step.settles (es : List (Step contract)) (e : Step contract) (k : Bytes32 × Bytes32) : Prop :=
  ∃ b, Outstanding es k b ∧ Step.ends e (k.1, b)

/-- A line that ends a loan names it, and makes none. -/
theorem Seating.ends_only (hline : Seating e) {slot : Bytes32 × Address} (hends : Step.ends e slot) :
    Step.takes e = none ∧ ∀ other, Step.ends e other → other = slot := by
  obtain ⟨call, caller, hcall, hending⟩ := hline.ends slot hends
  constructor
  · cases call with
    | returnWork => simp [Step.takes, hcall]
    | returnToReserve => simp [Step.takes, hcall]
    | _ => cases hending
  · intro other hother
    obtain ⟨call', caller', hcall', hending'⟩ := hline.ends other hother
    rw [hcall, Call.lend.injEq] at hcall'
    subst hcall'
    rw [hending, Option.some.injEq, Prod.mk.injEq] at hending'
    exact hending'.2.symm

open Classical in
/-- The loans outstanding from a reserve move by those that the line makes and ends. -/
theorem Seated.ncard_step (hseated : Seated e.pre es) (hline : Seating e) :
    {b | Outstanding (es ++ [e]) k b}.ncard + (if Step.settles es e k then 1 else 0) =
      {b | Outstanding es k b}.ncard + (if ∃ b, Step.takes e = some (k, b) then 1 else 0) := by
  by_cases hsettles : Step.settles es e k
  · obtain ⟨b, hout, hends⟩ := hsettles
    obtain ⟨htakes, honly⟩ := hline.ends_only hends
    have hset : {b | Outstanding (es ++ [e]) k b} = {b | Outstanding es k b} \ {b} := by
      ext x
      simp only [Set.mem_ofPred_eq, outstanding_snoc, htakes, Set.mem_sdiff, Set.mem_singleton_iff,
        reduceCtorEq, false_or]
      apply and_congr_right
      intro _
      apply not_congr
      constructor
      · intro hx
        exact (Prod.mk.inj (honly _ hx)).2
      · intro hx
        rw [hx]
        exact hends
    have hin : b ∈ {b | Outstanding es k b} := hout
    rw [if_pos ⟨b, hout, hends⟩, if_neg (by simp [htakes]), hset,
      Set.ncard_sdiff_singleton_add_one hin (hseated.finite k), Nat.add_zero]
  · have hstays : ∀ x, Outstanding es k x → ¬Step.ends e (k.1, x) := fun x hx hends =>
      hsettles ⟨x, hx, hends⟩
    rw [if_neg hsettles, Nat.add_zero]
    by_cases htakes : ∃ b, Step.takes e = some (k, b)
    · obtain ⟨b, hb⟩ := htakes
      have hset : {b | Outstanding (es ++ [e]) k b} = insert b {b | Outstanding es k b} := by
        ext x
        simp only [Set.mem_ofPred_eq, outstanding_snoc, hb, Set.mem_insert_iff, Option.some.injEq,
          Prod.mk.injEq, true_and]
        exact or_congr eq_comm (and_iff_left_of_imp (hstays x))
      have hout : b ∉ {b | Outstanding es k b} := hseated.taken_new hline hb rfl
      rw [if_pos ⟨b, hb⟩, hset, Set.ncard_insert_of_notMem hout (hseated.finite k)]
    · have hset : {b | Outstanding (es ++ [e]) k b} = {b | Outstanding es k b} := by
        ext x
        simp only [Set.mem_ofPred_eq, outstanding_snoc]
        have hno : ¬Step.takes e = some (k, x) := fun hx => htakes ⟨x, hx⟩
        simp only [hno, false_or]
        exact and_iff_left_of_imp (hstays x)
      rw [if_neg htakes, hset, Nat.add_zero]

/-- A return settles the loan that it names with the reserve from which it was made. -/
theorem Seated.settles_iff (hseated : Seated e.pre es) (hline : Seating e) {call : LendCall}
    {caller borrower : Address} {workId : Bytes32} (hcall : e.input.call = .lend call)
    (hending : call.ending = some (caller, workId, borrower)) :
    Step.settles es e k ↔ k.1 = workId ∧ Outstanding es k borrower := by
  constructor
  · intro hsettles
    obtain ⟨b, hout, hends⟩ := hsettles
    obtain ⟨call', caller', hcall', hending'⟩ := hline.ends _ hends
    rw [hcall, Call.lend.injEq] at hcall'
    subst hcall'
    rw [hending, Option.some.injEq, Prod.mk.injEq, Prod.mk.injEq] at hending'
    obtain ⟨_, rfl, rfl⟩ := hending'
    exact ⟨rfl, hout⟩
  · intro h
    obtain ⟨rfl, hout⟩ := h
    exact ⟨borrower, hout, hseated.lent k borrower hout, hline.ended call caller _ hcall hending⟩

theorem Seating.not_settles (hline : Seating e)
    (hcall : ∀ call caller slot, e.input.call = .lend call → call.ending ≠ some (caller, slot)) :
    ¬Step.settles es e k := by
  intro hsettles
  obtain ⟨b, _, hends⟩ := hsettles
  obtain ⟨call, caller, harrives, hending⟩ := hline.ends _ hends
  exact hcall call caller _ harrives hending

/-- A proper line settles a loan with each reserve to which it gives a seat back, and no other. -/
theorem Seated.proper_iff (hseated : Seated e.pre es) (hline : Seating e) :
    Step.proper es e ↔ ∀ k, e.pre.lending.reserve k ≠ none →
      (Step.settles es e k ↔ Step.restores e = some k) := by
  have hother : (∀ call caller slot, e.input.call = .lend call → call.ending ≠ some (caller, slot)) →
      Step.restores e = none → ∀ k, e.pre.lending.reserve k ≠ none →
        (Step.settles es e k ↔ Step.restores e = some k) := by
    intro hcall hrestores k _
    rw [hrestores]
    exact iff_of_false (hline.not_settles hcall) (by simp)
  unfold Step.proper
  split
  next caller workId courseId borrower hcall =>
    have hsettles : ∀ k, Step.settles es e k ↔ k.1 = workId ∧ Outstanding es k borrower := fun k =>
      hseated.settles_iff hline hcall rfl
    have hrestores : Step.restores e = some (workId, courseId) := by
      rw [Step.restores, hcall]
    constructor
    · intro hout k _
      rw [hsettles, hrestores, Option.some.injEq]
      constructor
      · intro h
        exact hseated.single _ _ _ hout h.2 h.1.symm
      · intro hk
        rw [← hk]
        exact ⟨rfl, hout⟩
    · intro hall
      have hstored := hline.restored _ hrestores
      exact ((hsettles _).mp ((hall _ hstored).mpr hrestores)).2
  next caller workId borrower hcall =>
    have hsettles : ∀ k, Step.settles es e k ↔ k.1 = workId ∧ Outstanding es k borrower := fun k =>
      hseated.settles_iff hline hcall rfl
    have hrestores : Step.restores e = none := by
      rw [Step.restores, hcall]
    constructor
    · intro hnone k _
      rw [hsettles, hrestores]
      apply iff_of_false
      · intro h
        obtain ⟨rfl, hout⟩ := h
        exact hnone k.2 hout
      · exact Option.some_ne_none k ∘ Eq.symm
    · intro hall courseId hout
      have hstored := hseated.stored _ _ hout
      rw [hrestores] at hall
      cases (hall _ hstored).mp ((hsettles _).mpr ⟨rfl, hout⟩)
  next hnoreserve hnowork =>
    refine iff_of_true trivial (hother ?_ ?_)
    · intro call caller slot hcall hending
      cases call with
      | returnWork c w b => exact hnowork c w b hcall
      | returnToReserve c w course b => exact hnoreserve c w course b hcall
      | _ => cases hending
    · unfold Step.restores
      split
      next c w course b hcall => exact absurd hcall (hnoreserve c w course b)
      next => rfl

end Balance

section Conservation

variable {es : List (Step contract)} {e : Step contract} {k : Bytes32 × Bytes32}

/-- A reserve that a line creates has nothing outstanding. -/
theorem Seated.conserved_fresh (hseated : Seated e.pre es) (hline : Seating e) {seats : Nat}
    (hcreates : Step.creates e = some (k, seats)) :
    ∃ row, e.post.lending.reserve k = some row ∧ {b | Outstanding (es ++ [e]) k b}.Finite ∧
      row.seats + {b | Outstanding (es ++ [e]) k b}.ncard = seats ∧ row.seats ≤ seats := by
  obtain ⟨hnew, row, hrow, rfl⟩ := hline.fresh k seats hcreates
  have hnone : {b | Outstanding (es ++ [e]) k b} = ∅ := by
    rw [Set.eq_empty_iff_forall_notMem]
    intro b hout
    rcases outstanding_snoc.mp hout with htakes | ⟨hold, _⟩
    · exact (hline.taken k b htakes).1 hnew
    · exact hseated.stored k b hold hnew
  refine ⟨row, hrow, (hseated.step hline).finite k, ?_, Nat.le_refl _⟩
  rw [hnone, Set.ncard_empty, Nat.add_zero]

/-- A line keeps the balance of a reserve when it settles a loan with it for each seat that it gives
back. -/
theorem Seated.conserved_iff (hseated : Seated e.pre es) (hline : Seating e) {seats : Nat}
    {row : ReserveRecord} (hrow : e.pre.lending.reserve k = some row)
    (hbalance : row.seats + {b | Outstanding es k b}.ncard = seats) :
    (∃ next, e.post.lending.reserve k = some next ∧ {b | Outstanding (es ++ [e]) k b}.Finite ∧
      next.seats + {b | Outstanding (es ++ [e]) k b}.ncard = seats ∧ next.seats ≤ seats) ↔
      (Step.settles es e k ↔ Step.restores e = some k) := by
  classical
  obtain ⟨next, hnext, hmoved⟩ := hline.moved k row hrow
  have hcount := hseated.ncard_step hline (k := k)
  have hfinite := (hseated.step hline).finite k
  have hsum : next.seats + {b | Outstanding (es ++ [e]) k b}.ncard +
      (if Step.settles es e k then 1 else 0) =
        seats + (if Step.restores e = some k then 1 else 0) := by
    omega
  constructor
  · intro h
    obtain ⟨other, hother, _, hkept, _⟩ := h
    rw [hnext, Option.some.injEq] at hother
    subst hother
    rw [hkept] at hsum
    by_cases hsettles : Step.settles es e k
    · by_cases hrestores : Step.restores e = some k
      · exact iff_of_true hsettles hrestores
      · rw [if_pos hsettles, if_neg hrestores] at hsum
        omega
    · by_cases hrestores : Step.restores e = some k
      · rw [if_neg hsettles, if_pos hrestores] at hsum
        omega
      · exact iff_of_false hsettles hrestores
  · intro hboth
    rw [if_congr hboth rfl rfl] at hsum
    have hkept := Nat.add_right_cancel hsum
    exact ⟨next, hnext, hfinite, hkept, hkept ▸ Nat.le_add_right _ _⟩

/-- The seats are still conserved after a line when, and only when, it is proper. -/
theorem Seated.conserved_step (hseated : Seated e.pre es) (hline : Seating e)
    (hconserved : SeatsConserved e.pre es) :
    SeatsConserved e.post (es ++ [e]) ↔ Step.proper es e := by
  rw [hseated.proper_iff hline]
  constructor
  · intro hafter k hstored
    obtain ⟨first, hfirst, seats, hcreates⟩ := (hseated.created k).mp hstored
    obtain ⟨row, hrow, _, hbalance, _⟩ := hconserved first hfirst k seats hcreates
    exact (hseated.conserved_iff hline hrow hbalance).mp
      (hafter first (List.mem_append_left _ hfirst) k seats hcreates)
  · intro hproper first hfirst k seats hcreates
    rcases List.mem_append.mp hfirst with hold | hnew
    · obtain ⟨row, hrow, _, hbalance, _⟩ := hconserved first hold k seats hcreates
      apply (hseated.conserved_iff hline hrow hbalance).mpr
      apply hproper
      rw [hrow]
      exact Option.some_ne_none row
    · obtain rfl := List.mem_singleton.mp hnew
      exact hseated.conserved_fresh hline hcreates

/-- Every reserve was created. The seats and the loans outstanding add up all along a run when every return
of a seat ends a loan from that reserve and no loan from a reserve is returned without its seat, and only
then. -/
theorem run_seats (crypto : Crypto) (is : List (Input contract)) :
    let m := machine contract crypto
    (∀ k, (m.run State.empty is).lending.reserve k ≠ none ↔
      ∃ e ∈ m.journal State.empty is, ∃ seats, Step.creates e = some (k, seats)) ∧
    ((∀ js, js <+: is → SeatsConserved (m.run State.empty js) (m.journal State.empty js)) ↔
      ∀ earlier e later, m.journal State.empty is = earlier ++ e :: later → Step.proper earlier e) := by
  intro m
  have hseated : Seated (m.run State.empty is) (m.journal State.empty is) :=
    m.run_journal_invariant seated_empty
      (fun es s i o s' hseated hstep => hseated.step (step_seating hstep)) is
  refine ⟨hseated.created, ?_⟩
  refine Machine.along_iff (A := fun _ => True) seated_empty ?_ ?_ ?_ fun _ _ => trivial
  · intro e he
    exact absurd he List.not_mem_nil
  · intro es s i o s' _ hbefore hstep
    exact hbefore.step (step_seating hstep)
  · intro es s i o s' _ hbefore hconserved hstep
    exact hbefore.conserved_step (step_seating hstep) hconserved

end Conservation

/-- The librarian returns a loan that does not exist. -/
def sampleUnlent : List (Input ⟨0⟩) :=
  [sampleBootstrap, ⟨.sample, sampleRegistries, .lend (.putPolicy ⟨3⟩ "p" 2 5)⟩,
    ⟨.sample, sampleRegistries, .lend (.putWork ⟨3⟩ 1 1 ⟨3⟩ "p")⟩,
    ⟨.sample, sampleRegistries, .lend (.createReserve ⟨3⟩ 1 2 3 100)⟩,
    ⟨.sample, sampleRegistries, .lend (.returnToReserve ⟨5⟩ 1 2 ⟨9⟩)⟩]

/-- A reserve of three seats has four. -/
theorem sampleUnlent_restored :
    ¬SeatsConserved ((machine ⟨0⟩ sampleCrypto).run State.empty sampleUnlent)
      ((machine ⟨0⟩ sampleCrypto).journal State.empty sampleUnlent) := by
  intro hconserved
  have hcreated : ((machine ⟨0⟩ sampleCrypto).journal State.empty sampleUnlent).map Step.creates =
      [none, none, none, some ((1, 2), 3), none] := by
    decide +kernel
  have hseats : ((machine ⟨0⟩ sampleCrypto).run State.empty sampleUnlent).lending.reserve (1, 2) =
      some { workId := 1, courseId := 2, seats := 4, expiry := 100 } := by
    decide +kernel
  have hline : some ((1, 2), 3) ∈
      ((machine ⟨0⟩ sampleCrypto).journal State.empty sampleUnlent).map Step.creates := by
    rw [hcreated]
    simp
  obtain ⟨e, he, hcreates⟩ := List.mem_map.mp hline
  obtain ⟨row, hrow, _, _, hle⟩ := hconserved e he (1, 2) 3 hcreates
  rw [hseats] at hrow
  cases hrow
  exact absurd hle (by decide)

end ChainVerse.LibraryRights
