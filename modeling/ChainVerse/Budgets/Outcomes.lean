import ChainVerse.Budgets.Books
import ChainVerse.Framework.Listings

namespace ChainVerse.ScholarshipDecisions

variable {contract : Address} {env : Env contract} {s s' : State} {call : Call} {key : Application}
  {reservation : Reservation} {es : List (Step contract)}

section Decided

/-- The rows of one application fit together: an open decision is pending, an open appeal is against a
decision that has awarded nothing, and there is a reservation just for an award. -/
structure Fits (decision : Option Decision) (reservation : Option Reservation)
    (appeal : Option Appeal) : Prop where
  pending : ∀ d, decision = some d → d.status = .opened → d.outcome = .pending
  contested : ∀ a, appeal = some a → a.status = .opened →
    ∃ d, decision = some d ∧ d.status = .finalized ∧ d.outcome ≠ .awarded
  awarded : reservation ≠ none ↔ ∃ d, decision = some d ∧ d.outcome = .awarded

def Decided (s : State) : Prop := ∀ key, Fits (s.decision key) (s.reservation key) (s.appeal key)

theorem decided_empty : Decided State.empty := by
  intro key
  refine ⟨?_, ?_, ?_⟩
  · intro d hd
    cases hd
  · intro a ha
    cases ha
  · refine iff_of_false (fun hsome => hsome rfl) ?_
    intro hd
    obtain ⟨d, hd, _⟩ := hd
    cases hd

/-- Only one application is written. -/
theorem Decided.at (hs : Decided s) (key : Application)
    (hdecision : ∀ other, other ≠ key → s'.decision other = s.decision other)
    (hreservation : ∀ other, other ≠ key → s'.reservation other = s.reservation other)
    (happeal : ∀ other, other ≠ key → s'.appeal other = s.appeal other)
    (h : Fits (s'.decision key) (s'.reservation key) (s'.appeal key)) : Decided s' := by
  intro other
  by_cases hother : other = key
  · rw [hother]
    exact h
  · rw [hdecision other hother, hreservation other hother, happeal other hother]
    exact hs other

/-- Until a decision is made there is neither an appeal nor a reservation. -/
theorem Decided.vacant (hs : Decided s)
    (hundecided : ∀ d, s.decision key = some d → d.status = .opened) : s.reservation key = none := by
  by_contra hsome
  obtain ⟨d, hd, hawarded⟩ := (hs key).awarded.mp hsome
  have hpending := (hs key).pending d hd (hundecided d hd)
  rw [hawarded] at hpending
  cases hpending

theorem Decided.uncontested (hs : Decided s)
    (hundecided : ∀ d, s.decision key = some d → d.status = .opened) {a : Appeal}
    (ha : s.appeal key = some a) : a.status ≠ .opened := by
  intro hopen
  obtain ⟨d, hd, hfinalized, _⟩ := (hs key).contested a ha hopen
  have hopened := hundecided d hd
  rw [hfinalized] at hopened
  cases hopened

/-- What an appeal is against. -/
theorem Decided.appealed (hs : Decided s) {a : Appeal} (ha : s.appeal key = some a)
    (hopen : a.status = .opened) {decision : Decision} (hfound : s.decision key = some decision) :
    decision.status = .finalized ∧ s.reservation key = none := by
  obtain ⟨d, hd, hfinalized, hnot⟩ := (hs key).contested a ha hopen
  rw [hfound, Option.some.injEq] at hd
  subst hd
  refine ⟨hfinalized, ?_⟩
  by_contra hsome
  obtain ⟨d, hd, hawarded⟩ := (hs key).awarded.mp hsome
  rw [hfound, Option.some.injEq] at hd
  exact hnot (hd ▸ hawarded)

/-- The rows of an application once it has been decided and nothing is under appeal. -/
theorem fits_closed {decision : Decision} {reservation : Option Reservation} {appeal : Option Appeal}
    (hpending : decision.status = .opened → decision.outcome = .pending)
    (hclosed : ∀ a, appeal = some a → a.status ≠ .opened)
    (hawarded : reservation ≠ none ↔ decision.outcome = .awarded) :
    Fits (some decision) reservation appeal where
  pending d hd := Option.some.inj hd ▸ hpending
  contested a ha hopen := absurd hopen (hclosed a ha)
  awarded := by
    rw [hawarded]
    constructor
    · exact fun h => ⟨decision, rfl, h⟩
    · intro h
      obtain ⟨d, hd, hd'⟩ := h
      rwa [Option.some.inj hd]

/-- A decision with the same status and outcome takes the place of another one. -/
theorem Fits.recorded {decision written : Decision} {reservation : Option Reservation}
    {appeal : Option Appeal} (h : Fits (some decision) reservation appeal)
    (hstatus : written.status = decision.status) (houtcome : written.outcome = decision.outcome) :
    Fits (some written) reservation appeal := by
  have hsame : ∀ {p : Decision → Prop}, (p decision ↔ p written) →
      ((∃ d, some decision = some d ∧ p d) ↔ ∃ d, some written = some d ∧ p d) := by
    intro p hp
    simp only [Option.some.injEq, exists_eq_left']
    exact hp
  refine ⟨?_, ?_, ?_⟩
  · intro d hd hopen
    cases hd
    rw [houtcome]
    exact h.pending decision rfl (hstatus ▸ hopen)
  · intro a ha hopen
    rw [← hsame (by rw [hstatus, houtcome])]
    exact h.contested a ha hopen
  · rw [h.awarded, hsame (by rw [houtcome])]

theorem pending_of_finalized {decision : Decision} (h : decision.status = .finalized) :
    decision.status = .opened → decision.outcome = .pending := by
  intro hopen
  rw [h] at hopen
  cases hopen

theorem settled_not_opened {resolved a : Appeal} (h : resolved.status = .resolved)
    (ha : some resolved = some a) : a.status ≠ .opened := by
  rw [← Option.some.inj ha, h]
  decide

/-- Every accepted call keeps the rows of each application together. -/
theorem Effect.decided (h : Effect env s call s') (hs : Decided s) : Decided s' := by
  cases h with
  | configure _ _ hdecisions hreservations happeals =>
    intro key
    rw [hdecisions, hreservations, happeals]
    exact hs key
  | register | activate => exact hs
  | @deliberate key written _ hundecided hpending hunawarded =>
    refine hs.at key (fun _ hne => Function.update_of_ne hne _ _) (fun _ _ => rfl) (fun _ _ => rfl) ?_
    show Fits (Function.update s.decision key (some written) key) (s.reservation key) (s.appeal key)
    rw [Function.update_self, hs.vacant hundecided]
    refine fits_closed hpending (fun _ => hs.uncontested hundecided) ?_
    exact iff_of_false (fun hsome => hsome rfl) hunawarded
  | @ballot key decision written _ hfound hstatus houtcome =>
    refine hs.at key (fun _ hne => Function.update_of_ne hne _ _) (fun _ _ => rfl) (fun _ _ => rfl) ?_
    show Fits (Function.update s.decision key (some written) key) (s.reservation key) (s.appeal key)
    rw [Function.update_self]
    have hold := hs key
    rw [hfound] at hold
    exact hold.recorded hstatus houtcome
  | @award key decision written config reservation _ _ hfound hundecided hholds hfinalized hawarded =>
    have hopened : ∀ d, s.decision key = some d → d.status = .opened := by
      intro d hd
      rw [hfound, Option.some.injEq] at hd
      exact hd ▸ hundecided
    refine hs.at key (fun _ hne => Function.update_of_ne hne _ _)
      (fun _ hne => Function.update_of_ne hne _ _) (fun _ _ => rfl) ?_
    show Fits (Function.update s.decision key (some written) key)
      (Function.update s.reservation key (some reservation) key) (s.appeal key)
    rw [Function.update_self, Function.update_self]
    refine fits_closed (pending_of_finalized hfinalized) (fun _ => hs.uncontested hopened) ?_
    exact iff_of_true (Option.some_ne_none _) hawarded
  | @dissolve key reservation config status _ hheld =>
    refine hs.at key (fun _ _ => rfl) (fun _ hne => Function.update_of_ne hne _ _) (fun _ _ => rfl) ?_
    show Fits (s.decision key) (Function.update s.reservation key _ key) (s.appeal key)
    rw [Function.update_self]
    have hold := hs key
    rw [hheld] at hold
    refine ⟨hold.pending, hold.contested, ?_⟩
    rw [← hold.awarded]
    exact iff_of_true (Option.some_ne_none _) (Option.some_ne_none _)
  | @contest key written _ hcontestable =>
    refine hs.at key (fun _ _ => rfl) (fun _ _ => rfl) (fun _ hne => Function.update_of_ne hne _ _) ?_
    refine ⟨(hs key).pending, ?_, (hs key).awarded⟩
    intro a _ _
    rcases hcontestable with ⟨appeal, happeal, hopen⟩ | hdecision
    · exact (hs key).contested appeal happeal hopen
    · exact hdecision
  | @resolve key appeal resolved decision written _ _ hcontested hopen hfound hstatus hsettled
      hheld =>
    obtain ⟨hfinalized, hvacant⟩ := hs.appealed hcontested hopen hfound
    refine hs.at key (fun _ hne => Function.update_of_ne hne _ _) (fun _ _ => rfl)
      (fun _ hne => Function.update_of_ne hne _ _) ?_
    show Fits (Function.update s.decision key (some written) key) (s.reservation key)
      (Function.update s.appeal key (some resolved) key)
    rw [Function.update_self, Function.update_self]
    refine fits_closed (pending_of_finalized (hstatus.trans hfinalized)) ?_ ?_
    · exact fun a ha => settled_not_opened hsettled ha
    · rw [hvacant]
      exact iff_of_false (fun hsome => hsome rfl) fun hawarded => hheld hawarded hvacant
  | @overturn key appeal resolved decision written config reservation _ _ hcontested hopen hfound
      hstatus hsettled hawarded =>
    obtain ⟨hfinalized, _⟩ := hs.appealed hcontested hopen hfound
    refine hs.at key (fun _ hne => Function.update_of_ne hne _ _)
      (fun _ hne => Function.update_of_ne hne _ _) (fun _ hne => Function.update_of_ne hne _ _) ?_
    show Fits (Function.update s.decision key (some written) key)
      (Function.update s.reservation key (some reservation) key)
      (Function.update s.appeal key (some resolved) key)
    rw [Function.update_self, Function.update_self, Function.update_self]
    refine fits_closed (pending_of_finalized (hstatus.trans hfinalized)) ?_ ?_
    · exact fun a ha => settled_not_opened hsettled ha
    · exact iff_of_true (Option.some_ne_none _) hawarded

/-- Every accepted call keeps the books. -/
theorem Effect.books (h : Effect env s call s') (hdecided : Decided s) (hs : Books s) : Books s' := by
  cases h with
  | configure _ hprograms _ hreservations => exact hs.keep hprograms hreservations
  | register _ habsent hunreserved hunawarded hpositive hcovers hfits =>
    refine hs.configure rfl rfl ?_ ?_ ?_ ⟨hpositive.le, hfits⟩
    · rw [hs.unregistered habsent, hunreserved]
    · rw [hs.unregistered habsent, hunawarded]
    · rw [hunreserved, hunawarded]
      exact hcovers
  | activate _ hfound =>
    have hreserved := hs.reserved _ _ hfound
    have hawarded := hs.awarded _ _ hfound
    have hbounded := hs.bounded _ _ hfound
    have hranges := hs.ranges _ _ hfound
    exact hs.configure rfl rfl hreserved hawarded hbounded hranges
  | deliberate => exact hs.keep rfl rfl
  | ballot => exact hs.keep rfl rfl
  | award _ _ hfound hundecided hholds =>
    refine hs.hold (hdecided.vacant ?_) hholds rfl rfl
    intro d hd
    rw [hfound, Option.some.injEq] at hd
    exact hd ▸ hundecided
  | dissolve _ hheld hreserved hfound hends => exact hs.settle hheld hreserved hfound hends.status_ne
  | contest => exact hs.keep rfl rfl
  | resolve => exact hs.keep rfl rfl
  | overturn _ _ _ _ _ _ _ _ hvacant hholds => exact hs.hold hvacant hholds rfl rfl

end Decided

section Ends

/-- The call dissolves the reservation of the application. -/
def Dissolves (key : Application) (e : Step contract) : Bool := e.input.call.dissolves = some key

/-- The reservation has not come to an end, or has once, in the way that its status says. -/
def Ended (es : List (Step contract)) (key : Application) : Option Reservation → Prop
  | none => es.filter (Dissolves key) = []
  | some reservation =>
    if reservation.status = .reserved then es.filter (Dissolves key) = []
    else ∃ e, es.filter (Dissolves key) = [e] ∧
      Ends e.input.env.timestamp reservation.expiresAt key e.input.call reservation.status

/-- A finalization has set a reservation aside where there was none. -/
def Grants (key : Application) (e : Step contract) : Prop :=
  e.input.call.decides = some key ∧ e.pre.reservation key = none ∧ e.post.reservation key ≠ none

/-- What the calls so far have made of the reservations. -/
structure Reserved (es : List (Step contract)) (s : State) : Prop where
  ended : ∀ key, Ended es key (s.reservation key)
  granted : ∀ key, s.reservation key ≠ none → ∃ e ∈ es, Grants key e

theorem filter_snoc_quiet {e : Step contract} (h : Dissolves key e = false) :
    (es ++ [e]).filter (Dissolves key) = es.filter (Dissolves key) := by
  rw [List.filter_append, List.filter_singleton, h]
  exact List.append_nil _

/-- A call that dissolves nothing leaves how the reservations have ended. -/
theorem Ended.quiet {row : Option Reservation} {e : Step contract} (h : Ended es key row)
    (hquiet : Dissolves key e = false) : Ended (es ++ [e]) key row := by
  cases row with
  | none =>
    unfold Ended at h ⊢
    rwa [filter_snoc_quiet hquiet]
  | some reservation =>
    unfold Ended at h ⊢
    rwa [filter_snoc_quiet hquiet]

theorem Reserved.same (hr : Reserved es s) {e : Step contract}
    (hquiet : e.input.call.dissolves = none) (hreservations : s'.reservation = s.reservation) :
    Reserved (es ++ [e]) s' where
  ended key := by
    rw [hreservations]
    apply (hr.ended key).quiet
    rw [Dissolves, hquiet]
    rfl
  granted key hsome := by
    rw [hreservations] at hsome
    obtain ⟨e', he', hgrants⟩ := hr.granted key hsome
    exact ⟨e', List.mem_append_left _ he', hgrants⟩

/-- A finalization sets a reservation aside. -/
theorem Reserved.grant (hr : Reserved es s) {e : Step contract}
    (hquiet : e.input.call.dissolves = none) (hdecides : e.input.call.decides = some key)
    (hpre : e.pre = s) (hpost : e.post = s') (hvacant : s.reservation key = none)
    (hreserved : reservation.status = .reserved)
    (hreservations : s'.reservation = Function.update s.reservation key (some reservation)) :
    Reserved (es ++ [e]) s' where
  ended other := by
    have hstill : Dissolves other e = false := by
      rw [Dissolves, hquiet]
      rfl
    rw [hreservations]
    by_cases hother : other = key
    · have hnone := hr.ended key
      rw [hvacant, Ended] at hnone
      rw [hother, Function.update_self, Ended, if_pos hreserved, ← hother, filter_snoc_quiet hstill,
        hother]
      exact hnone
    · rw [Function.update_of_ne hother]
      exact (hr.ended other).quiet hstill
  granted other hsome := by
    by_cases hother : other = key
    · refine ⟨e, List.mem_concat_self, ?_⟩
      rw [hother] at hsome ⊢
      exact ⟨hdecides, hpre ▸ hvacant, hpost ▸ hsome⟩
    · rw [hreservations, Function.update_of_ne hother] at hsome
      obtain ⟨e', he', hgrants⟩ := hr.granted other hsome
      exact ⟨e', List.mem_append_left _ he', hgrants⟩

/-- A reservation that is held comes to its end. -/
theorem Reserved.dissolve (hr : Reserved es s) {e : Step contract} {status : ReservationStatus}
    (hdissolves : e.input.call.dissolves = some key) (hheld : s.reservation key = some reservation)
    (hreserved : reservation.status = .reserved)
    (hends : Ends e.input.env.timestamp reservation.expiresAt key e.input.call status)
    (hreservations : s'.reservation =
      Function.update s.reservation key (some { reservation with status := status })) :
    Reserved (es ++ [e]) s' where
  ended other := by
    rw [hreservations]
    by_cases hother : other = key
    · have hnone := hr.ended key
      rw [hheld, Ended, if_pos hreserved] at hnone
      have hnow : Dissolves key e = true := decide_eq_true hdissolves
      rw [hother, Function.update_self, Ended, if_neg hends.status_ne, List.filter_append, hnone,
        List.filter_singleton, hnow]
      exact ⟨e, rfl, hends⟩
    · rw [Function.update_of_ne hother]
      apply (hr.ended other).quiet
      apply decide_eq_false
      rw [hdissolves, Option.some.injEq]
      exact fun heq => hother heq.symm
  granted other hsome := by
    have hold : s.reservation other ≠ none := by
      by_cases hother : other = key
      · rw [hother, hheld]
        exact Option.some_ne_none _
      · rwa [hreservations, Function.update_of_ne hother] at hsome
    obtain ⟨e', he', hgrants⟩ := hr.granted other hold
    exact ⟨e', List.mem_append_left _ he', hgrants⟩

theorem reserved_empty : Reserved ([] : List (Step contract)) State.empty where
  ended _ := rfl
  granted _ hsome := absurd rfl hsome

theorem Effect.reserved {i : Input contract} {u : Unit} (h : Effect i.env s i.call s')
    (hdecided : Decided s) (hr : Reserved es s) : Reserved (es ++ [⟨s, i, u, s'⟩]) s' := by
  obtain ⟨env, call⟩ := i
  cases h with
  | configure hquiet _ _ hreservations => exact hr.same hquiet hreservations
  | register hquiet => exact hr.same hquiet rfl
  | activate hquiet => exact hr.same hquiet rfl
  | deliberate hquiet => exact hr.same hquiet rfl
  | ballot hquiet => exact hr.same hquiet rfl
  | award hdecides hquiet hfound hundecided hholds =>
    refine hr.grant hquiet hdecides rfl rfl (hdecided.vacant ?_) hholds.status rfl
    intro d hd
    rw [hfound, Option.some.injEq] at hd
    exact hd ▸ hundecided
  | dissolve hdissolves hheld hreserved _ hends => exact hr.dissolve hdissolves hheld hreserved hends rfl
  | contest hquiet => exact hr.same hquiet rfl
  | resolve _ hquiet => exact hr.same hquiet rfl
  | overturn hdecides hquiet _ _ _ _ _ _ hvacant hholds =>
    exact hr.grant hquiet hdecides rfl rfl hvacant hholds.status rfl

end Ends

section Progress

/-- The end of a reservation that is held never fails for its amounts. -/
theorem Books.ends (hs : Books s) {programId : Bytes32} {applicant : Address}
    (hheld : s.reservation (programId, applicant) = some reservation)
    (hreserved : reservation.status = .reserved) (env : Env contract) :
    (env.signers applicant = true → env.timestamp ≤ reservation.expiresAt →
        ∃ s', acceptAward env s applicant programId = .ok s') ∧
      (∀ caller, requireChairOrAdmin env s caller = .ok () →
        ∃ s', releaseReservation env s caller programId applicant = .ok s') ∧
      ∀ caller, env.signers caller = true → reservation.expiresAt < env.timestamp →
        ∃ s', expireReservation env s caller programId applicant = .ok s' := by
  obtain ⟨config, hfound⟩ := Option.ne_none_iff_exists'.mp (hs.funded _ _ hheld)
  have hle := hs.amount_le hheld hreserved hfound
  have hamount := hs.amount_nonneg hheld
  have hbounded := hs.bounded _ _ hfound
  have hranges := hs.ranges _ _ hfound
  have hreservedNonneg := (hs.sound .reserved programId).holdings_nonneg
  have hawardedNonneg := (hs.sound .claimed programId).holdings_nonneg
  rw [← hs.reserved _ _ hfound] at hreservedNonneg
  rw [← hs.awarded _ _ hfound] at hawardedNonneg
  have hless : -2^127 ≤ config.reservedAmount - reservation.amount ∧
      config.reservedAmount - reservation.amount < 2^127 := ⟨by omega, by omega⟩
  have hmore : -2^127 ≤ config.awardedAmount + reservation.amount ∧
      config.awardedAmount + reservation.amount < 2^127 := ⟨by omega, by omega⟩
  refine ⟨?_, ?_, ?_⟩
  · intro hsigned htimely
    simp only [acceptAward, loadProgramConfig, bind_eq_ok, exists_unit, requireAuth_eq_ok,
      heldReservation_eq_ok, orRefuse_eq_ok, fitsI128_eq_some, refuseIf_eq_ok, pure_eq_ok, not_lt]
    exact ⟨_, hsigned, reservation, ⟨hheld, hreserved⟩, htimely, config, hfound, _, ⟨hless, rfl⟩, _,
      ⟨hmore, rfl⟩, rfl⟩
  · intro caller hcaller
    simp only [releaseReservation, bind_eq_ok, exists_unit, heldReservation_eq_ok,
      releaseCapacity_eq_ok, pure_eq_ok]
    exact ⟨_, hcaller, reservation, ⟨hheld, hreserved⟩, _, ⟨config, hfound, hless, rfl⟩, rfl⟩
  · intro caller hsigned hlate
    simp only [expireReservation, bind_eq_ok, exists_unit, requireAuth_eq_ok, heldReservation_eq_ok,
      refuseIf_eq_ok, releaseCapacity_eq_ok, pure_eq_ok, not_le]
    exact ⟨_, hsigned, reservation, ⟨hheld, hreserved⟩, hlate, _, ⟨config, hfound, hless, rfl⟩, rfl⟩

end Progress

/-- The books, the rows and the reservations of every run. -/
theorem run_budgeted (is : List (Input contract)) :
    Books ((machine contract).run State.empty is) ∧ Decided ((machine contract).run State.empty is) ∧
      Reserved ((machine contract).journal State.empty is)
        ((machine contract).run State.empty is) := by
  refine @Machine.run_journal_invariant _ _ _ _ (machine contract)
    (fun s es => Books s ∧ Decided s ∧ Reserved es s) State.empty
    ⟨books_empty, decided_empty, reserved_empty⟩ ?_ is
  intro es s i o s' hs h
  obtain ⟨hbooks, hdecided, hreserved⟩ := hs
  have heffect := step_effect h
  exact ⟨heffect.books hdecided hbooks, heffect.decided hdecided,
    heffect.reserved hdecided hreserved⟩

/-- In every state that any calls lead to, a program's reserved and awarded amounts are those of its
reservations, within its budget. There is a reservation just where a finalization has awarded, and it
comes to an end once: claimed in time, expired too late or released, none of which fails for its amounts. -/
theorem run_budgets (is : List (Input contract)) :
    let s := (machine contract).run State.empty is
    let es := (machine contract).journal State.empty is
    (∀ programId config, s.programConfig programId = some config →
        config.reservedAmount =
            holdings (fun applicant => amountIn .reserved (s.reservation (programId, applicant))) ∧
          config.awardedAmount =
            holdings (fun applicant => amountIn .claimed (s.reservation (programId, applicant))) ∧
          config.reservedAmount + config.awardedAmount ≤ config.totalBudget) ∧
      (∀ status programId,
        {applicant | amountIn status (s.reservation (programId, applicant)) ≠ 0}.Finite) ∧
      (∀ key, s.reservation key ≠ none ↔
        ∃ decision, s.decision key = some decision ∧ decision.outcome = .awarded) ∧
      (∀ key, s.reservation key ≠ none → ∃ e ∈ es, Grants key e) ∧
      (∀ key reservation, s.reservation key = some reservation →
        (reservation.status = .reserved → es.filter (Dissolves key) = []) ∧
          (reservation.status ≠ .reserved → ∃ e, es.filter (Dissolves key) = [e] ∧
            Ends e.input.env.timestamp reservation.expiresAt key e.input.call reservation.status)) ∧
      ∀ programId applicant reservation, s.reservation (programId, applicant) = some reservation →
        reservation.status = .reserved → ∀ env : Env contract,
          (env.signers applicant = true → env.timestamp ≤ reservation.expiresAt →
              ∃ s', acceptAward env s applicant programId = .ok s') ∧
            (∀ caller, requireChairOrAdmin env s caller = .ok () →
              ∃ s', releaseReservation env s caller programId applicant = .ok s') ∧
            ∀ caller, env.signers caller = true → reservation.expiresAt < env.timestamp →
              ∃ s', expireReservation env s caller programId applicant = .ok s' := by
  intro s es
  obtain ⟨hbooks, hdecided, hreserved⟩ := run_budgeted is
  refine ⟨?_, ?_, ?_, hreserved.granted, ?_, ?_⟩
  · intro programId config hfound
    exact ⟨hbooks.reserved programId config hfound, hbooks.awarded programId config hfound,
      hbooks.bounded programId config hfound⟩
  · exact fun status programId => (hbooks.sound status programId).finite
  · exact fun key => (hdecided key).awarded
  · intro key reservation hstored
    have hended := hreserved.ended key
    rw [hstored, Ended] at hended
    constructor
    · intro hheld
      rwa [if_pos hheld] at hended
    · intro hgone
      rwa [if_neg hgone] at hended
  · exact fun programId applicant reservation hheld hstatus env => hbooks.ends hheld hstatus env

end ChainVerse.ScholarshipDecisions
