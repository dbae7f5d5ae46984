import ChainVerse.Awards.Steps
import ChainVerse.Framework.Tables

namespace ChainVerse.ScholarshipAwards

section Lifecycle

variable {contract : Address} {env : Env contract} {s s' : State}

/-- An accepted call of a run, with the stores around it. -/
abbrev Step (contract : Address) := Entry State (Input contract) Unit

/-- The award that a call accepts. -/
def Call.accepts : Call → Option Bytes32
  | .acceptAward _ id _ _ => some id
  | _ => none

/-- The call that offers an award on its terms. -/
def offerOf (admin : Address) (award : Award) : Call :=
  .createAward admin award.id award.programId award.recipient award.amount award.currency
    award.termsVersion award.termsHash award.acceptanceDeadline award.milestoneScheduleId

/-- What is always true of a stored award with its acceptance and its recovery. -/
structure Award.Proper (award : Award) (id : Bytes32) (acceptance : Option AgreementAcceptance)
    (recovery : Option Int) : Prop where
  keyed : award.id = id
  paid : 0 ≤ award.paidAmount ∧ award.paidAmount ≤ award.amount
  earned : 0 < award.paidAmount → acceptance ≠ none
  taken : award.status = .accepted → acceptance ≠ none
  agreed : ∀ agreement, acceptance = some agreement →
    agreement.termsVersion = award.termsVersion ∧ agreement.termsHash = award.termsHash ∧
      agreement.acceptedAt ≤ award.acceptanceDeadline ∧
      (award.status = .accepted ∨ award.status = .cancelled ∨ award.status = .terminated)
  recovered : ∀ amount, recovery = some amount →
    award.status = .terminated ∧ 0 ≤ amount ∧ amount ≤ award.paidAmount

/-- Every stored award is proper, and there are no records about awards that were never offered. -/
structure Disciplined (s : State) : Prop where
  rows : ∀ id award, s.award id = some award → award.Proper id (s.acceptance id) (s.recovery id)
  absent : ∀ id, s.award id = none → s.acceptance id = none ∧ s.recovery id = none

section Discipline

theorem disciplined_empty : Disciplined State.empty := by
  constructor
  · intro id award hstored
    cases hstored
  · intro id _
    exact ⟨rfl, rfl⟩

/-- A call that writes one award, and other records under its id only, keeps the discipline when the
award it writes is proper. -/
theorem Disciplined.write (hs : Disciplined s) {id : Bytes32} {award : Award}
    (hstate : s'.award = Function.update s.award id (some award))
    (hacceptance : ∀ x, x ≠ id → s'.acceptance x = s.acceptance x)
    (hrecovery : ∀ x, x ≠ id → s'.recovery x = s.recovery x)
    (hproper : award.Proper id (s'.acceptance id) (s'.recovery id)) : Disciplined s' := by
  constructor
  · intro x row hrow
    rw [hstate] at hrow
    rcases update_row_cases hrow with ⟨rfl, rfl⟩ | ⟨hx, hold⟩
    · exact hproper
    · rw [hacceptance x hx, hrecovery x hx]
      exact hs.rows x row hold
  · intro x hrow
    rw [hstate] at hrow
    by_cases hx : x = id
    · rw [hx, Function.update_self] at hrow
      cases hrow
    · rw [Function.update_of_ne hx] at hrow
      rw [hacceptance x hx, hrecovery x hx]
      exact hs.absent x hrow

/-- An offer that has not been answered has no acceptance and no recovery. -/
theorem Award.Proper.open {award : Award} {id : Bytes32} {acceptance : Option AgreementAcceptance}
    {recovery : Option Int} (h : award.Proper id acceptance recovery)
    (hstatus : award.status = .offered) : acceptance = none := by
  by_contra hsome
  obtain ⟨agreement, hagreement⟩ := Option.ne_none_iff_exists'.mp hsome
  obtain ⟨_, _, _, hanswered⟩ := h.agreed agreement hagreement
  rw [hstatus] at hanswered
  simp at hanswered

theorem Award.Proper.unrecovered {award : Award} {id : Bytes32}
    {acceptance : Option AgreementAcceptance} {recovery : Option Int}
    (h : award.Proper id acceptance recovery) (hlive : award.status.Live) : recovery = none := by
  by_contra hsome
  obtain ⟨amount, hamount⟩ := Option.ne_none_iff_exists'.mp hsome
  have hterminated := (h.recovered amount hamount).1
  rw [hterminated] at hlive
  revert hlive
  decide

/-- The end of a live award leaves it proper. -/
theorem Ending.proper {id : Bytes32} {award : Award} {call : Call} {status : AwardStatus}
    {reasonCode now : Nat} {recovery : Option Int}
    (h : Ending env id award call status reasonCode recovery)
    (hproper : award.Proper id (s.acceptance id) (s.recovery id)) :
    Award.Proper
      { award with
        version := award.version + 1, status := status, reasonCode := reasonCode
        decidedAt := now, reserved := false }
      id (s.acceptance id) ((s.ended id award status reasonCode now recovery).recovery id) := by
  cases h with
  | decline _ hstatus =>
    have hnone := hproper.open hstatus
    have hrecovery := hproper.unrecovered (.inl hstatus)
    exact ⟨hproper.keyed, hproper.paid, hproper.earned, nofun, by simp [hnone],
      by simp [State.ended, hrecovery]⟩
  | expire hstatus =>
    have hnone := hproper.open hstatus
    have hrecovery := hproper.unrecovered (.inl hstatus)
    exact ⟨hproper.keyed, hproper.paid, hproper.earned, nofun, by simp [hnone],
      by simp [State.ended, hrecovery]⟩
  | cancel hlive =>
    have hrecovery := hproper.unrecovered hlive
    refine ⟨hproper.keyed, hproper.paid, hproper.earned, nofun, ?_, by simp [State.ended, hrecovery]⟩
    intro agreement hagreement
    obtain ⟨hversion, hhash, htime, _⟩ := hproper.agreed agreement hagreement
    exact ⟨hversion, hhash, htime, .inr (.inl rfl)⟩
  | terminate hstatus hbounds =>
    refine ⟨hproper.keyed, hproper.paid, hproper.earned, nofun, ?_, ?_⟩
    · intro agreement hagreement
      obtain ⟨hversion, hhash, htime, _⟩ := hproper.agreed agreement hagreement
      exact ⟨hversion, hhash, htime, .inr (.inr rfl)⟩
    · intro amount hamount
      simp only [State.ended, Function.update_self, Option.some.injEq] at hamount
      rw [← hamount]
      exact ⟨rfl, hbounds⟩

theorem ended_recovery_of_ne {id x : Bytes32} {award : Award} {status : AwardStatus}
    {reasonCode now : Nat} {recovery : Option Int} (hx : x ≠ id) :
    (s.ended id award status reasonCode now recovery).recovery x = s.recovery x := by
  cases recovery with
  | none => rfl
  | some amount => exact Function.update_of_ne hx _ _

theorem Effect.disciplined {call : Call} (h : Effect env s call s') (hs : Disciplined s) :
    Disciplined s' := by
  cases h with
  | appoint => exact ⟨hs.rows, hs.absent⟩
  | @offer _ award hpositive hunused _ _ hfresh =>
    obtain ⟨hacceptance, hrecovery⟩ := hs.absent award.id hunused
    obtain ⟨_, hstatus, _, hpaid⟩ := hfresh
    refine hs.write rfl (fun _ _ => rfl) (fun _ _ => rfl) ⟨rfl, ?_, ?_, ?_, ?_, ?_⟩
    · omega
    · intro hearned
      omega
    · rw [hstatus]
      nofun
    · simp [hacceptance]
    · simp [hrecovery]
  | @accept id _ award hstored _ hstatus hearly =>
    have hproper := hs.rows id award hstored
    obtain rfl := hproper.keyed
    have hrecovery := hproper.unrecovered (.inl hstatus)
    refine hs.write rfl ?_ (fun _ _ => rfl) ⟨rfl, hproper.paid, ?_, ?_, ?_, ?_⟩
    · intro x hx
      exact Function.update_of_ne hx _ _
    · simp
    · simp
    · intro agreement hagreement
      simp only [Function.update_self, Option.some.injEq] at hagreement
      rw [← hagreement]
      exact ⟨rfl, rfl, hearly, .inl rfl⟩
    · simp [hrecovery]
  | @pay id _ award amount hstored hstatus hpositive hcovered =>
    have hproper := hs.rows id award hstored
    obtain rfl := hproper.keyed
    have hrecovery := hproper.unrecovered (.inr hstatus)
    have htaken := hproper.taken hstatus
    have hpaid := hproper.paid
    refine hs.write rfl (fun _ _ => rfl) (fun _ _ => rfl)
      ⟨rfl, ?_, fun _ => htaken, fun _ => htaken, hproper.agreed, ?_⟩
    · dsimp only
      omega
    · simp [hrecovery]
  | @close _ id award _ _ _ hstored hending =>
    have hproper := hs.rows id award hstored
    obtain rfl := hproper.keyed
    exact hs.write rfl (fun _ _ => rfl) (fun _ hx => ended_recovery_of_ne hx)
      (hending.proper hproper)

end Discipline

section Finality

/-- An award in a terminal status is not written again. -/
theorem Effect.final {call : Call} (h : Effect env s call s') (hs : Disciplined s) {id : Bytes32}
    {award : Award} (hstored : s.award id = some award) (hterminal : ¬ award.status.Live) :
    s'.award id = some award := by
  have hother : ∀ {x : Bytes32} {row next : Award}, s.award x = some row → row.status.Live →
      Function.update s.award row.id (some next) id = some award := by
    intro x row next hrow hlive
    rw [(hs.rows x row hrow).keyed]
    exact update_keeps_unless (q := fun award => ¬ award.status.Live) hrow (not_not.mpr hlive)
      hstored hterminal
  cases h with
  | appoint => exact hstored
  | offer _ hunused => exact update_keeps_row hunused hstored
  | accept hrow _ hstatus => exact hother hrow (.inl hstatus)
  | pay hrow hstatus => exact hother hrow (.inr hstatus)
  | close hrow hending => exact hother hrow hending.live.1

theorem run_final {id : Bytes32} {award : Award} (hs : Disciplined s) (later : List (Input contract))
    (hstored : s.award id = some award) (hterminal : ¬ award.status.Live) :
    ((machine contract).run s later).award id = some award := by
  let Inv (t : State) : Prop := Disciplined t ∧ t.award id = some award
  have hstep : ∀ t (i : Input contract) o t', Inv t → (machine contract).step t i = .ok (o, t') →
      Inv t' := by
    intro t i o t' ht h
    exact ⟨(step_effect h).disciplined ht.1, (step_effect h).final ht.1 ht.2 hterminal⟩
  exact (Machine.run_invariant ⟨hs, hstored⟩ hstep later : Inv _).2

end Finality

section Chronicle

/-- A store with the calls that led to it: every award was offered on its terms, and the awards with
an acceptance are those that were accepted. -/
structure Chronicled (s : State) (es : List (Step contract)) : Prop extends Disciplined s where
  offers : ∀ id award, s.award id = some award →
    ∃ e ∈ es, ∃ admin, e.input.call = offerOf admin award
  acceptances : ∀ id, s.acceptance id ≠ none ↔ ∃ e ∈ es, e.input.call.accepts = some id

/-- A stored award is the one just offered or goes on with its terms. -/
theorem Effect.terms {call : Call} (h : Effect env s call s') {id : Bytes32} {award : Award}
    (hstored : s'.award id = some award) : (∃ admin, call = offerOf admin award) ∨
      ∃ x row, s.award x = some row ∧ ∀ admin, offerOf admin award = offerOf admin row := by
  have hwrite : ∀ {x key : Bytes32} {row next : Award}, s.award x = some row →
      Function.update s.award key (some next) id = some award →
      (∀ admin, offerOf admin next = offerOf admin row) →
      ∃ y old, s.award y = some old ∧ ∀ admin, offerOf admin award = offerOf admin old := by
    intro x key row next hrow hfound hterms
    rcases update_row_cases hfound with ⟨_, rfl⟩ | ⟨_, hold⟩
    · exact ⟨x, row, hrow, hterms⟩
    · exact ⟨id, award, hold, fun _ => rfl⟩
  cases h with
  | appoint => exact .inr ⟨id, award, hstored, fun _ => rfl⟩
  | @offer admin row =>
    rcases update_row_cases hstored with ⟨_, rfl⟩ | ⟨_, hold⟩
    · exact .inl ⟨admin, rfl⟩
    · exact .inr ⟨id, award, hold, fun _ => rfl⟩
  | accept hrow => exact .inr (hwrite hrow hstored fun _ => rfl)
  | pay hrow => exact .inr (hwrite hrow hstored fun _ => rfl)
  | close hrow => exact .inr (hwrite hrow hstored fun _ => rfl)

theorem Effect.acceptances {call : Call} (h : Effect env s call s') (id : Bytes32) :
    s'.acceptance id ≠ none ↔ s.acceptance id ≠ none ∨ call.accepts = some id := by
  cases h with
  | appoint => simp [Call.accepts]
  | offer => simp [Call.accepts]
  | @accept named =>
    by_cases hid : id = named
    · simp [Call.accepts, hid]
    · simp [Call.accepts, hid, Ne.symm hid]
  | pay => simp [Call.accepts]
  | close _ hending => cases hending <;> simp [Call.accepts, State.ended]

theorem chronicled_empty : Chronicled State.empty ([] : List (Step contract)) := by
  refine ⟨disciplined_empty, ?_, ?_⟩
  · intro id award hstored
    cases hstored
  · simp [State.empty]

theorem Effect.chronicled {es : List (Step contract)} {i : Input contract} {o : Unit}
    (h : Effect i.env s i.call s') (hs : Chronicled s es) :
    Chronicled s' (es ++ [⟨s, i, o, s'⟩]) := by
  refine ⟨h.disciplined hs.toDisciplined, ?_, ?_⟩
  · intro id award hstored
    rcases h.terms hstored with ⟨admin, hcall⟩ | ⟨x, row, hrow, hterms⟩
    · exact ⟨_, List.mem_append_right es (List.mem_singleton_self _), admin, hcall⟩
    · obtain ⟨e, he, admin, hcall⟩ := hs.offers x row hrow
      exact ⟨e, List.mem_append_left _ he, admin, hcall.trans (hterms admin).symm⟩
  · intro id
    rw [h.acceptances id, hs.acceptances id]
    simp only [List.mem_append, List.mem_singleton, or_and_right, exists_or, exists_eq_left]

theorem run_chronicled (is : List (Input contract)) :
    Chronicled ((machine contract).run State.empty is)
      ((machine contract).journal State.empty is) :=
  Machine.run_journal_invariant chronicled_empty
    (fun _ _ _ _ _ hs h => (step_effect h).chronicled hs) is

end Chronicle

/-- In every reachable state an award is paid at most its amount, and only after its acceptance; no
more is recovered than was paid; a terminal award is never written again; and the acceptance records
are those of the accepted awards, on the terms and before the deadline of the offer, so that no
expired award has one. -/
theorem run_lifecycle_safe (is later : List (Input contract)) :
    let m := machine contract
    let s := m.run State.empty is
    let journal := m.journal State.empty is
    (∀ id award, s.award id = some award →
      0 ≤ award.paidAmount ∧ award.paidAmount ≤ award.amount ∧
      (0 < award.paidAmount → ∃ e ∈ journal, e.input.call.accepts = some id) ∧
      0 ≤ getRecovery s id ∧ getRecovery s id ≤ award.paidAmount ∧
      (award.status ≠ .offered → award.status ≠ .accepted →
        (m.run s later).award id = some award)) ∧
    (∀ id amount, s.recovery id = some amount →
      ∃ award, s.award id = some award ∧ award.status = .terminated ∧ amount ≤ award.paidAmount) ∧
    (∀ id, (∃ agreement, s.acceptance id = some agreement) ↔
      ∃ e ∈ journal, e.input.call.accepts = some id) ∧
    ∀ id agreement, s.acceptance id = some agreement →
      ∃ award, s.award id = some award ∧
        (∃ e ∈ journal, ∃ admin, e.input.call = offerOf admin award) ∧ award.id = id ∧
        agreement.termsVersion = award.termsVersion ∧ agreement.termsHash = award.termsHash ∧
        agreement.acceptedAt ≤ award.acceptanceDeadline ∧ award.status ≠ .expired := by
  intro m s journal
  have hs : Chronicled s journal := run_chronicled is
  have haccepted : ∀ id, (∃ agreement, s.acceptance id = some agreement) ↔
      ∃ e ∈ journal, e.input.call.accepts = some id := by
    intro id
    rw [← hs.acceptances id]
    exact Option.ne_none_iff_exists'.symm
  have hrecorded : ∀ id, s.award id = none → s.acceptance id = none ∧ s.recovery id = none :=
    hs.absent
  refine ⟨?_, ?_, haccepted, ?_⟩
  · intro id award hstored
    have hproper := hs.rows id award hstored
    have hrecovery : 0 ≤ getRecovery s id ∧ getRecovery s id ≤ award.paidAmount := by
      rw [getRecovery]
      cases hamount : s.recovery id with
      | none => exact ⟨le_rfl, hproper.paid.1⟩
      | some amount => exact (hproper.recovered amount hamount).2
    refine ⟨hproper.paid.1, hproper.paid.2, ?_, hrecovery.1, hrecovery.2, ?_⟩
    · intro hpositive
      exact (hs.acceptances id).mp (hproper.earned hpositive)
    · intro hopen htaken
      exact run_final hs.toDisciplined later hstored (not_or.mpr ⟨hopen, htaken⟩)
  · intro id amount hamount
    cases hstored : s.award id with
    | none =>
      rw [(hrecorded id hstored).2] at hamount
      cases hamount
    | some award =>
      obtain ⟨hstatus, _, hle⟩ := (hs.rows id award hstored).recovered amount hamount
      exact ⟨award, rfl, hstatus, hle⟩
  · intro id agreement hagreement
    cases hstored : s.award id with
    | none =>
      rw [(hrecorded id hstored).1] at hagreement
      cases hagreement
    | some award =>
      have hproper := hs.rows id award hstored
      obtain ⟨hversion, hhash, htime, hstatus⟩ := hproper.agreed agreement hagreement
      refine ⟨award, rfl, hs.offers id award hstored, hproper.keyed, hversion, hhash, htime, ?_⟩
      intro hexpired
      rw [hexpired] at hstatus
      simp at hstatus

end Lifecycle

variable {contract : Address} {env : Env contract} {s s' : State}

/-- The version that a call expects of the award `id`, if it is a mutation of it. -/
def Call.expects (id : Bytes32) (call : Call) : Option Nat :=
  match call.mutation with
  | some (named, version) => if named = id then some version else none
  | none => none

/-- The version of an award; an award that does not exist yet will start at one. -/
def State.version (s : State) (id : Bytes32) : Nat :=
  match s.award id with
  | some award => award.version
  | none => 1

theorem Call.expects_eq_some {id : Bytes32} {call : Call} {version : Nat} :
    call.expects id = some version ↔ call.mutation = some (id, version) := by
  unfold Call.expects
  rcases call.mutation with _ | ⟨named, expected⟩
  · simp
  · by_cases hid : named = id <;> simp [hid]

theorem Call.expects_isSome {id : Bytes32} {call : Call} :
    (call.expects id).isSome = true ↔ call.mutation.map Prod.fst = some id := by
  unfold Call.expects
  rcases call.mutation with _ | ⟨named, expected⟩
  · simp
  · by_cases hid : named = id <;> simp [hid]

section Steps

/-- The mutations move the version of the award they name up by one, from the one they expect. -/
theorem Effect.version {call : Call} (h : Effect env s call s') (hs : Disciplined s)
    (id : Bytes32) : s.version id ≤ s'.version id ∧
      (call.expects id).toList = List.range' (s.version id) (s'.version id - s.version id) := by
  have hmutated : ∀ {x : Bytes32} {award next : Award}, s.award x = some award →
      s'.award = Function.update s.award award.id (some next) → next.version = award.version + 1 →
      call.mutation = some (x, award.version) → s.version id ≤ s'.version id ∧
        (call.expects id).toList = List.range' (s.version id) (s'.version id - s.version id) := by
    intro x award next hstored hwritten hnext hcall
    have hkey := (hs.rows x award hstored).keyed
    unfold State.version Call.expects
    rw [hwritten, hkey, hcall]
    by_cases hid : id = x
    · rw [hid, Function.update_self, hstored]
      simp [hnext]
    · rw [Function.update_of_ne hid]
      simp [Ne.symm hid]
  cases h with
  | appoint => simp [State.version, Call.expects, Call.mutation]
  | @offer _ award _ hunused _ _ hfresh =>
    unfold State.version Call.expects
    dsimp only
    by_cases hid : id = award.id
    · rw [hid, Function.update_self, hunused]
      simp [hfresh.1, Call.mutation]
    · rw [Function.update_of_ne hid]
      simp [Call.mutation]
  | accept hstored => exact hmutated hstored rfl rfl rfl
  | pay hstored => exact hmutated hstored rfl rfl rfl
  | close hstored hending => cases hending <;> exact hmutated hstored rfl rfl rfl

/-- The accepted mutations of an award expected the versions from one on, each once and in order. -/
theorem run_expects (is : List (Input contract)) (id : Bytes32) :
    1 ≤ ((machine contract).run State.empty is).version id ∧
    ((machine contract).journal State.empty is).filterMap (fun e => e.input.call.expects id) =
      List.range' 1 (((machine contract).run State.empty is).version id - 1) := by
  have hstart : State.empty.version id = 1 := rfl
  let handed (e : Step contract) : List Nat := (e.input.call.expects id).toList
  have hnumbers := @Machine.run_numbering _ _ _ _ (machine contract) Disciplined
    (fun s => s.version id) handed State.empty disciplined_empty
    (fun _ _ _ _ hs h => (step_effect h).disciplined hs)
    (fun _ _ _ _ hs h => (step_effect h).version hs id) is
  rw [hstart] at hnumbers
  refine ⟨hnumbers.1, ?_⟩
  rw [List.filterMap_eq_flatMap_toList]
  exact hnumbers.2

end Steps

/-- No update of an award is lost: of all the calls that expect one version of it at most one is
accepted, and its version counts the accepted mutations. -/
theorem run_versions (is : List (Input contract)) (id : Bytes32) :
    let journal := (machine contract).journal State.empty is
    (∀ version, journal.countP (fun e => e.input.call.mutation = some (id, version)) ≤ 1) ∧
    ∀ award, ((machine contract).run State.empty is).award id = some award →
      award.version = 1 + journal.countP fun e => e.input.call.mutation.map Prod.fst = some id := by
  intro journal
  obtain ⟨hfirst, hexpects⟩ := run_expects is id
  constructor
  · intro version
    have honce := @List.nodup_range' 1 (((machine contract).run State.empty is).version id - 1) 1
      (by decide)
    have hcount := List.nodup_iff_count_le_one.mp honce version
    rw [← hexpects, List.count_filterMap] at hcount
    refine Nat.le_trans (Nat.le_of_eq (List.countP_congr ?_)) hcount
    intro e _
    rw [decide_eq_true_eq, beq_iff_eq, Call.expects_eq_some]
  · intro award hstored
    have hlength := congrArg List.length hexpects
    rw [List.length_range', List.length_filterMap_eq_countP] at hlength
    have hcount : journal.countP (fun e => e.input.call.mutation.map Prod.fst = some id) =
        journal.countP fun e => (e.input.call.expects id).isSome := by
      simp only [← Call.expects_isSome, Bool.decide_eq_true]
    have hversion : ((machine contract).run State.empty is).version id = award.version := by
      rw [State.version, hstored]
    rw [hversion] at hfirst hlength
    rw [hcount, hlength]
    omega

end ChainVerse.ScholarshipAwards
