import ChainVerse.Awards.Steps
import ChainVerse.Framework.Listings

namespace ChainVerse.ScholarshipAwards

variable {contract : Address} {env : Env contract} {s s' : State}

/-- The recipient and the program whose place a row of the award table holds. -/
def placeOf : Option Award → Option (Address × Bytes32)
  | some award => if award.status.Live then some (award.recipient, award.programId) else none
  | none => none

/-- The places that the stored awards hold. -/
def State.places (s : State) (id : Bytes32) : Option (Address × Bytes32) := placeOf (s.award id)

/-- A place in a program is held. -/
def InProgram (program : Bytes32) : Option (Address × Bytes32) → Prop
  | some place => place.2 = program
  | none => False

instance (program : Bytes32) : DecidablePred (InProgram program) := fun place =>
  match place with
  | some place => inferInstanceAs (Decidable (place.2 = program))
  | none => isFalse id

section Places

variable {award : Award}

theorem placeOf_live (h : award.status.Live) :
    placeOf (some award) = some (award.recipient, award.programId) := if_pos h

theorem placeOf_closed (h : ¬ award.status.Live) : placeOf (some award) = none := if_neg h

theorem placeOf_eq_some {row : Option Award} {recipient : Address} {program : Bytes32} :
    placeOf row = some (recipient, program) ↔ ∃ award, row = some award ∧
      award.recipient = recipient ∧ award.programId = program ∧ award.status.Live := by
  cases row with
  | none => simp [placeOf]
  | some award =>
    by_cases hlive : award.status.Live
    · simp [placeOf, hlive]
    · simp [placeOf, hlive]

theorem inProgram_placeOf {row : Option Award} {program : Bytes32} :
    InProgram program (placeOf row) ↔ ∃ award, row = some award ∧ award.programId = program ∧
      award.status.Live := by
  cases row with
  | none => simp [placeOf, InProgram]
  | some award =>
    by_cases hlive : award.status.Live
    · simp [placeOf, hlive, InProgram]
    · simp [placeOf, hlive, InProgram]

theorem places_update {id : Bytes32} (hstate : s'.award = Function.update s.award id (some award)) :
    s'.places = Function.update s.places id (placeOf (some award)) := by
  funext x
  by_cases hx : x = id
  · rw [hx, Function.update_self, State.places, hstate, Function.update_self]
  · rw [Function.update_of_ne hx, State.places, hstate, Function.update_of_ne hx]
    rfl

end Places

/-- The books of the places: each award is stored under its id, every live award and no other is
flagged, found by the pointer of its place and counted in its program. -/
structure Accounted (s : State) : Prop where
  keyed : ∀ id award, s.award id = some award → award.id = id
  flagged : ∀ id award, s.award id = some award → (award.reserved = true ↔ award.status.Live)
  pointed : Indexed s.activeAward s.places
  finite : ∀ program, {id | InProgram program (s.places id)}.Finite
  counted : ∀ program, s.reservation program = {id | InProgram program (s.places id)}.ncard

section Preservation

theorem accounted_empty : Accounted State.empty := by
  refine ⟨?_, ?_, ?_, ?_, ?_⟩
  · intro id award hstored
    cases hstored
  · intro id award hstored
    cases hstored
  · intro place id
    simp [State.places, State.empty, placeOf]
  · intro program
    simp [State.places, State.empty, placeOf, InProgram]
  · intro program
    simp [State.places, State.empty, placeOf, InProgram]

/-- A call that leaves the place of the award it writes leaves the books of the places. -/
theorem Accounted.keep (hs : Accounted s) {award row : Award} {id : Bytes32}
    (hstored : s.award id = some award)
    (hstate : s'.award = Function.update s.award award.id (some row)) (hid : row.id = award.id)
    (hplace : placeOf (some row) = placeOf (some award))
    (hflag : row.reserved = true ↔ row.status.Live)
    (hindex : s'.activeAward = s.activeAward) (hcount : s'.reservation = s.reservation) :
    Accounted s' := by
  have hkey := hs.keyed id award hstored
  have hplaces : s'.places = s.places := by
    rw [places_update hstate, hplace, hkey, ← hstored]
    exact Function.update_eq_self id s.places
  refine ⟨forall_update_row hs.keyed hstate hid, forall_update_row hs.flagged hstate hflag, ?_, ?_, ?_⟩
  · rw [hindex, hplaces]
    exact hs.pointed
  · rw [hplaces]
    exact hs.finite
  · rw [hcount, hplaces]
    exact hs.counted

theorem Accounted.offer (hs : Accounted s) {award : Award} (hunused : s.award award.id = none)
    (hfree : s.activeAward (award.recipient, award.programId) = none)
    (hlive : award.status.Live) (hflag : award.reserved = true) :
    Accounted { s with
      award := Function.update s.award award.id (some award)
      activeAward := Function.update s.activeAward (award.recipient, award.programId) (some award.id)
      reservation := Function.update s.reservation award.programId
        (s.reservation award.programId + 1) } := by
  have hnone : s.places award.id = none := by
    rw [State.places, hunused]
    rfl
  refine ⟨forall_update_row hs.keyed rfl rfl, forall_update_row hs.flagged rfl (iff_of_true hflag hlive),
    ?_, ?_, ?_⟩
  · rw [places_update rfl, placeOf_live hlive]
    exact hs.pointed.insert hfree hnone
  · intro program
    rw [places_update rfl]
    exact finite_update_row (hs.finite program) award.id _
  · intro program
    have hmoved := ncard_update_row (hs.finite program) award.id (placeOf (some award))
    rw [hnone, placeOf_live hlive] at hmoved
    rw [places_update rfl, placeOf_live hlive]
    dsimp only
    by_cases hprogram : program = award.programId
    · subst hprogram
      rw [Function.update_self, hs.counted]
      simpa [InProgram] using hmoved.symm
    · rw [Function.update_of_ne hprogram, hs.counted]
      simpa [InProgram, Ne.symm hprogram] using hmoved.symm

theorem Accounted.close (hs : Accounted s) {id : Bytes32} {award : Award} {status : AwardStatus}
    {reasonCode now : Nat} {recovery : Option Int} (hstored : s.award id = some award)
    (hlive : award.status.Live) (hclosed : ¬ status.Live) :
    Accounted (s.ended id award status reasonCode now recovery) := by
  have hkey := hs.keyed id award hstored
  have hplace : s.places award.id = some (award.recipient, award.programId) := by
    rw [State.places, hkey, hstored, placeOf_live hlive]
  refine ⟨forall_update_row hs.keyed rfl rfl, forall_update_row hs.flagged rfl ?_, ?_, ?_, ?_⟩
  · exact iff_of_false Bool.false_ne_true hclosed
  · rw [places_update rfl, placeOf_closed hclosed]
    exact hs.pointed.erase hplace
  · intro program
    rw [places_update rfl]
    exact finite_update_row (hs.finite program) award.id _
  · intro program
    have hmoved := ncard_update_row (hs.finite program) award.id none
    rw [hplace] at hmoved
    rw [places_update rfl, placeOf_closed hclosed]
    unfold State.ended
    dsimp only
    by_cases hprogram : program = award.programId
    · subst hprogram
      rw [Function.update_self, hs.counted]
      simp [InProgram] at hmoved ⊢
      omega
    · rw [Function.update_of_ne hprogram, hs.counted]
      simpa [InProgram, Ne.symm hprogram] using hmoved.symm

theorem Effect.accounted {call : Call} (h : Effect env s call s') (hs : Accounted s) :
    Accounted s' := by
  cases h with
  | appoint => exact ⟨hs.keyed, hs.flagged, hs.pointed, hs.finite, hs.counted⟩
  | offer _ hunused hfree _ hfresh =>
    exact hs.offer hunused hfree (.inl hfresh.2.1) hfresh.2.2.1
  | accept hstored _ hstatus =>
    have hflag := (hs.flagged _ _ hstored).mpr (.inl hstatus)
    refine hs.keep hstored rfl rfl ?_ (iff_of_true hflag (.inr rfl)) rfl rfl
    rw [placeOf_live (.inl hstatus)]
    exact placeOf_live (.inr rfl)
  | pay hstored hstatus =>
    have hflag := (hs.flagged _ _ hstored).mpr (.inr hstatus)
    refine hs.keep hstored rfl rfl ?_ (iff_of_true hflag (.inr hstatus)) rfl rfl
    rw [placeOf_live (.inr hstatus)]
    exact placeOf_live (.inr hstatus)
  | close hstored hending =>
    obtain ⟨hlive, hclosed⟩ := hending.live
    exact hs.close hstored hlive hclosed

theorem run_accounted (is : List (Input contract)) :
    Accounted ((machine contract).run State.empty is) :=
  Machine.run_invariant accounted_empty (fun _ _ _ _ hs h => (step_effect h).accounted hs) is

end Preservation

section Releases

theorem Accounted.held (hs : Accounted s) {id : Bytes32} {award : Award}
    (hstored : s.award id = some award) (hlive : award.status.Live) :
    1 ≤ s.reservation award.programId := by
  have hmem : id ∈ {x | InProgram award.programId (s.places x)} :=
    inProgram_placeOf.mpr ⟨award, hstored, rfl, hlive⟩
  rw [hs.counted]
  exact (Set.ncard_pos (hs.finite award.programId)).mpr ⟨id, hmem⟩

/-- The calls that give a reservation back. -/
def Call.closes : Call → Bool
  | .declineAward .. | .expireAward .. | .cancelAward .. | .terminateAward .. => true
  | _ => false

@[simp] theorem requireAdmin_ne_noReservation {caller : Address} :
    requireAdmin env s caller ≠ .error (.err .noReservation) := by
  simp [requireAdmin]

@[simp] theorem loadAward_ne_noReservation {id : Bytes32} :
    loadAward s id ≠ .error (.err .noReservation) := by
  simp [loadAward]

@[simp] theorem advanceAwardVersion_ne_noReservation {award : Award} {expected : Nat} :
    advanceAwardVersion award expected ≠ .error (.err .noReservation) := by
  simp [advanceAwardVersion]

theorem closeAward_held {award : Award} {status : AwardStatus}
    (hheld : 1 ≤ s.reservation award.programId) :
    closeAward env s award status ≠ .error (.err .noReservation) := by
  intro hfail
  obtain ⟨s', hclosed⟩ : ∃ s', closeAward env s award status = .ok s' :=
    ⟨_, closeAward_ok.mpr ⟨hheld, rfl⟩⟩
  rw [hclosed] at hfail
  cases hfail

/-- Where the books of the places are right, no closing call lacks a reservation. -/
theorem Accounted.releases (hs : Accounted s) {call : Call} (hcloses : call.closes = true) :
    execute env s call ≠ .error (.err .noReservation) := by
  cases call with
  | declineAward recipient id version =>
    intro hfail
    simp only [execute, declineAward, bind_eq_error, requireAuth_eq_error,
      requireAuth_eq_ok, loadAward_ok, refuseIf_eq_error, refuseIf_eq_ok, exists_unit,
      advanceAwardVersion_ok, Bool.not_eq_false, isLegalTransition_declined, reduceCtorEq,
      loadAward_ne_noReservation, advanceAwardVersion_ne_noReservation, Abort.err.injEq, and_false,
      false_or] at hfail
    obtain ⟨_, award, hstored, _, _, ⟨_, _, rfl⟩, hstatus, hfail⟩ := hfail
    have hheld := hs.held hstored (.inl hstatus)
    exact absurd hfail (closeAward_held hheld)
  | expireAward id version =>
    intro hfail
    simp only [execute, expireAward, bind_eq_error, loadAward_ok, refuseIf_eq_error,
      refuseIf_eq_ok, exists_unit, advanceAwardVersion_ok, not_not, reduceCtorEq,
      loadAward_ne_noReservation, advanceAwardVersion_ne_noReservation, Abort.err.injEq, and_false,
      false_or] at hfail
    obtain ⟨award, hstored, _, ⟨_, _, rfl⟩, hstatus, _, hfail⟩ := hfail
    have hheld := hs.held hstored (.inl hstatus)
    exact absurd hfail (closeAward_held hheld)
  | cancelAward admin id version reasonCode =>
    intro hfail
    simp only [execute, cancelAward, bind_eq_error, loadAward_ok, refuseIf_eq_error,
      refuseIf_eq_ok, exists_unit, advanceAwardVersion_ok, Bool.not_eq_false,
      isLegalTransition_cancelled, reduceCtorEq, requireAdmin_ne_noReservation,
      loadAward_ne_noReservation, advanceAwardVersion_ne_noReservation, Abort.err.injEq, and_false,
      false_or] at hfail
    obtain ⟨_, award, hstored, _, ⟨_, _, rfl⟩, _, hlive, hfail⟩ := hfail
    have hheld := hs.held hstored hlive
    exact absurd hfail (closeAward_held hheld)
  | terminateAward admin id version reasonCode recovery =>
    intro hfail
    simp only [execute, terminateAward, bind_eq_error, loadAward_ok, refuseIf_eq_error,
      refuseIf_eq_ok, exists_unit, advanceAwardVersion_ok, Bool.not_eq_false,
      isLegalTransition_terminated, reduceCtorEq, requireAdmin_ne_noReservation,
      loadAward_ne_noReservation, advanceAwardVersion_ne_noReservation, Abort.err.injEq, and_false,
      false_or] at hfail
    obtain ⟨_, award, hstored, _, ⟨_, _, rfl⟩, _, _, hstatus, hfail⟩ := hfail
    have hheld := hs.held hstored (.inr hstatus)
    exact absurd hfail (closeAward_held hheld)
  | _ => cases hcloses

end Releases

/-- The award is the recipient's live award in the program. -/
def LiveAward (s : State) (recipient : Address) (program id : Bytes32) : Prop :=
  ∃ award, s.award id = some award ∧ award.recipient = recipient ∧ award.programId = program ∧
    (award.status = .offered ∨ award.status = .accepted)

/-- In every reachable state a program has as many reservations as live awards, the pointer of a
recipient in a program names its one live award there, no recipient has two, and no closing call
lacks a reservation. -/
theorem run_reservations (is : List (Input contract)) :
    let s := (machine contract).run State.empty is
    (∀ program,
      {id | ∃ award, s.award id = some award ∧ award.programId = program ∧
        (award.status = .offered ∨ award.status = .accepted)}.Finite ∧
      getReservation s program = {id | ∃ award, s.award id = some award ∧
        award.programId = program ∧
        (award.status = .offered ∨ award.status = .accepted)}.ncard) ∧
    (∀ recipient program id, s.activeAward (recipient, program) = some id ↔
      LiveAward s recipient program id ∧
        ∀ other, LiveAward s recipient program other → other = id) ∧
    (∀ recipient program id other, LiveAward s recipient program id →
      LiveAward s recipient program other → other = id) ∧
    (∀ recipient program,
      hasActiveAward s recipient program = true ↔ ∃ id, LiveAward s recipient program id) ∧
    (∀ id award, s.award id = some award →
      (award.reserved = true ↔ award.status = .offered ∨ award.status = .accepted)) ∧
    ∀ (env : Env contract) call, call.closes = true →
      execute env s call ≠ .error (.err .noReservation) := by
  intro s
  have hs : Accounted s := run_accounted is
  have hrows : ∀ program, {id | InProgram program (s.places id)} =
      {id | ∃ award, s.award id = some award ∧ award.programId = program ∧
        (award.status = .offered ∨ award.status = .accepted)} := by
    intro program
    ext id
    exact inProgram_placeOf
  have hlive : ∀ recipient program id,
      s.activeAward (recipient, program) = some id ↔ LiveAward s recipient program id := by
    intro recipient program id
    exact (hs.pointed (recipient, program) id).trans placeOf_eq_some
  have hunique : ∀ recipient program id other, LiveAward s recipient program id →
      LiveAward s recipient program other → other = id := by
    intro recipient program id other hid hother
    exact hs.pointed.unique (placeOf_eq_some.mpr hother) (placeOf_eq_some.mpr hid)
  refine ⟨?_, ?_, hunique, ?_, hs.flagged, fun env call hcloses => hs.releases hcloses⟩
  · intro program
    rw [← hrows program]
    exact ⟨hs.finite program, hs.counted program⟩
  · intro recipient program id
    rw [hlive]
    exact ⟨fun hid => ⟨hid, fun other hother => hunique _ _ _ _ hid hother⟩, And.left⟩
  · intro recipient program
    rw [hasActiveAward, Option.isSome_iff_exists]
    exact exists_congr (hlive recipient program)

end ChainVerse.ScholarshipAwards
