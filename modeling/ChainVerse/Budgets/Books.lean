import ChainVerse.Budgets.Steps
import ChainVerse.Framework.Accounts

namespace ChainVerse.ScholarshipDecisions

variable {contract : Address} {env : Env contract} {s s' : State} {call : Call} {key : Application}
  {programId : Bytes32} {status : ReservationStatus} {reservation : Reservation}
  {config written : DecisionProgramConfig}

/-- What a row of the reservation table amounts to in a status. -/
def amountIn (status : ReservationStatus) : Option Reservation → Int
  | some reservation => if reservation.status = status then reservation.amount else 0
  | none => 0

/-- The amounts of a program's reservations in a status, by applicant. -/
def State.amounts (s : State) (status : ReservationStatus) (programId : Bytes32) : Address → Int :=
  fun applicant => amountIn status (s.reservation (programId, applicant))

theorem amountIn_eq (h : reservation.status = status) :
    amountIn status (some reservation) = reservation.amount := if_pos h

theorem amountIn_ne (h : reservation.status ≠ status) : amountIn status (some reservation) = 0 :=
  if_neg h

/-- One reservation is written. -/
theorem amounts_written (h : s'.reservation = Function.update s.reservation key (some reservation)) :
    s'.amounts status key.1 = Function.update (s.amounts status key.1) key.2
      (amountIn status (some reservation)) := by
  have hline : (fun applicant => s'.reservation (key.1, applicant)) =
      Function.update (fun applicant => s.reservation (key.1, applicant)) key.2 (some reservation) := by
    rw [h]
    exact update_line s.reservation key.1 key.2 (some reservation)
  show (fun applicant => amountIn status (s'.reservation (key.1, applicant))) = _
  calc (fun applicant => amountIn status (s'.reservation (key.1, applicant)))
      = amountIn status ∘ (fun applicant => s'.reservation (key.1, applicant)) := rfl
    _ = _ := by
      rw [hline]
      exact Function.comp_update _ _ _ _

theorem amounts_others (h : s'.reservation = Function.update s.reservation key (some reservation))
    (hother : programId ≠ key.1) : s'.amounts status programId = s.amounts status programId := by
  funext applicant
  unfold State.amounts
  rw [h, update_other_line s.reservation key.1 key.2 (some reservation) hother]

theorem amounts_same (h : s'.reservation = s.reservation) :
    ∀ status programId, s'.amounts status programId = s.amounts status programId := by
  intro status programId
  unfold State.amounts
  rw [h]

/-- The books of the budgets. -/
structure Books (s : State) : Prop where
  sound : ∀ status programId, Sound (s.amounts status programId)
  funded : ∀ key reservation, s.reservation key = some reservation → s.programConfig key.1 ≠ none
  reserved : ∀ programId config, s.programConfig programId = some config →
    config.reservedAmount = holdings (s.amounts .reserved programId)
  awarded : ∀ programId config, s.programConfig programId = some config →
    config.awardedAmount = holdings (s.amounts .claimed programId)
  bounded : ∀ programId config, s.programConfig programId = some config →
    config.reservedAmount + config.awardedAmount ≤ config.totalBudget
  ranges : ∀ programId config, s.programConfig programId = some config →
    0 ≤ config.perAwardAmount ∧ config.totalBudget < 2^127

theorem books_empty : Books State.empty where
  sound _ _ := sound_zero
  funded _ _ h := nomatch h
  reserved _ _ h := nomatch h
  awarded _ _ h := nomatch h
  bounded _ _ h := nomatch h
  ranges _ _ h := nomatch h

/-- Calls that leave the programs and their reservations. -/
theorem Books.keep (hs : Books s) (hprograms : s'.programConfig = s.programConfig)
    (hreservations : s'.reservation = s.reservation) : Books s' := by
  have hamounts := amounts_same hreservations
  refine ⟨?_, ?_, ?_, ?_, ?_, ?_⟩
  · intro status programId
    rw [hamounts]
    exact hs.sound status programId
  · rw [hprograms, hreservations]
    exact hs.funded
  · intro programId config
    rw [hprograms, hamounts]
    exact hs.reserved programId config
  · intro programId config
    rw [hprograms, hamounts]
    exact hs.awarded programId config
  · rw [hprograms]
    exact hs.bounded
  · rw [hprograms]
    exact hs.ranges

/-- One program is written, with the amounts that its reservations have. -/
theorem Books.configure (hs : Books s)
    (hprograms : s'.programConfig = Function.update s.programConfig programId (some written))
    (hreservations : s'.reservation = s.reservation)
    (hreserved : written.reservedAmount = holdings (s.amounts .reserved programId))
    (hawarded : written.awardedAmount = holdings (s.amounts .claimed programId))
    (hbounded : written.reservedAmount + written.awardedAmount ≤ written.totalBudget)
    (hranges : 0 ≤ written.perAwardAmount ∧ written.totalBudget < 2^127) : Books s' := by
  have hamounts := amounts_same hreservations
  refine ⟨?_, ?_, ?_, ?_, ?_, ?_⟩
  · intro status programId
    rw [hamounts]
    exact hs.sound status programId
  · intro key reservation hrow hnone
    rw [hreservations] at hrow
    rw [hprograms] at hnone
    have hold := hs.funded key reservation hrow
    by_cases hkey : key.1 = programId
    · rw [hkey, Function.update_self] at hnone
      cases hnone
    · rw [Function.update_of_ne hkey] at hnone
      exact hold hnone
  · refine forall_update_row ?_ hprograms ?_
    · simpa only [hamounts] using hs.reserved
    · rw [hamounts]
      exact hreserved
  · refine forall_update_row ?_ hprograms ?_
    · simpa only [hamounts] using hs.awarded
    · rw [hamounts]
      exact hawarded
  · exact forall_update_row hs.bounded hprograms hbounded
  · exact forall_update_row hs.ranges hprograms hranges

/-- One reservation is written, and the amounts of its program are moved with it. -/
theorem Books.book (hs : Books s) (hfound : s.programConfig key.1 = some config)
    (hreservations : s'.reservation = Function.update s.reservation key (some reservation))
    (hprograms : s'.programConfig = Function.update s.programConfig key.1 (some written))
    (hamount : 0 ≤ reservation.amount)
    (hreserved : written.reservedAmount = config.reservedAmount -
      amountIn .reserved (s.reservation key) + amountIn .reserved (some reservation))
    (hawarded : written.awardedAmount = config.awardedAmount -
      amountIn .claimed (s.reservation key) + amountIn .claimed (some reservation))
    (hbounded : written.reservedAmount + written.awardedAmount ≤ written.totalBudget)
    (hranges : 0 ≤ written.perAwardAmount ∧ written.totalBudget < 2^127) : Books s' := by
  have hnonneg : ∀ status, 0 ≤ amountIn status (some reservation) := by
    intro status
    by_cases hstatus : reservation.status = status
    · rw [amountIn_eq hstatus]
      exact hamount
    · rw [amountIn_ne hstatus]
  refine ⟨?_, ?_, ?_, ?_, ?_, ?_⟩
  · intro status programId
    by_cases hsame : programId = key.1
    · rw [hsame, amounts_written hreservations]
      exact (hs.sound status key.1).update key.2 (hnonneg status)
    · rw [amounts_others hreservations hsame]
      exact hs.sound status programId
  · intro other row hrow hnone
    rw [hprograms] at hnone
    rw [hreservations] at hrow
    by_cases hsame : other.1 = key.1
    · rw [hsame, Function.update_self] at hnone
      cases hnone
    · rw [Function.update_of_ne hsame] at hnone
      have hother : other ≠ key := fun heq => hsame (congrArg Prod.fst heq)
      rw [Function.update_of_ne hother] at hrow
      exact hs.funded other row hrow hnone
  · intro programId c hc
    rw [hprograms] at hc
    rcases update_row_cases hc with ⟨rfl, rfl⟩ | ⟨hne, hold⟩
    · rw [amounts_written hreservations, holdings_update (hs.sound .reserved key.1), hreserved,
        hs.reserved key.1 config hfound]
      rfl
    · rw [amounts_others hreservations hne]
      exact hs.reserved programId c hold
  · intro programId c hc
    rw [hprograms] at hc
    rcases update_row_cases hc with ⟨rfl, rfl⟩ | ⟨hne, hold⟩
    · rw [amounts_written hreservations, holdings_update (hs.sound .claimed key.1), hawarded,
        hs.awarded key.1 config hfound]
      rfl
    · rw [amounts_others hreservations hne]
      exact hs.awarded programId c hold
  · exact forall_update_row hs.bounded hprograms hbounded
  · exact forall_update_row hs.ranges hprograms hranges

/-- The budget of an award is set aside for an applicant without a reservation. -/
theorem Books.hold (hs : Books s) (hvacant : s.reservation key = none)
    (hholds : Holds s key config reservation)
    (hreservations : s'.reservation = (s.hold key config reservation).reservation)
    (hprograms : s'.programConfig = (s.hold key config reservation).programConfig) : Books s' := by
  have hranges := hs.ranges key.1 config hholds.found
  refine hs.book hholds.found hreservations hprograms ?_ ?_ ?_ ?_ hranges
  · rw [hholds.amount]
    exact hranges.1
  · rw [hvacant, amountIn_eq hholds.status, amountIn, Int.sub_zero]
  · have hunclaimed : reservation.status ≠ .claimed := by
      rw [hholds.status]
      decide
    rw [hvacant, amountIn_ne hunclaimed, amountIn, Int.sub_zero, Int.add_zero]
  · have hwithin := hholds.within
    show config.reservedAmount + reservation.amount + config.awardedAmount ≤ config.totalBudget
    omega

theorem Books.amount_nonneg (hs : Books s) (hheld : s.reservation key = some reservation) :
    0 ≤ reservation.amount := by
  have hnonneg := (hs.sound reservation.status key.1).nonneg key.2
  rw [State.amounts, hheld, amountIn_eq rfl] at hnonneg
  exact hnonneg

/-- A reservation that is held is covered by the reserved amount. -/
theorem Books.amount_le (hs : Books s) (hheld : s.reservation key = some reservation)
    (hreserved : reservation.status = .reserved) (hfound : s.programConfig key.1 = some config) :
    reservation.amount ≤ config.reservedAmount := by
  have hle := (hs.sound .reserved key.1).le_holdings key.2
  rw [State.amounts, hheld, amountIn_eq hreserved] at hle
  rwa [hs.reserved key.1 config hfound]

theorem Ends.status_ne {now expiresAt : Nat} (h : Ends now expiresAt key call status) :
    status ≠ .reserved := by
  cases h with
  | claimed => decide
  | released => decide
  | expired => decide

/-- A reservation comes to an end, and its program's amounts follow. -/
theorem Books.settle (hs : Books s) (hheld : s.reservation key = some reservation)
    (hreserved : reservation.status = .reserved) (hfound : s.programConfig key.1 = some config)
    (hstatus : status ≠ .reserved) :
    Books (setReservation (setProgramConfig s key.1 (config.settle reservation.amount status)) key
      { reservation with status := status }) := by
  have hamount := hs.amount_nonneg hheld
  have hbound := hs.bounded key.1 config hfound
  have hunclaimed : reservation.status ≠ .claimed := by
    rw [hreserved]
    decide
  refine hs.book hfound rfl rfl hamount ?_ ?_ ?_ (hs.ranges key.1 config hfound)
  · rw [hheld, amountIn_eq hreserved, amountIn_ne hstatus, Int.add_zero]
    rfl
  · rw [hheld, amountIn_ne hunclaimed, Int.sub_zero]
    show (if status = .claimed then config.awardedAmount + reservation.amount
      else config.awardedAmount) = _
    by_cases hclaimed : status = .claimed
    · rw [if_pos hclaimed, amountIn_eq hclaimed]
    · rw [if_neg hclaimed, amountIn_ne hclaimed, Int.add_zero]
  · show config.reservedAmount - reservation.amount +
      (if status = .claimed then config.awardedAmount + reservation.amount
        else config.awardedAmount) ≤ config.totalBudget
    split_ifs <;> omega

/-- No reservation stands in a program that is yet to be registered. -/
theorem Books.unregistered (hs : Books s) (habsent : s.programConfig programId = none) :
    holdings (s.amounts status programId) = 0 := by
  have hnothing : s.amounts status programId = fun _ => 0 := by
    funext applicant
    unfold State.amounts
    rcases hrow : s.reservation (programId, applicant) with _ | reservation
    · rfl
    · exact absurd habsent (hs.funded _ reservation hrow)
  rw [hnothing, holdings_zero]

end ChainVerse.ScholarshipDecisions
