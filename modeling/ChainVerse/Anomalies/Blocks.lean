import ChainVerse.Anomalies.Contract
import ChainVerse.Framework.Accounts
import ChainVerse.Framework.Histories

namespace ChainVerse.PaymentAnomaly

section Blocks

variable {contract : Address} {env : Env contract} {s s' : State} {call : Call}

/-- An accepted call of a run, with the stores around it. -/
abbrev Step (contract : Address) := Entry State (Input contract) Unit

/-- The payment that a call raises an alert for, and whether it is to be paused. -/
def Call.raises : Call → Option (String × Bool)
  | .raiseAlert _ paymentRef _ _ _ _ _ pausePayment _ _ _ => some (paymentRef, pausePayment)
  | _ => none

/-- The payment whose alert a call resolves, and how. -/
def Call.resolves : Call → Option (String × AlertStatus)
  | .resolveAlert _ paymentRef resolution _ => some (paymentRef, resolution)
  | _ => none

/-- A resolution ends the review of an alert. -/
def AlertStatus.Resolved (status : AlertStatus) : Prop := status = .confirmed ∨ status = .cleared

/-- What a row of the alert table adds to the paused total. -/
def heldAmount : Option PaymentAlert → Int
  | some alert => if alert.paymentPaused = true then alert.amount else 0
  | none => 0

/-- The amount of a payment's alert while its flag is set. -/
def State.heldAmounts (s : State) : String → Int := heldAmount ∘ s.alert

/-- How a resolution changes an alert: the flag goes when it is cleared. -/
structure Resolves (alert next : PaymentAlert) : Prop where
  ref : next.paymentRef = alert.paymentRef
  amount : next.amount = alert.amount
  review : ¬alert.status.Resolved
  resolved : next.status.Resolved
  flag : next.paymentPaused = true ↔ alert.paymentPaused = true ∧ next.status ≠ .cleared

/-- Everything an accepted call can do to the alerts and to the paused total. -/
inductive Effect (env : Env contract) (s : State) : Call → State → Prop where
  | quiet {call : Call} {s' : State} (raises : call.raises = none) (resolves : call.resolves = none)
      (alert : s'.alert = s.alert) (total : s'.totalPausedAmount = s.totalPausedAmount) :
      Effect env s call s'
  | raise {call : Call} {s' : State} (alert : PaymentAlert)
      (raises : call.raises = some (alert.paymentRef, alert.paymentPaused))
      (resolves : call.resolves = none) (unused : s.alert alert.paymentRef = none)
      (review : alert.status = .pausedPendingReview) (amount : 0 ≤ alert.amount)
      (stored : s'.alert = Function.update s.alert alert.paymentRef (some alert))
      (total : s'.totalPausedAmount = s.totalPausedAmount + heldAmount (some alert))
      (fits : s.totalPausedAmount < 2^127 → s'.totalPausedAmount < 2^127) : Effect env s call s'
  | resolve {call : Call} {s' : State} (ref : String) (alert next : PaymentAlert)
      (raises : call.raises = none) (resolves : call.resolves = some (ref, next.status))
      (found : s.alert ref = some alert) (change : Resolves alert next)
      (stored : s'.alert = Function.update s.alert next.paymentRef (some next))
      (total : s'.totalPausedAmount = if next.status = .cleared ∧ alert.paymentPaused = true
        then (fitsI128 (s.totalPausedAmount - alert.amount)).getD 0 else s.totalPausedAmount) :
      Effect env s call s'

section Specs

@[simp] theorem heldAmount_none : heldAmount none = 0 := rfl

theorem heldAmount_paused {alert : PaymentAlert} (h : alert.paymentPaused = true) :
    heldAmount (some alert) = alert.amount := if_pos h

theorem heldAmount_unpaused {alert : PaymentAlert} (h : ¬alert.paymentPaused = true) :
    heldAmount (some alert) = 0 := if_neg h

theorem raiseAlert_effect {caller : Address} {ref : String} {category : AnomalyCategory}
    {description evidenceRef : String} {amount : Int} {destination : Address} {pausePayment : Bool}
    {pauseDurationSecs velocity retryCount : Nat}
    (h : raiseAlert env s caller ref category description evidenceRef amount destination pausePayment
      pauseDurationSecs velocity retryCount = .ok s') :
    Effect env s (.raiseAlert caller ref category description evidenceRef amount destination
      pausePayment pauseDurationSecs velocity retryCount) s' := by
  simp only [raiseAlert, bind_eq_ok, refuseIf_eq_ok, exists_unit, pure_eq_ok, not_lt] at h
  obtain ⟨_, _, _, _, _, hamount, hunused, booked, hbooked, rfl⟩ := h
  have hnone : s.alert ref = none := by simpa using hunused
  cases pausePayment with
  | true =>
    simp only [addPausedAmount, if_true, bind_eq_ok, orRefuse_eq_ok, fitsI128_eq_some, pure_eq_ok]
      at hbooked
    obtain ⟨total, ⟨⟨_, hfits⟩, rfl⟩, rfl⟩ := hbooked
    exact .raise _ rfl rfl hnone rfl hamount rfl rfl fun _ => hfits
  | false =>
    rw [if_neg Bool.false_ne_true, pure_eq_ok] at hbooked
    subst hbooked
    exact .raise _ rfl rfl hnone rfl hamount rfl (Int.add_zero _).symm fun hfits => hfits

theorem resolveAlert_effect {caller : Address} {ref : String} {resolution : AlertStatus}
    {notes : String} (h : resolveAlert env s caller ref resolution notes = .ok s') :
    Effect env s (.resolveAlert caller ref resolution notes) s' := by
  simp only [resolveAlert, bind_eq_ok, refuseIf_eq_ok, orRefuse_eq_ok, exists_unit] at h
  obtain ⟨_, _, _, alert, hfound, hreview, hresolution, h⟩ := h
  have hresolved : AlertStatus.Resolved resolution := by
    rw [not_and_or, not_not, not_not] at hresolution
    exact hresolution.symm
  split_ifs at h with hreleased
  · obtain rfl := pure_eq_ok.mp h
    refine .resolve ref alert (alert.resolved false resolution caller notes env.timestamp) rfl rfl
      hfound ⟨rfl, rfl, hreview, hresolved, ?_⟩ rfl (if_pos hreleased).symm
    exact iff_of_false Bool.false_ne_true fun h => h.2 hreleased.1
  · obtain rfl := pure_eq_ok.mp h
    refine .resolve ref alert
      (alert.resolved alert.paymentPaused resolution caller notes env.timestamp) rfl rfl
      hfound ⟨rfl, rfl, hreview, hresolved, ?_⟩ rfl (if_neg hreleased).symm
    exact ⟨fun hflag => ⟨hflag, fun hcleared => hreleased ⟨hcleared, hflag⟩⟩, And.left⟩

/-- What an accepted call does to the alerts. -/
theorem step_effect {i : Input contract} {o : Unit}
    (h : (machine contract).step s i = .ok (o, s')) : Effect i.env s i.call s' := by
  obtain ⟨env, call⟩ := i
  simp only [machine, map_eq_ok, Prod.mk.injEq] at h
  obtain ⟨_, h, _, rfl⟩ := h
  cases call with
  | initContract =>
    simp only [execute, initContract, bind_eq_ok, exists_unit, pure_eq_ok] at h
    obtain ⟨_, _, rfl⟩ := h
    exact .quiet rfl rfl rfl rfl
  | raiseAlert => exact raiseAlert_effect h
  | resolveAlert => exact resolveAlert_effect h
  | pause =>
    simp only [execute, pause, setPaused, bind_eq_ok, exists_unit, pure_eq_ok] at h
    obtain ⟨_, rfl⟩ := h
    exact .quiet rfl rfl rfl rfl
  | unpause =>
    simp only [execute, unpause, setPaused, bind_eq_ok, exists_unit, pure_eq_ok] at h
    obtain ⟨_, rfl⟩ := h
    exact .quiet rfl rfl rfl rfl
  | setDetector =>
    simp only [execute, setDetector, bind_eq_ok, exists_unit, pure_eq_ok] at h
    obtain ⟨_, rfl⟩ := h
    exact .quiet rfl rfl rfl rfl
  | setResolver =>
    simp only [execute, setResolver, bind_eq_ok, exists_unit, pure_eq_ok] at h
    obtain ⟨_, rfl⟩ := h
    exact .quiet rfl rfl rfl rfl

end Specs

/-- The books of the paused amounts. -/
structure Totalled (s : State) : Prop where
  keyed : ∀ ref alert, s.alert ref = some alert → alert.paymentRef = ref
  amounts : ∀ ref alert, s.alert ref = some alert → 0 ≤ alert.amount
  sound : Sound s.heldAmounts
  total : s.totalPausedAmount = holdings s.heldAmounts
  fits : s.totalPausedAmount < 2^127

section Totals

theorem heldAmounts_update {ref : String} {alert : PaymentAlert}
    (hstate : s'.alert = Function.update s.alert ref (some alert)) :
    s'.heldAmounts = Function.update s.heldAmounts ref (heldAmount (some alert)) := by
  rw [State.heldAmounts, hstate, Function.comp_update]
  rfl

theorem heldAmount_nonneg {alert : PaymentAlert} (h : 0 ≤ alert.amount) :
    0 ≤ heldAmount (some alert) := by
  by_cases hpaused : alert.paymentPaused = true
  · rw [heldAmount_paused hpaused]
    exact h
  · rw [heldAmount_unpaused hpaused]

theorem totalled_empty : Totalled State.empty := by
  refine ⟨?_, ?_, sound_zero, holdings_zero.symm, by decide⟩
  · intro ref alert hstored
    cases hstored
  · intro ref alert hstored
    cases hstored

/-- A write of one alert keeps the books when the total moves as the alert's amount does. -/
theorem Totalled.write (hs : Totalled s) {alert : PaymentAlert} {ref : String}
    (href : alert.paymentRef = ref) (hamount : 0 ≤ alert.amount)
    (hstate : s'.alert = Function.update s.alert ref (some alert))
    (htotal : s'.totalPausedAmount =
      s.totalPausedAmount - s.heldAmounts ref + heldAmount (some alert))
    (hfits : s'.totalPausedAmount < 2^127) : Totalled s' := by
  refine ⟨forall_update_row hs.keyed hstate href, forall_update_row hs.amounts hstate hamount,
    ?_, ?_, hfits⟩
  · rw [heldAmounts_update hstate]
    exact hs.sound.update ref (heldAmount_nonneg hamount)
  · rw [heldAmounts_update hstate, holdings_update hs.sound, htotal, hs.total]

/-- A cleared alert gives back the amount that it held, and the difference always fits. -/
theorem Totalled.released (hs : Totalled s) {ref : String} {alert next : PaymentAlert}
    (hfound : s.alert ref = some alert) (hchange : Resolves alert next) :
    (if next.status = .cleared ∧ alert.paymentPaused = true
      then (fitsI128 (s.totalPausedAmount - alert.amount)).getD 0 else s.totalPausedAmount) =
        s.totalPausedAmount - s.heldAmounts ref + heldAmount (some next) := by
  have hheld : s.heldAmounts ref = heldAmount (some alert) := congrArg heldAmount hfound
  by_cases hpaused : alert.paymentPaused = true
  · rw [hheld, heldAmount_paused hpaused]
    by_cases hcleared : next.status = .cleared
    · have hflag : ¬next.paymentPaused = true := fun h => (hchange.flag.mp h).2 hcleared
      have hcovered := hs.sound.le_holdings ref
      rw [hheld, heldAmount_paused hpaused, ← hs.total] at hcovered
      have hamount := hs.amounts ref alert hfound
      have hbelow := hs.fits
      have hfits : fitsI128 (s.totalPausedAmount - alert.amount) =
          some (s.totalPausedAmount - alert.amount) := by
        rw [fitsI128_eq_some]
        exact ⟨by omega, rfl⟩
      rw [if_pos ⟨hcleared, hpaused⟩, hfits, Option.getD_some, heldAmount_unpaused hflag]
      omega
    · have hflag : next.paymentPaused = true := hchange.flag.mpr ⟨hpaused, hcleared⟩
      rw [if_neg fun h => hcleared h.1, heldAmount_paused hflag, hchange.amount]
      omega
  · have hflag : ¬next.paymentPaused = true := fun h => hpaused (hchange.flag.mp h).1
    rw [if_neg fun h => hpaused h.2, hheld, heldAmount_unpaused hpaused, heldAmount_unpaused hflag]
    omega

theorem Effect.totalled (h : Effect env s call s') (hs : Totalled s) : Totalled s' := by
  cases h with
  | quiet _ _ halert htotal =>
    have hsame : s'.heldAmounts = s.heldAmounts := by rw [State.heldAmounts, halert, State.heldAmounts]
    refine ⟨?_, ?_, ?_, ?_, ?_⟩
    · rw [halert]
      exact hs.keyed
    · rw [halert]
      exact hs.amounts
    · rw [hsame]
      exact hs.sound
    · rw [hsame, htotal]
      exact hs.total
    · rw [htotal]
      exact hs.fits
  | raise alert _ _ hunused _ hamount hstored htotal hfits =>
    apply hs.write rfl hamount hstored _ (hfits hs.fits)
    have hnone : s.heldAmounts alert.paymentRef = 0 := congrArg heldAmount hunused
    rw [htotal, hnone, Int.sub_zero]
  | resolve ref alert next _ _ hfound hchange hstored htotal =>
    have href : next.paymentRef = ref := hchange.ref.trans (hs.keyed ref alert hfound)
    have hamount : 0 ≤ next.amount := by
      rw [hchange.amount]
      exact hs.amounts ref alert hfound
    have hbooked := htotal.trans (hs.released hfound hchange)
    rw [href] at hstored
    apply hs.write href hamount hstored hbooked
    have hbelow := hs.fits
    have hold := hs.amounts ref alert hfound
    rw [htotal]
    split_ifs
    · cases hdifference : fitsI128 (s.totalPausedAmount - alert.amount) with
      | none => exact Int.pow_pos (by decide)
      | some total =>
        rw [fitsI128_eq_some] at hdifference
        rw [Option.getD_some, ← hdifference.2]
        exact hdifference.1.2
    · exact hbelow

theorem run_totalled (is : List (Input contract)) :
    Totalled ((machine contract).run State.empty is) :=
  Machine.run_invariant totalled_empty (fun _ _ _ _ hs h => (step_effect h).totalled hs) is

end Totals

end Blocks

variable {contract : Address} {env : Env contract} {s s' : State} {call : Call}
variable {es : List (Step contract)} {ref : String}

/-- A line that confirms an alert which was raised to pause its payment. -/
def ConfirmsPause (ref : String) (earlier : List (Step contract)) (e : Step contract) : Prop :=
  e.input.call.resolves = some (ref, .confirmed) ∧
    ∃ raised ∈ earlier, raised.input.call.raises = some (ref, true)

/-- A payment whose pause has been confirmed is blocked at every time since. -/
def StaysBlocked (s : State) (es : List (Step contract)) : Prop :=
  ∀ ref earlier e later, es = earlier ++ e :: later → ConfirmsPause ref earlier e →
    ∀ env : Env contract, e.input.env.timestamp ≤ env.timestamp →
      isPaymentPaused env s ref = true

/-- Every resolution of the journal is the status of its alert. -/
def Settled (s : State) (es : List (Step contract)) : Prop :=
  ∀ e ∈ es, ∀ ref status, e.input.call.resolves = some (ref, status) →
    ∃ alert, s.alert ref = some alert ∧ alert.status = status ∧ status.Resolved

section Settlements

/-- An alert that has been resolved is not written again. -/
theorem Effect.final (h : Effect env s call s') (hs : Totalled s) {alert : PaymentAlert}
    (hstored : s.alert ref = some alert) (hresolved : alert.status.Resolved) :
    s'.alert ref = some alert := by
  cases h with
  | quiet _ _ halert =>
    rw [halert]
    exact hstored
  | raise _ _ _ hunused _ _ hwritten =>
    rw [hwritten]
    exact update_keeps_row hunused hstored
  | resolve other review next _ _ hfound hchange hwritten =>
    rw [hwritten, hchange.ref, hs.keyed other review hfound]
    exact update_keeps_unless (q := fun alert => alert.status.Resolved) hfound hchange.review hstored
      hresolved

theorem Effect.settled {i : Input contract} {o : Unit} (h : Effect i.env s i.call s')
    (hs : Totalled s) (hsettled : Settled s es) : Settled s' (es ++ [⟨s, i, o, s'⟩]) := by
  intro e he ref status hresolves
  rcases List.mem_append.mp he with hold | hnew
  · obtain ⟨alert, hstored, rfl, hresolved⟩ := hsettled e hold ref status hresolves
    exact ⟨alert, h.final hs hstored hresolved, rfl, hresolved⟩
  · obtain rfl := List.mem_singleton.mp hnew
    cases h with
    | quiet _ hnone =>
      rw [hnone] at hresolves
      cases hresolves
    | raise _ _ hnone =>
      rw [hnone] at hresolves
      cases hresolves
    | resolve other alert next _ hsome hfound hchange hwritten =>
      rw [hsome] at hresolves
      obtain ⟨rfl, rfl⟩ := Prod.mk.inj (Option.some.inj hresolves)
      refine ⟨next, ?_, rfl, hchange.resolved⟩
      rw [hwritten, hchange.ref, hs.keyed other alert hfound]
      exact Function.update_self _ _ _

theorem run_settled (is : List (Input contract)) :
    Settled ((machine contract).run State.empty is)
      ((machine contract).journal State.empty is) := by
  refine (@Machine.run_journal_invariant _ _ _ _ (machine contract)
    (fun t es => Totalled t ∧ Settled t es) State.empty ⟨totalled_empty, ?_⟩ ?_ is).2
  · intro e he
    cases he
  · intro es s i o s' hs h
    exact ⟨(step_effect h).totalled hs.1, (step_effect h).settled hs.1 hs.2⟩

/-- A resolution of either kind lifts the pause, whatever the time. -/
theorem Settled.unpaused (hsettled : Settled s es) {e : Step contract} (he : e ∈ es)
    {status : AlertStatus} (hresolves : e.input.call.resolves = some (ref, status)) :
    isPaymentPaused env s ref = false := by
  obtain ⟨alert, hstored, rfl, hresolved⟩ := hsettled e he ref status hresolves
  have hreview : alert.status ≠ .pausedPendingReview := by
    intro hpending
    rw [hpending] at hresolved
    rcases hresolved with h | h
    · cases h
    · cases h
  simp [isPaymentPaused, hstored, hreview]

/-- Confirmed pauses stay blocks just where no pause is ever confirmed. -/
theorem Settled.staysBlocked_iff (hsettled : Settled s es) :
    StaysBlocked s es ↔ ∀ ref, ¬Happened (ConfirmsPause ref) es := by
  constructor
  · intro hblocked ref hhappened
    obtain ⟨earlier, e, later, hes, hconfirms⟩ := hhappened
    have hpaused := hblocked ref earlier e later hes hconfirms e.input.env le_rfl
    have he : e ∈ es := by
      rw [hes]
      exact List.mem_append_cons_self
    rw [hsettled.unpaused he hconfirms.1] at hpaused
    cases hpaused
  · intro hnever ref earlier e later hes hconfirms
    exact absurd ⟨earlier, e, later, hes, hconfirms⟩ (hnever ref)

end Settlements

/-- After every run a confirmed pause is still a block if and only if the run confirms no pause, for a
resolved alert pauses nothing; a cleared payment is never paused again; and the paused total is what the
flagged alerts add up to, and not negative. -/
theorem run_blocked (is : List (Input contract)) :
    let s := (machine contract).run State.empty is
    let es := (machine contract).journal State.empty is
    (StaysBlocked s es ↔ ∀ ref, ¬Happened (ConfirmsPause ref) es) ∧
    (∀ e ∈ es, ∀ ref, e.input.call.resolves = some (ref, .cleared) →
      ∀ env : Env contract, isPaymentPaused env s ref = false) ∧
    {ref | s.heldAmounts ref ≠ 0}.Finite ∧
    getTotalPausedAmount s = ∑ᶠ ref, s.heldAmounts ref ∧
    0 ≤ getTotalPausedAmount s := by
  intro s es
  have hsettled : Settled s es := run_settled is
  have htotalled : Totalled s := run_totalled is
  refine ⟨hsettled.staysBlocked_iff, ?_, htotalled.sound.finite, htotalled.total, ?_⟩
  · intro e he ref hcleared env
    exact hsettled.unpaused he hcleared
  · rw [getTotalPausedAmount, htotalled.total]
    exact htotalled.sound.holdings_nonneg

/-- The detector pauses a payment for an hour, and the resolver confirms the anomaly. -/
def sampleConfirmed : List (Input ⟨0⟩) :=
  [⟨.sample, .initContract ⟨1⟩ ⟨2⟩ ⟨3⟩⟩,
    ⟨.sample, .raiseAlert ⟨2⟩ "p" .rapidWalletChange "" "" 500 ⟨4⟩ true 3600 1 0⟩,
    ⟨.sample, .resolveAlert ⟨3⟩ "p" .confirmed ""⟩]

/-- The confirmed payment is no longer blocked, in the hour for which it was paused. -/
theorem sampleConfirmed_unblocked :
    ¬StaysBlocked ((machine ⟨0⟩).run State.empty sampleConfirmed)
      ((machine ⟨0⟩).journal State.empty sampleConfirmed) := by
  intro hblocked
  have hnever := (run_settled sampleConfirmed).staysBlocked_iff.mp hblocked "p"
  have hcalls : ((machine ⟨0⟩).journal State.empty sampleConfirmed).map
      (fun e => (e.input.call.raises, e.input.call.resolves)) =
        [(none, none), (some ("p", true), none), (none, some ("p", .confirmed))] := by
    decide +kernel
  obtain ⟨first, rest, hes, _, hrest⟩ := List.map_eq_cons_iff.mp hcalls
  obtain ⟨raised, rest', rfl, hraised, hrest'⟩ := List.map_eq_cons_iff.mp hrest
  obtain ⟨confirmed, rest'', rfl, hconfirmed, _⟩ := List.map_eq_cons_iff.mp hrest'
  refine hnever ⟨[first, raised], confirmed, rest'', hes, (Prod.mk.inj hconfirmed).2, raised, ?_, ?_⟩
  · exact List.mem_cons_of_mem _ List.mem_cons_self
  · exact (Prod.mk.inj hraised).1

end ChainVerse.PaymentAnomaly
