import ChainVerse.Token.Steps
import ChainVerse.Framework.Histories

namespace ChainVerse.TokenContract

variable {contract : Address} {s s' : State} {is : List (Input contract)} {u : Unit}

abbrev Line (contract : Address) := Entry State (Input contract) Unit

/-- An owner and the spender of an allowance. -/
abbrev Pair := Address × Address

/-- The approval that a call gives, for an owner and a spender. -/
def Call.approves : Call → Option (Pair × Allowance)
  | .approve owner spender amount expiresAt => some ((owner, spender), ⟨amount, expiresAt⟩)
  | _ => none

/-- The pair whose approval a call replaces or takes back. -/
def Call.resets : Call → Option Pair
  | .approve owner spender _ _ => some (owner, spender)
  | .revokeAllowance owner spender => some (owner, spender)
  | _ => none

/-- The pair whose allowance a call uses. -/
def Call.spends : Call → Option Pair
  | .transferFrom spender sender _ _ => some (sender, spender)
  | _ => none

/-- The amount that a call moves under the approval of a pair. -/
def Call.spent (call : Call) (pair : Pair) : Int :=
  if call.spends = some pair then call.moves.elim 0 (·.2.2) else 0

/-- The amount that a pair has left. -/
def State.remaining (s : State) (pair : Pair) : Int := (s.allowance pair).elim 0 (·.amount)

section Steps

variable {env : Env contract} {call : Call} {pair : Pair} {allow : Allowance}

theorem configuration_silent (h : call.isConfiguration = true) :
    call.approves = none ∧ call.resets = none ∧ call.spends = none := by
  cases call <;> simp_all [Call.isConfiguration, Call.approves, Call.resets, Call.spends]

theorem spent_zero (h : call.spends = none) : call.spent pair = 0 := by
  rw [Call.spent, h]
  rfl

/-- An allowance changes by what is spent under it, as long as nobody sets it anew. -/
theorem Effect.remaining (h : Effect env s call s') (hs : Minted s) (hkept : call.resets ≠ some pair) :
    s'.remaining pair = s.remaining pair - call.spent pair ∧
      ∀ allow', s'.allowance pair = some allow' →
        ∃ allow, s.allowance pair = some allow ∧ allow.expiresAt = allow'.expiresAt := by
  have hsame : s'.allowance pair = s.allowance pair → call.spent pair = 0 →
      s'.remaining pair = s.remaining pair - call.spent pair ∧
        ∀ allow', s'.allowance pair = some allow' →
          ∃ allow, s.allowance pair = some allow ∧ allow.expiresAt = allow'.expiresAt := by
    intro hallowance hnothing
    refine ⟨?_, ?_⟩
    · rw [State.remaining, State.remaining, hallowance, hnothing, Int.sub_zero]
    · intro allow' hallow
      rw [hallowance] at hallow
      exact ⟨allow', hallow, rfl⟩
  cases h with
  | configured kind same =>
    exact hsame (by rw [same.allowance]) (spent_zero (configuration_silent kind).2.2)
  | initialized => exact hsame rfl rfl
  | migrated =>
    rw [hs.migrated] at hsame ⊢
    exact hsame rfl rfl
  | approved =>
    refine hsame (Function.update_of_ne ?_ _ _) rfl
    intro hpair
    rw [hpair] at hkept
    exact hkept rfl
  | revoked =>
    refine hsame (Function.update_of_ne ?_ _ _) rfl
    intro hpair
    rw [hpair] at hkept
    exact hkept rfl
  | transferred => exact hsame rfl rfl
  | @spent spender sender receiver amount allow rest payable stored live enough left =>
    by_cases hpair : (sender, spender) = pair
    · subst hpair
      have hmoved : (Call.transferFrom spender sender receiver amount).spent (sender, spender) = amount :=
        if_pos rfl
      have hrest : ({ s.moved sender receiver amount with
          allowance := Function.update s.allowance (sender, spender) rest } : State).allowance
            (sender, spender) = rest := Function.update_self _ _ _
      rw [State.remaining, hrest, State.remaining, stored, hmoved, left]
      split_ifs with hnothing
      · refine ⟨hnothing.symm, ?_⟩
        intro allow' hallow
        cases hallow
      · refine ⟨rfl, ?_⟩
        intro allow' hallow
        cases hallow
        exact ⟨allow, rfl, rfl⟩
    · refine hsame (Function.update_of_ne (Ne.symm hpair) _ _) (if_neg ?_)
      intro hspends
      exact hpair (Option.some.inj hspends)

/-- What is spent is spent under an allowance, in its time. -/
theorem Effect.spends (h : Effect env s call s') (hspends : call.spends = some pair) :
    ∃ allow, s.allowance pair = some allow ∧ allow.expired env.timestamp = false := by
  cases h with
  | configured kind =>
    rw [(configuration_silent kind).2.2] at hspends
    cases hspends
  | spent payable stored live =>
    cases hspends
    exact ⟨_, stored, live⟩
  | _ => cases hspends

theorem Effect.approves (h : Effect env s call s') (happroves : call.approves = some (pair, allow)) :
    s'.allowance pair = some allow := by
  cases h with
  | configured kind =>
    rw [(configuration_silent kind).1] at happroves
    cases happroves
  | approved =>
    cases happroves
    exact Function.update_self _ _ _
  | _ => cases happroves

/-- An allowance that is there has been given by the call, or was there and is not set anew. -/
theorem Effect.stored (h : Effect env s call s') (hs : Minted s) (hstored : s'.allowance pair = some allow) :
    (∃ given, call.approves = some (pair, given)) ∨
      call.resets ≠ some pair ∧ ∃ before, s.allowance pair = some before := by
  by_cases hreset : call.resets = some pair
  · left
    cases h with
    | configured kind =>
      rw [(configuration_silent kind).2.1] at hreset
      cases hreset
    | @approved owner spender amount expiresAt =>
      cases hreset
      exact ⟨⟨amount, expiresAt⟩, rfl⟩
    | revoked =>
      cases hreset
      have hnone := hstored.symm.trans (Function.update_self _ _ _)
      cases hnone
    | _ => cases hreset
  · obtain ⟨before, hbefore, _⟩ := (h.remaining hs hreset).2 allow hstored
    exact .inr ⟨hreset, before, hbefore⟩

theorem Minted.remaining_nonneg (hs : Minted s) (pair : Pair) : 0 ≤ s.remaining pair := by
  unfold State.remaining
  cases hstored : s.allowance pair with
  | none => exact le_rfl
  | some allow => exact (hs.allowed pair allow hstored).1.le

end Steps

section Runs

variable {pair : Pair} {allow : Allowance}

/-- What is spent under an approval and what is left of it are together what was approved, and nothing
moves after its time. -/
structure Honoured (pair : Pair) (allow : Allowance) (s : State) (es : List (Line contract)) : Prop where
  minted : Minted s
  total : (es.map fun e => e.input.call.spent pair).sum + s.remaining pair = allow.amount
  expiry : ∀ left, s.allowance pair = some left → left.expiresAt = allow.expiresAt
  timely : ∀ e ∈ es, e.input.call.spends = some pair → allow.expired e.input.env.timestamp = false

theorem step_honoured {es : List (Line contract)} {i : Input contract} (hs : Honoured pair allow s es)
    (hkept : i.call.resets ≠ some pair) (h : (machine contract).step s i = .ok (u, s')) :
    Honoured pair allow s' (es ++ [⟨s, i, u, s'⟩]) := by
  have heffect := step_effect hs.minted h
  obtain ⟨hremaining, hbefore⟩ := heffect.remaining hs.minted hkept
  refine ⟨heffect.minted hs.minted, ?_, ?_, ?_⟩
  · have htotal := hs.total
    rw [List.map_append, List.sum_append, List.map_singleton, List.sum_singleton, hremaining]
    dsimp only
    omega
  · intro left hleft
    obtain ⟨stored, hstored, hsame⟩ := hbefore left hleft
    rw [← hsame, hs.expiry stored hstored]
  · intro e he hspends
    rcases List.mem_append.mp he with hold | hnew
    · exact hs.timely e hold hspends
    · cases List.mem_singleton.mp hnew
      obtain ⟨stored, hstored, hlive⟩ := heffect.spends hspends
      have hexpiry := hs.expiry stored hstored
      rw [Allowance.expired, hexpiry] at hlive
      exact hlive

theorem run_honoured (hs : Minted s) (hstored : s.allowance pair = some allow)
    (hkept : ∀ e ∈ (machine contract).journal s is, e.input.call.resets ≠ some pair) :
    Honoured pair allow ((machine contract).run s is) ((machine contract).journal s is) := by
  apply Machine.run_journal_invariant_on (A := fun e => e.input.call.resets ≠ some pair)
  · refine ⟨hs, ?_, ?_, ?_⟩
    · rw [State.remaining, hstored]
      simp
    · intro left hleft
      cases hstored.symm.trans hleft
      rfl
    · intro e he
      cases he
  · intro es s i u s' hline hhonoured hstep
    exact step_honoured hhonoured hline hstep
  · exact hkept

/-- Every allowance has been given by an approval that nobody has set anew since. -/
theorem run_approved (is : List (Input contract)) :
    Minted ((machine contract).run State.empty is) ∧
    ∀ pair allow, ((machine contract).run State.empty is).allowance pair = some allow →
      Since (fun e : Line contract => ∃ given, e.input.call.approves = some (pair, given))
        (fun e => e.input.call.resets = some pair) ((machine contract).journal State.empty is) := by
  apply Machine.run_journal_invariant (P := fun s es => Minted s ∧ ∀ pair allow,
    s.allowance pair = some allow →
      Since (fun e : Line contract => ∃ given, e.input.call.approves = some (pair, given))
        (fun e => e.input.call.resets = some pair) es)
  · refine ⟨minted_empty, ?_⟩
    intro pair allow hallow
    cases hallow
  · rintro es s i u s' ⟨hs, hgiven⟩ hstep
    have heffect := step_effect hs hstep
    refine ⟨heffect.minted hs, ?_⟩
    intro pair allow hallow
    rw [since_snoc]
    rcases heffect.stored hs hallow with hnew | ⟨hkept, before, hbefore⟩
    · exact .inl hnew
    · exact .inr ⟨hgiven pair before hbefore, hkept⟩

/-- The supply, the transfers and the approvals of a run with its journal. -/
structure Conserved (s : State) (es : List (Line contract)) : Prop where
  sound : Sound s.balance
  supply : holdings s.balance = s.totalSupply.getD 0
  capped : s.totalSupply.getD 0 ≤ maxSupply
  transfers : ∀ e ∈ es, ∀ sender receiver amount, e.input.call.moves = some (sender, receiver, amount) →
    ∀ holder, e.post.balance holder = e.pre.balance holder -
      (if sender = holder then amount else 0) +
      (if receiver = holder then amount - royaltyShare e.pre amount else 0) +
      (if (getRoyalty e.pre).map (·.recipient) = some holder then royaltyShare e.pre amount else 0)
  arithmetic : ∀ (env : Env contract) (call : Call), call.moves.isSome →
    execute env s call ≠ .error (.err .arithmeticOverflow) ∧ execute env s call ≠ .error .overflow
  approved : ∀ earlier e later pair, es = earlier ++ e :: later → e.input.call.spends = some pair →
    Since (fun x : Line contract => ∃ given, x.input.call.approves = some (pair, given))
      (fun x => x.input.call.resets = some pair) earlier
  within : ∀ earlier e mid later pair allow, es = earlier ++ e :: (mid ++ later) →
    e.input.call.approves = some (pair, allow) → (∀ x ∈ mid, x.input.call.resets ≠ some pair) →
      (mid.map fun x => x.input.call.spent pair).sum ≤ allow.amount ∧
      ∀ x ∈ mid, x.input.call.spends = some pair → ∀ expiry, allow.expiresAt = some expiry →
        x.input.env.timestamp ≤ expiry

theorem line_moved (hs : Minted s) {i : Input contract} (h : (machine contract).step s i = .ok (u, s'))
    {sender receiver : Address} {amount : Int} (hmoves : i.call.moves = some (sender, receiver, amount))
    (holder : Address) : s'.balance holder = s.balance holder -
      (if sender = holder then amount else 0) +
      (if receiver = holder then amount - royaltyShare s amount else 0) +
      (if (getRoyalty s).map (·.recipient) = some holder then royaltyShare s amount else 0) := by
  have heffect := step_effect hs h
  obtain ⟨env, call⟩ := i
  cases heffect with
  | configured kind => cases call <;> simp_all [Call.isConfiguration, Call.moves]
  | transferred =>
    cases hmoves
    exact moved_balance s sender receiver amount holder
  | spent =>
    cases hmoves
    exact moved_balance s sender receiver amount holder
  | _ => cases hmoves

theorem run_token (is : List (Input contract)) : Conserved ((machine contract).run State.empty is)
    ((machine contract).journal State.empty is) where
  sound := (run_minted is).sound
  supply := (run_minted is).supply
  capped := (run_minted is).capped
  transfers e he sender receiver amount hmoves holder := by
    obtain ⟨hstep, js, _, hpre⟩ := Machine.journal_step he
    have hminted : Minted e.pre := hpre ▸ run_minted js
    exact line_moved hminted hstep hmoves holder
  arithmetic env call hmoves := by
    obtain ⟨move, hmove⟩ := Option.isSome_iff_exists.mp hmoves
    exact (run_minted is).no_overflow hmove
  approved earlier e later pair hes hspends := by
    obtain ⟨js, ks, _, hjournal, hrun, hstep⟩ := Machine.journal_split hes
    have hminted : Minted e.pre := hrun ▸ run_minted js
    obtain ⟨allow, hstored, _⟩ := (step_effect hminted hstep).spends hspends
    rw [← hrun] at hstored
    rw [← hjournal]
    exact (run_approved js).2 pair allow hstored
  within earlier e mid later pair allow hes happroves hkept := by
    obtain ⟨js, ks, _, _, hrun, hstep⟩ := Machine.journal_split hes
    have hminted : Minted e.pre := hrun ▸ run_minted js
    have heffect := step_effect hminted hstep
    obtain ⟨ls, hmid⟩ := Machine.journal_window hes
    rw [← hmid] at hkept
    have hhonoured := run_honoured (heffect.minted hminted) (heffect.approves happroves) hkept
    rw [hmid] at hhonoured
    refine ⟨?_, ?_⟩
    · have hleft := hhonoured.minted.remaining_nonneg pair
      have htotal := hhonoured.total
      omega
    · intro x hx hspends expiry hexpiry
      have htimely := hhonoured.timely x hx hspends
      rw [Allowance.expired, hexpiry] at htimely
      simpa using htimely

end Runs

end ChainVerse.TokenContract
