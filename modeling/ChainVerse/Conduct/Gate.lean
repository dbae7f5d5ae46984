import ChainVerse.Conduct.Steps

namespace ChainVerse.MentorshipConduct

variable {contract : Address} {env : Env contract} {s s' : State} {call : Call} {actor : Address}
  {role : Role} {version : Nat} {id : Bytes32} {i : Input contract} {o : Answer}

section Records

/-- The policy but for its retirement. -/
def Policy.SameText (p p' : Policy) : Prop := p' = { p with retired := p'.retired }

/-- A policy that the actor had to accept in the role is accepted. -/
def Passed (s : State) (actor : Address) (role : Role) (version : Nat) : Prop :=
  ∃ p, s.policy version = some p ∧ p.audience.appliesTo role = true ∧
    (p.mandatory = true → hasAccepted s actor version role = true)

/-- There is a policy of that version, and it applies to the role. -/
def Applies (policy : Nat → Option Policy) (role : Role) (n : Nat) : Prop :=
  ∃ p, policy n = some p ∧ p.audience.appliesTo role = true

/-- What stands recorded of an engagement. -/
structure Engagement.Proper (s : State) (id : Bytes32) (e : Engagement) : Prop where
  named : e.id = id
  parties : e.mentor ≠ e.mentee
  mentor : e.state = .active ∨ e.state = .suspended → Passed s e.mentor .mentor e.mentorPolicyVersion
  mentee : e.state = .active ∨ e.state = .suspended → Passed s e.mentee .mentee e.menteePolicyVersion

/-- What the records say of each other. -/
structure Kept (s : State) : Prop where
  numbered : ∀ n, (∃ p, s.policy n = some p) ↔ 1 ≤ n ∧ n ≤ s.policyVersion
  cap : s.policyVersion ≤ maxPolicyVersion
  policies : ∀ n p, s.policy n = some p → p.version = n ∧ p.policyHash ≠ 0
  latest : ∀ role n, s.latestPolicy role = some n ↔
    Applies s.policy role n ∧ ∀ m, n < m → ¬Applies s.policy role m
  acceptances : ∀ key a, s.acceptance key = some a → key = a.key ∧
    ∃ p, s.policy a.policyVersion = some p ∧ p.policyHash = a.policyHash ∧
      p.audience.appliesTo a.role = true
  engagements : ∀ id e, s.engagement id = some e → e.Proper s id
  breaches : ∀ ref b, s.breach ref = some b → b.caseRef = ref ∧ b.evidenceHash ≠ 0 ∧
    ∃ p, s.policy b.policyVersion = some p

/-- What later calls leave of the records. -/
structure Extends (s s' : State) : Prop where
  policies : ∀ n p, s.policy n = some p → ∃ p', s'.policy n = some p' ∧ p.SameText p' ∧
    (p.retired = true → p'.retired = true)
  acceptances : ∀ key a, s.acceptance key = some a → s'.acceptance key = some a

theorem Policy.SameText.refl (p : Policy) : p.SameText p := rfl

theorem Policy.SameText.trans {p q r : Policy} (h : p.SameText q) (h' : q.SameText r) : p.SameText r := by
  unfold Policy.SameText at *
  rw [h', h]

theorem Extends.refl (s : State) : Extends s s where
  policies _ p h := ⟨p, h, .refl p, id⟩
  acceptances _ _ h := h

theorem Extends.trans {a b c : State} (h : Extends a b) (h' : Extends b c) : Extends a c where
  policies n p hp := by
    obtain ⟨q, hq, htext, hretired⟩ := h.policies n p hp
    obtain ⟨r, hr, htext', hretired'⟩ := h'.policies n q hq
    exact ⟨r, hr, htext.trans htext', hretired' ∘ hretired⟩
  acceptances key a ha := h'.acceptances key a (h.acceptances key a ha)

theorem Extends.hasAccepted (h : Extends s s') (hold : hasAccepted s actor version role = true) :
    hasAccepted s' actor version role = true := by
  obtain ⟨a, ha⟩ := Option.isSome_iff_exists.mp hold
  exact Option.isSome_iff_exists.mpr ⟨a, h.acceptances _ a ha⟩

/-- A check that was passed stays passed. -/
theorem Extends.passed (h : Extends s s') (hold : Passed s actor role version) :
    Passed s' actor role version := by
  obtain ⟨p, hp, happlies, haccepted⟩ := hold
  obtain ⟨p', hp', htext, _⟩ := h.policies version p hp
  refine ⟨p', hp', ?_, ?_⟩
  · rw [htext]
    exact happlies
  · intro hmandatory
    rw [htext] at hmandatory
    exact h.hasAccepted (haccepted hmandatory)

theorem Extends.proper (h : Extends s s') {e : Engagement} (hold : e.Proper s id) : e.Proper s' id where
  named := hold.named
  parties := hold.parties
  mentor hstate := h.passed (hold.mentor hstate)
  mentee hstate := h.passed (hold.mentee hstate)

theorem Kept.no_policy (h : Kept s) (hlate : s.policyVersion < version) : s.policy version = none := by
  rcases hrow : s.policy version with _ | p
  · rfl
  · have hbound := ((h.numbered version).mp ⟨p, hrow⟩).2
    omega

theorem step_extends (h : Kept s) (hstep : Effect env s call s') : Extends s s' := by
  cases hstep with
  | initialized => exact ⟨fun n p hp => ⟨p, hp, .refl p, id⟩, fun _ _ => id⟩
  | published _ policy _ _ next =>
    refine ⟨?_, fun _ _ => id⟩
    intro n p hp
    have hfresh : s.policy policy.version = none := h.no_policy (by omega)
    exact ⟨p, update_keeps_row hfresh hp, .refl p, id⟩
  | retired _ version policy _ _ found =>
    refine ⟨?_, fun _ _ => id⟩
    intro n p hp
    by_cases hn : n = version
    · subst hn
      obtain rfl : p = policy := Option.some.inj (hp.symm.trans found)
      exact ⟨_, Function.update_self _ _ _, rfl, fun _ => rfl⟩
    · exact ⟨p, (Function.update_of_ne hn _ _).trans hp, .refl p, id⟩
  | accepted a _ _ fresh =>
    exact ⟨fun n p hp => ⟨p, hp, .refl p, id⟩, fun _ _ => update_keeps_row fresh⟩
  | repeated => exact .refl s
  | created => exact ⟨fun n p hp => ⟨p, hp, .refl p, id⟩, fun _ _ => id⟩
  | moved => exact ⟨fun n p hp => ⟨p, hp, .refl p, id⟩, fun _ _ => id⟩
  | breached => exact ⟨fun n p hp => ⟨p, hp, .refl p, id⟩, fun _ _ => id⟩
  | resolved => exact ⟨fun n p hp => ⟨p, hp, .refl p, id⟩, fun _ _ => id⟩

/-- What makes an actor current is that the check for the version is passed. -/
theorem Kept.current_passed (h : Kept s) (hcurrent : Current s actor role version) :
    Passed s actor role version := by
  obtain ⟨p, stored, hlatest, hp, _, haccepted, hversion⟩ := hcurrent
  obtain ⟨⟨p', hp', happlies⟩, _⟩ := (h.latest role stored).mp hlatest
  obtain rfl : p = p' := Option.some.inj (hp.symm.trans hp')
  obtain rfl : p.version = stored := (h.policies stored p hp).1
  rw [← hversion]
  exact ⟨p, hp, happlies, haccepted⟩

/-- Which versions apply to a role once one more is published. -/
theorem applies_published (h : Kept s) {policy : Policy} (next : policy.version = s.policyVersion + 1)
    (role : Role) (n : Nat) : Applies (Function.update s.policy policy.version (some policy)) role n ↔
      n = policy.version ∧ policy.audience.appliesTo role = true ∨ Applies s.policy role n := by
  have hfresh : s.policy policy.version = none := h.no_policy (by omega)
  unfold Applies
  rw [exists_update_row]
  by_cases hn : n = policy.version
  · simp [hn, hfresh]
  · simp [hn]

/-- A version that is published after all others is the latest wherever it applies. -/
theorem latest_published (h : Kept s) {policy : Policy} (next : policy.version = s.policyVersion + 1)
    (role : Role) (n : Nat) : recordLatest s.latestPolicy policy role = some n ↔
      Applies (Function.update s.policy policy.version (some policy)) role n ∧
        ∀ m, n < m → ¬Applies (Function.update s.policy policy.version (some policy)) role m := by
  have hlast : ∀ m, Applies s.policy role m → m < policy.version := by
    rintro m ⟨p, hp, _⟩
    have hbound := ((h.numbered m).mp ⟨p, hp⟩).2
    omega
  simp only [applies_published h next]
  unfold recordLatest
  by_cases happlies : policy.audience.appliesTo role = true
  · rw [if_pos happlies, Option.some.injEq]
    constructor
    · rintro rfl
      refine ⟨.inl ⟨rfl, happlies⟩, ?_⟩
      rintro m hm (⟨rfl, _⟩ | hold)
      · exact lt_irrefl _ hm
      · exact lt_asymm hm (hlast m hold)
    · rintro ⟨⟨rfl, _⟩ | hold, hgreatest⟩
      · rfl
      · exact absurd (.inl ⟨rfl, happlies⟩) (hgreatest policy.version (hlast n hold))
  · rw [if_neg happlies, h.latest]
    simp only [happlies, and_false, false_or, Bool.false_eq_true]

theorem applies_retired {policy : Policy} (found : s.policy version = some policy) (role : Role) (n : Nat) :
    Applies (Function.update s.policy version (some { policy with retired := true })) role n ↔
      Applies s.policy role n := by
  unfold Applies
  rw [exists_update_row]
  by_cases hn : n = version
  · simp [hn, found]
  · simp [hn]

/-- What the other records say of the policies stays so. -/
theorem Kept.acceptance_extend (h : Kept s) (hext : Extends s s') (key : Address × Nat × Role)
    (a : Acceptance) (ha : s.acceptance key = some a) : key = a.key ∧
      ∃ p, s'.policy a.policyVersion = some p ∧ p.policyHash = a.policyHash ∧
        p.audience.appliesTo a.role = true := by
  obtain ⟨hkey, p, hp, hhash, happlies⟩ := h.acceptances key a ha
  obtain ⟨p', hp', htext, _⟩ := hext.policies _ p hp
  refine ⟨hkey, p', hp', ?_, ?_⟩
  · rw [htext]
    exact hhash
  · rw [htext]
    exact happlies

theorem Kept.breach_extend (h : Kept s) (hext : Extends s s') (ref : Bytes32) (b : BreachRecord)
    (hb : s.breach ref = some b) :
    b.caseRef = ref ∧ b.evidenceHash ≠ 0 ∧ ∃ p, s'.policy b.policyVersion = some p := by
  obtain ⟨href, hevidence, p, hp⟩ := h.breaches ref b hb
  obtain ⟨p', hp', _⟩ := hext.policies _ p hp
  exact ⟨href, hevidence, p', hp'⟩

theorem Kept.engagement_extend (h : Kept s) (hext : Extends s s') (id : Bytes32) (e : Engagement)
    (he : s.engagement id = some e) : e.Proper s' id := hext.proper (h.engagements id e he)

/-- An engagement comes out of a move as the records require. -/
theorem Move.proper {before after : Engagement} (h : Kept s) (hmove : Move env s id call before after)
    (hbefore : before.Proper s id) : after.Proper s id := by
  cases hmove with
  | activated _ _ mentorVersion menteeVersion _ _ _ mentor mentee =>
    exact ⟨hbefore.named, hbefore.parties, fun _ => h.current_passed mentor,
      fun _ => h.current_passed mentee⟩
  | suspended _ _ _ _ active =>
    exact ⟨hbefore.named, hbefore.parties, fun _ => hbefore.mentor (.inl active),
      fun _ => hbefore.mentee (.inl active)⟩
  | resumed _ _ mentorVersion menteeVersion _ _ _ mentor mentee =>
    exact ⟨hbefore.named, hbefore.parties, fun _ => h.current_passed mentor,
      fun _ => h.current_passed mentee⟩
  | ended =>
    refine ⟨hbefore.named, hbefore.parties, ?_, ?_⟩
    · rintro (hstate | hstate) <;> cases hstate
    · rintro (hstate | hstate) <;> cases hstate

theorem kept_empty : Kept State.empty where
  numbered n := by
    constructor
    · rintro ⟨p, hp⟩
      cases hp
    · rintro ⟨hfirst, hlast⟩
      exact absurd (Nat.le_trans hfirst hlast) (by decide)
  cap := Nat.zero_le _
  policies _ _ h := nomatch h
  latest role n := by
    constructor
    · intro h
      cases h
    · rintro ⟨⟨p, hp, _⟩, _⟩
      cases hp
  acceptances _ _ h := nomatch h
  engagements _ _ h := nomatch h
  breaches _ _ h := nomatch h

theorem Kept.step (h : Kept s) (hstep : Effect env s call s') : Kept s' := by
  have hext := step_extends h hstep
  cases hstep with
  | initialized =>
    exact ⟨h.numbered, h.cap, h.policies, h.latest, h.acceptances, h.engagement_extend hext, h.breaches⟩
  | published _ policy _ _ next cap hash =>
    refine ⟨?_, cap, ?_, latest_published h next, h.acceptance_extend hext, h.engagement_extend hext,
      h.breach_extend hext⟩
    · intro n
      change (∃ p, Function.update s.policy policy.version (some policy) n = some p) ↔
        1 ≤ n ∧ n ≤ policy.version
      by_cases hn : n = policy.version
      · rw [hn, Function.update_self]
        simp only [Option.some.injEq, exists_eq', true_iff]
        omega
      · rw [Function.update_of_ne hn, h.numbered]
        omega
    · exact forall_update_row h.policies rfl ⟨rfl, hash⟩
  | retired _ version policy _ _ found =>
    have hp : ∀ n, (∃ p, Function.update s.policy version (some { policy with retired := true }) n = some p) ↔
        ∃ p, s.policy n = some p := by
      intro n
      by_cases hn : n = version
      · rw [hn, Function.update_self, found]
        simp
      · rw [Function.update_of_ne hn]
    refine ⟨fun n => (hp n).trans (h.numbered n), h.cap, ?_, ?_, h.acceptance_extend hext,
      h.engagement_extend hext, h.breach_extend hext⟩
    · exact forall_update_row h.policies rfl (h.policies version policy found)
    · intro role n
      simp only [applies_retired found]
      exact h.latest role n
  | accepted a policy _ _ found _ applies hash =>
    refine ⟨h.numbered, h.cap, h.policies, h.latest, ?_, h.engagement_extend hext, h.breaches⟩
    exact forall_update_row h.acceptances rfl ⟨rfl, policy, found, hash.symm, applies⟩
  | repeated => exact h
  | created _ e parties named vacant _ _ pending =>
    refine ⟨h.numbered, h.cap, h.policies, h.latest, h.acceptances, ?_, h.breaches⟩
    refine forall_update_row (h.engagement_extend hext) rfl ⟨rfl, parties, ?_, ?_⟩
    · rintro (hstate | hstate) <;> rw [pending] at hstate <;> cases hstate
    · rintro (hstate | hstate) <;> rw [pending] at hstate <;> cases hstate
  | moved _ id before after found move =>
    refine ⟨h.numbered, h.cap, h.policies, h.latest, h.acceptances, ?_, h.breaches⟩
    exact forall_update_row (h.engagement_extend hext) rfl
      (hext.proper (move.proper h (h.engagements id before found)))
  | breached _ b policy _ evidence found =>
    refine ⟨h.numbered, h.cap, h.policies, h.latest, h.acceptances, h.engagement_extend hext, ?_⟩
    exact forall_update_row h.breaches rfl ⟨rfl, evidence, policy, found⟩
  | resolved _ ref b found =>
    refine ⟨h.numbered, h.cap, h.policies, h.latest, h.acceptances, h.engagement_extend hext, ?_⟩
    exact forall_update_row h.breaches rfl (h.breaches ref b found)

theorem run_kept (is : List (Input contract)) : Kept ((machine contract).run State.empty is) :=
  Machine.run_invariant kept_empty (fun _ _ _ _ h hstep => h.step (step_effect hstep)) is

theorem run_extends (h : Kept s) (is : List (Input contract)) : Extends s ((machine contract).run s is) :=
  Machine.run_relation .refl (fun _ _ _ => .trans) h
    (fun _ _ _ _ h hstep => h.step (step_effect hstep))
    (fun _ _ _ _ h hstep => step_extends h (step_effect hstep)) is

/-- Over every run, the policies are numbered from one without a gap, up to a thousand. Whatever is called
afterwards, the text, audience and dates of a policy stay, and only its retirement can be added. The latest
policy of a role is the last one published that applies to it, retired or not. -/
theorem policies_are_numbered_and_permanent (is js : List (Input contract)) :
    let s := (machine contract).run State.empty is
    s.policyVersion ≤ maxPolicyVersion ∧
      (∀ n, (∃ p, s.policy n = some p) ↔ 1 ≤ n ∧ n ≤ s.policyVersion) ∧
      (∀ n p, s.policy n = some p → p.version = n ∧ p.policyHash ≠ 0 ∧
        ∃ p', ((machine contract).run State.empty (is ++ js)).policy n = some p' ∧ p.SameText p' ∧
          (p.retired = true → p'.retired = true)) ∧
      ∀ role n, s.latestPolicy role = some n ↔
        Applies s.policy role n ∧ ∀ m, n < m → ¬Applies s.policy role m := by
  have hkept := run_kept is
  refine ⟨hkept.cap, hkept.numbered, ?_, hkept.latest⟩
  intro n p hp
  obtain ⟨hversion, hhash⟩ := hkept.policies n p hp
  rw [Machine.run_append]
  exact ⟨hversion, hhash, (run_extends hkept js).policies n p hp⟩

end Records

section Acceptances

variable {es : List (Step contract)}

/-- The stored acceptances are those that have been given, each while its policy stood. -/
structure Given (s : State) (es : List (Step contract)) : Prop where
  stored : ∀ e ∈ es, ∀ actor version role, e.input.call = .acceptPolicy actor version role →
    hasAccepted s actor version role = true ∧ e.input.env.signers actor = true
  given : ∀ key a, s.acceptance key = some a →
    ∃ e ∈ es, e.input.call = .acceptPolicy a.actor a.policyVersion a.role ∧
      e.input.env.timestamp = a.acceptedAt ∧
      ∃ p, e.pre.policy a.policyVersion = some p ∧ p.retired = false

theorem given_empty : Given State.empty ([] : List (Step contract)) where
  stored _ h := absurd h List.not_mem_nil
  given _ _ h := nomatch h

theorem Given.given_snoc (h : Given s es) (e : Step contract) (key : Address × Nat × Role)
    (a : Acceptance) (ha : s.acceptance key = some a) :
    ∃ x ∈ es ++ [e], x.input.call = .acceptPolicy a.actor a.policyVersion a.role ∧
      x.input.env.timestamp = a.acceptedAt ∧
      ∃ p, x.pre.policy a.policyVersion = some p ∧ p.retired = false := by
  obtain ⟨x, hx, hcall⟩ := h.given key a ha
  exact ⟨x, List.mem_append_left _ hx, hcall⟩

/-- An accepted call to accept a policy leaves its acceptance. -/
theorem accept_stored (hstep : Effect env s (.acceptPolicy actor version role) s') :
    hasAccepted s' actor version role = true ∧ env.signers actor = true := by
  cases hstep with
  | accepted a _ signed =>
    refine ⟨?_, signed⟩
    change (Function.update s.acceptance a.key (some a) a.key).isSome = true
    rw [Function.update_self]
    rfl
  | repeated _ _ _ signed had => exact ⟨had, signed⟩
  | moved _ _ _ _ _ move => cases move

theorem Given.stored_snoc (h : Given s es) (hext : Extends s s') (hstep : Effect i.env s i.call s') :
    ∀ e ∈ es ++ [⟨s, i, o, s'⟩], ∀ actor version role, e.input.call = .acceptPolicy actor version role →
      hasAccepted s' actor version role = true ∧ e.input.env.signers actor = true := by
  intro e he actor version role hcall
  rcases List.mem_append.mp he with hold | hnew
  · obtain ⟨haccepted, hsigned⟩ := h.stored e hold actor version role hcall
    exact ⟨hext.hasAccepted haccepted, hsigned⟩
  · rw [List.mem_singleton.mp hnew] at hcall ⊢
    change i.call = _ at hcall
    rw [hcall] at hstep
    exact accept_stored hstep

theorem Given.step (hkept : Kept s) (h : Given s es) (hstep : Effect i.env s i.call s') :
    Given s' (es ++ [⟨s, i, o, s'⟩]) := by
  refine ⟨h.stored_snoc (step_extends hkept hstep) hstep, ?_⟩
  obtain ⟨env, call⟩ := i
  cases hstep with
  | accepted a policy _ _ found live _ _ now =>
    intro key row hrow
    rcases update_row_cases hrow with ⟨_, rfl⟩ | ⟨_, hold⟩
    · exact ⟨_, List.mem_concat_self, rfl, now.symm, policy, found, live⟩
    · exact h.given_snoc _ key row hold
  | initialized => exact h.given_snoc _
  | published => exact h.given_snoc _
  | retired => exact h.given_snoc _
  | repeated => exact h.given_snoc _
  | created => exact h.given_snoc _
  | moved => exact h.given_snoc _
  | breached => exact h.given_snoc _
  | resolved => exact h.given_snoc _

theorem run_given (is : List (Input contract)) :
    Given ((machine contract).run State.empty is) ((machine contract).journal State.empty is) := by
  have hboth : Kept ((machine contract).run State.empty is) ∧
      Given ((machine contract).run State.empty is) ((machine contract).journal State.empty is) :=
    Machine.run_journal_invariant (P := fun s es => Kept s ∧ Given s es) ⟨kept_empty, given_empty⟩
      (fun _ _ _ _ _ h hstep => ⟨h.1.step (step_effect hstep), .step h.1 h.2 (step_effect hstep)⟩) is
  exact hboth.2

theorem verifyAcceptance_iff {hash : Bytes32} : verifyAcceptance s actor version role hash = true ↔
    ∃ a, s.acceptance (actor, version, role) = some a ∧ a.policyHash = hash := by
  unfold verifyAcceptance
  rcases hrow : s.acceptance (actor, version, role) with _ | a
  · simp
  · simp

/-- Over every run, an acceptance can be verified for a hash exactly when the actor has signed a call that
accepted that version in that role and the hash is the one that the version was published with. What can be
verified can be verified ever after, also once the policy is retired; and each acceptance was given, at the
time it states, while the policy was not retired. -/
theorem acceptances_prove_their_policy (is js : List (Input contract)) :
    let s := (machine contract).run State.empty is
    let lines := (machine contract).journal State.empty is
    (∀ actor version role hash, verifyAcceptance s actor version role hash = true ↔
      (∃ e ∈ lines, e.input.call = .acceptPolicy actor version role ∧ e.input.env.signers actor = true) ∧
        ∃ p, s.policy version = some p ∧ p.policyHash = hash) ∧
      (∀ actor version role hash, verifyAcceptance s actor version role hash = true →
        verifyAcceptance ((machine contract).run State.empty (is ++ js)) actor version role hash = true) ∧
      ∀ key a, s.acceptance key = some a →
        ∃ e ∈ lines, e.input.call = .acceptPolicy a.actor a.policyVersion a.role ∧
          e.input.env.timestamp = a.acceptedAt ∧
          ∃ p, e.pre.policy a.policyVersion = some p ∧ p.retired = false := by
  have hkept := run_kept is
  have hgiven := run_given is
  refine ⟨?_, ?_, hgiven.given⟩
  · intro actor version role hash
    rw [verifyAcceptance_iff]
    constructor
    · rintro ⟨a, ha, rfl⟩
      obtain ⟨hkey, p, hp, hhash, _⟩ := hkept.acceptances _ a ha
      obtain ⟨e, he, hcall, _⟩ := hgiven.given _ a ha
      cases hkey
      exact ⟨⟨e, he, hcall, (hgiven.stored e he _ _ _ hcall).2⟩, p, hp, hhash⟩
    · rintro ⟨⟨e, he, hcall, _⟩, p, hp, rfl⟩
      obtain ⟨a, ha⟩ := Option.isSome_iff_exists.mp (hgiven.stored e he _ _ _ hcall).1
      obtain ⟨hkey, p', hp', hhash, _⟩ := hkept.acceptances _ a ha
      cases hkey
      obtain rfl : p = p' := Option.some.inj (hp.symm.trans hp')
      exact ⟨a, ha, hhash.symm⟩
  · intro actor version role hash h
    obtain ⟨a, ha, hhash⟩ := verifyAcceptance_iff.mp h
    rw [Machine.run_append]
    exact verifyAcceptance_iff.mpr ⟨a, (run_extends hkept js).acceptances _ a ha, hhash⟩

end Acceptances

section Compliance

/-- The calls that take compliance away from an engagement. -/
def Loses (s : State) (id : Bytes32) : Call → Prop
  | .publishPolicy _ _ _ _ mandatory => mandatory = true
  | .retirePolicy _ version => s.latestPolicy .mentor = some version ∨ s.latestPolicy .mentee = some version
  | .suspendEngagement _ x | .endEngagement _ x => x = id
  | _ => False

/-- An active engagement both of whose parties are up to date. -/
def Compliant (s : State) (id : Bytes32) (e : Engagement) : Prop :=
  s.engagement id = some e ∧ e.state = .active ∧ (∃ v, Current s e.mentor .mentor v) ∧
    ∃ v, Current s e.mentee .mentee v

/-- An actor stays current as long as the latest policy of the role does. -/
theorem Current.keep (h : Current s actor role version) (hlatest : s'.latestPolicy role = s.latestPolicy role)
    (hpolicy : ∀ n, s.latestPolicy role = some n → s'.policy n = s.policy n)
    (haccepted : ∀ n, hasAccepted s actor n role = true → hasAccepted s' actor n role = true) :
    Current s' actor role version := by
  obtain ⟨p, stored, hstored, hp, hlive, hmandatory, hversion⟩ := h
  refine ⟨p, stored, hlatest.trans hstored, (hpolicy stored hstored).trans hp, hlive, ?_, hversion⟩
  exact fun hmust => haccepted _ (hmandatory hmust)

theorem Compliant.frame {e : Engagement} (h : Compliant s id e) (hext : Extends s s')
    (hengagement : s'.engagement id = s.engagement id) (hlatest : s'.latestPolicy = s.latestPolicy)
    (hpolicy : s'.policy = s.policy) : Compliant s' id e := by
  obtain ⟨hfound, hactive, ⟨v, hmentor⟩, w, hmentee⟩ := h
  refine ⟨hengagement.trans hfound, hactive, ⟨v, ?_⟩, w, ?_⟩
  · exact hmentor.keep (by rw [hlatest]) (fun _ _ => by rw [hpolicy]) fun _ => hext.hasAccepted
  · exact hmentee.keep (by rw [hlatest]) (fun _ _ => by rw [hpolicy]) fun _ => hext.hasAccepted

/-- Nobody has accepted a version that is not published yet. -/
theorem Kept.not_accepted (h : Kept s) (hlate : s.policyVersion < version) :
    hasAccepted s actor version role = false := by
  rcases hrow : s.acceptance (actor, version, role) with _ | a
  · rw [hasAccepted, hrow]
    rfl
  · obtain ⟨hkey, p, hp, _⟩ := h.acceptances _ a hrow
    cases hkey
    rw [h.no_policy hlate] at hp
    cases hp

section Publication

variable {policy : Policy}

/-- The store after a publication. -/
def State.publish (s : State) (policy : Policy) : State :=
  { savePolicy s policy with
    policyVersion := policy.version
    latestPolicy := recordLatest s.latestPolicy policy }

/-- A new mandatory policy is not accepted yet by anybody it applies to. -/
theorem not_current_published (h : Kept s) (next : policy.version = s.policyVersion + 1)
    (happlies : policy.audience.appliesTo role = true) (hmandatory : policy.mandatory = true) :
    ¬Current (s.publish policy) actor role version := by
  rintro ⟨p, stored, hlatest, hp, _, haccepted, _⟩
  have hstored : stored = policy.version := by
    change recordLatest s.latestPolicy policy role = some stored at hlatest
    rw [recordLatest, if_pos happlies] at hlatest
    exact (Option.some.inj hlatest).symm
  have hsame : p = policy := by
    change Function.update s.policy policy.version (some policy) stored = some p at hp
    rw [hstored, Function.update_self] at hp
    exact (Option.some.inj hp).symm
  rw [hsame] at haccepted
  have hnone : hasAccepted s actor policy.version role = false := h.not_accepted (by omega)
  have had := haccepted hmandatory
  change hasAccepted s actor policy.version role = true at had
  rw [hnone] at had
  cases had

/-- A new policy that is not mandatory makes everybody it applies to current, and leaves the others. -/
theorem current_published (h : Kept s) (next : policy.version = s.policyVersion + 1)
    (live : policy.retired = false) (hmandatory : policy.mandatory = false)
    (hcurrent : Current s actor role version) : ∃ v, Current (s.publish policy) actor role v := by
  by_cases happlies : policy.audience.appliesTo role = true
  · refine ⟨policy.version, policy, policy.version, ?_, Function.update_self _ _ _, live, ?_, rfl⟩
    · exact if_pos happlies
    · intro hmust
      rw [hmandatory] at hmust
      cases hmust
  · refine ⟨version, hcurrent.keep (if_neg happlies) ?_ fun _ => id⟩
    intro n hn
    obtain ⟨⟨p, hp, _⟩, _⟩ := (h.latest role n).mp hn
    have hbound := ((h.numbered n).mp ⟨p, hp⟩).2
    exact Function.update_of_ne (by omega) _ _

/-- A mandatory policy applies to one of the roles. -/
theorem Audience.applies_some (a : Audience) : a.appliesTo .mentor = true ∨ a.appliesTo .mentee = true := by
  cases a <;> decide

end Publication

section Retirement

variable {policy : Policy}

/-- The store after a retirement. -/
def State.retire (s : State) (version : Nat) (policy : Policy) : State :=
  { s with policy := Function.update s.policy version (some { policy with retired := true }) }

theorem not_current_retired {v : Nat} (hlatest : s.latestPolicy role = some version) :
    ¬Current (s.retire version policy) actor role v := by
  rintro ⟨p, stored, hstored, hp, hlive, _⟩
  change s.latestPolicy role = some stored at hstored
  change Function.update s.policy version (some { policy with retired := true }) stored = some p at hp
  obtain rfl : stored = version := Option.some.inj (hstored.symm.trans hlatest)
  rw [Function.update_self, Option.some.injEq] at hp
  rw [← hp] at hlive
  cases hlive

theorem current_retired {v : Nat} (hlatest : s.latestPolicy role ≠ some version)
    (hcurrent : Current s actor role v) : Current (s.retire version policy) actor role v := by
  refine hcurrent.keep rfl ?_ fun _ => id
  intro n hn
  refine Function.update_of_ne ?_ _ _
  rintro rfl
  exact hlatest hn

end Retirement

theorem compliant_iff : engagementCompliant s id = true ↔ ∃ e, Compliant s id e := engagementCompliant_iff

theorem not_compliant_iff : engagementCompliant s id = false ↔ ∀ e, ¬Compliant s id e := by
  rw [← Bool.not_eq_true, compliant_iff, not_exists]

theorem compliant_published {policy : Policy} {e : Engagement} (h : Kept s)
    (next : policy.version = s.policyVersion + 1) (live : policy.retired = false) (hpre : Compliant s id e) :
    engagementCompliant (s.publish policy) id = false ↔ policy.mandatory = true := by
  obtain ⟨hfound, hactive, ⟨v, hmentor⟩, w, hmentee⟩ := hpre
  rw [not_compliant_iff]
  constructor
  · intro hlost
    by_contra hmandatory
    have hfree : policy.mandatory = false := Bool.eq_false_of_not_eq_true hmandatory
    exact hlost e ⟨hfound, hactive, current_published h next live hfree hmentor,
      current_published h next live hfree hmentee⟩
  · rintro hmandatory e' ⟨_, _, ⟨v', hmentor'⟩, w', hmentee'⟩
    rcases policy.audience.applies_some with happlies | happlies
    · exact not_current_published h next happlies hmandatory hmentor'
    · exact not_current_published h next happlies hmandatory hmentee'

theorem compliant_retired {policy : Policy} {e : Engagement} (hpre : Compliant s id e) :
    engagementCompliant (s.retire version policy) id = false ↔
      s.latestPolicy .mentor = some version ∨ s.latestPolicy .mentee = some version := by
  obtain ⟨hfound, hactive, ⟨v, hmentor⟩, w, hmentee⟩ := hpre
  rw [not_compliant_iff]
  constructor
  · intro hlost
    by_contra hkept
    rw [not_or] at hkept
    exact hlost e ⟨hfound, hactive, ⟨v, current_retired hkept.1 hmentor⟩,
      w, current_retired hkept.2 hmentee⟩
  · rintro hlatest e' ⟨_, _, ⟨v', hmentor'⟩, w', hmentee'⟩
    rcases hlatest with hlatest | hlatest
    · exact not_current_retired hlatest hmentor'
    · exact not_current_retired hlatest hmentee'

/-- Only a suspension and an end change an active engagement. -/
theorem Move.leaves {before after : Engagement} (hmove : Move env s id call before after)
    (hactive : before.state = .active) : after.state ≠ .active ∧ ∀ x, Loses s x call ↔ id = x := by
  cases hmove with
  | activated _ _ _ _ _ _ pending =>
    rw [hactive] at pending
    cases pending
  | suspended => exact ⟨nofun, fun _ => Iff.rfl⟩
  | resumed _ _ _ _ _ _ suspended =>
    rw [hactive] at suspended
    cases suspended
  | ended => exact ⟨nofun, fun _ => Iff.rfl⟩

/-- A move of another engagement takes nothing away. -/
theorem Move.spares {before after : Engagement} {other : Bytes32} (hmove : Move env s other call before after)
    (hother : other ≠ id) : ¬Loses s id call := by
  cases hmove with
  | activated => exact nofun
  | suspended => exact hother
  | resumed => exact nofun
  | ended => exact hother

theorem compliant_step {e : Engagement} (h : Kept s) (hstep : Effect env s call s') (hpre : Compliant s id e) :
    engagementCompliant s' id = false ↔ Loses s id call := by
  have hext := step_extends h hstep
  have hstays : Compliant s' id e → ¬Loses s id call → (engagementCompliant s' id = false ↔ Loses s id call) := by
    intro hcompliant hspared
    refine iff_of_false ?_ hspared
    rw [compliant_iff.mpr ⟨e, hcompliant⟩]
    exact nofun
  cases hstep with
  | initialized => exact hstays (hpre.frame hext rfl rfl rfl) nofun
  | published _ policy _ _ next _ _ live => exact compliant_published h next live hpre
  | retired => exact compliant_retired hpre
  | accepted => exact hstays (hpre.frame hext rfl rfl rfl) nofun
  | repeated => exact hstays hpre nofun
  | created _ e' _ _ vacant =>
    refine hstays (hpre.frame hext ?_ rfl rfl) nofun
    refine Function.update_of_ne ?_ _ _
    rintro rfl
    rw [hpre.1] at vacant
    cases vacant
  | moved call other before after found move =>
    by_cases hsame : other = id
    · subst hsame
      obtain rfl : before = e := Option.some.inj (found.symm.trans hpre.1)
      obtain ⟨hleft, hloses⟩ := move.leaves hpre.2.1
      refine iff_of_true ?_ ((hloses other).mpr rfl)
      rw [not_compliant_iff]
      rintro e' ⟨hfound, hactive, _⟩
      change Function.update s.engagement other (some after) other = some e' at hfound
      rw [Function.update_self, Option.some.injEq] at hfound
      rw [hfound] at hleft
      exact hleft hactive
    · refine hstays (hpre.frame hext ?_ rfl rfl) (move.spares hsame)
      exact Function.update_of_ne (Ne.symm hsame) _ _
  | breached => exact hstays (hpre.frame hext rfl rfl rfl) nofun
  | resolved => exact hstays (hpre.frame hext rfl rfl rfl) nofun

/-- The administrator `⟨1⟩` publishes a mandatory policy, which the mentor `⟨2⟩` and the mentee `⟨3⟩` accept
before they activate their engagement. -/
def sampleActive : List (Input ⟨0⟩) :=
  [⟨.sample, .initializeContract ⟨1⟩⟩, ⟨.sample, .publishPolicy ⟨1⟩ .both 5 10 true⟩,
    ⟨.sample, .acceptPolicy ⟨2⟩ 1 .mentor⟩, ⟨.sample, .acceptPolicy ⟨3⟩ 1 .mentee⟩,
    ⟨.sample, .createEngagement ⟨2⟩ 9 ⟨2⟩ ⟨3⟩⟩, ⟨.sample, .activateEngagement ⟨3⟩ 9⟩]

/-- Over every run, an engagement that is compliant stops being so with exactly these calls: the publication
of a mandatory policy, for whatever audience, the retirement of the latest policy of one of the two roles,
its own suspension and its own end. As long as none of them comes, it stays compliant. -/
theorem compliance_is_lost_only_to (is js : List (Input contract)) (id : Bytes32) :
    (∀ e ∈ (machine contract).journal State.empty is, engagementCompliant e.pre id = true →
      (engagementCompliant e.post id = false ↔ Loses e.pre id e.input.call)) ∧
      (engagementCompliant ((machine contract).run State.empty is) id = true →
        (∀ e ∈ (machine contract).journal ((machine contract).run State.empty is) js,
          ¬Loses e.pre id e.input.call) →
        engagementCompliant ((machine contract).run State.empty (is ++ js)) id = true) := by
  refine ⟨?_, ?_⟩
  · intro e he hpre
    obtain ⟨x, hx⟩ := compliant_iff.mp hpre
    obtain ⟨hstep, _⟩ := Machine.journal_step he
    exact compliant_step (Machine.journal_found run_kept he) (step_effect hstep) hx
  · intro hpre hspared
    rw [Machine.run_append]
    have hboth : Kept ((machine contract).run ((machine contract).run State.empty is) js) ∧
        engagementCompliant ((machine contract).run ((machine contract).run State.empty is) js) id = true := by
      apply Machine.run_journal_invariant_on (P := fun s _ => Kept s ∧ engagementCompliant s id = true)
        ⟨run_kept is, hpre⟩ _ hspared
      rintro _ s i o s' hline ⟨hkept, hcompliant⟩ hstep
      obtain ⟨x, hx⟩ := compliant_iff.mp hcompliant
      refine ⟨hkept.step (step_effect hstep), ?_⟩
      by_contra hlost
      have hfalse := Bool.eq_false_of_not_eq_true hlost
      exact hline ((compliant_step hkept (step_effect hstep) hx).mp hfalse)
    exact hboth.2

example :
    engagementCompliant ((machine ⟨0⟩).run State.empty sampleActive) 9 = true ∧
      engagementCompliant ((machine ⟨0⟩).run State.empty
        (sampleActive ++ [⟨.sampleLater, .publishPolicy ⟨1⟩ .mentee 6 20 true⟩])) 9 = false := by
  decide

end Compliance

section Lifecycle

/-- The engagement that a call makes active. -/
def Call.activates : Call → Option Bytes32
  | .activateEngagement _ id | .resumeEngagement _ id => some id
  | _ => none

/-- What cannot change about an engagement. -/
structure Engagement.Later (e e' : Engagement) : Prop where
  named : e'.id = e.id
  mentor : e'.mentor = e.mentor
  mentee : e'.mentee = e.mentee
  created : e'.createdAt = e.createdAt
  begun : e.state ≠ .pending → e'.state ≠ .pending
  ended : e.state = .ended → e' = e

theorem Engagement.Later.refl (e : Engagement) : e.Later e := ⟨rfl, rfl, rfl, rfl, fun h => h, fun _ => rfl⟩

theorem Engagement.Later.trans {e e' e'' : Engagement} (h : e.Later e') (h' : e'.Later e'') : e.Later e'' where
  named := h'.named.trans h.named
  mentor := h'.mentor.trans h.mentor
  mentee := h'.mentee.trans h.mentee
  created := h'.created.trans h.created
  begun hbegun := h'.begun (h.begun hbegun)
  ended hended := by
    have hsame := h.ended hended
    rw [h'.ended (hsame ▸ hended), hsame]

theorem Move.later {before after : Engagement} (hmove : Move env s id call before after) :
    before.Later after := by
  cases hmove with
  | activated _ _ _ _ _ _ pending =>
    refine ⟨rfl, rfl, rfl, rfl, fun _ => nofun, ?_⟩
    intro hended
    rw [pending] at hended
    cases hended
  | suspended _ _ _ _ active =>
    refine ⟨rfl, rfl, rfl, rfl, fun _ => nofun, ?_⟩
    intro hended
    rw [active] at hended
    cases hended
  | resumed _ _ _ _ _ _ suspended =>
    refine ⟨rfl, rfl, rfl, rfl, fun _ => nofun, ?_⟩
    intro hended
    rw [suspended] at hended
    cases hended
  | ended _ _ _ _ open_ => exact ⟨rfl, rfl, rfl, rfl, fun _ => nofun, fun hended => absurd hended open_⟩

/-- What an accepted call does to an engagement: nothing, its creation, or one of the moves. -/
inductive Turn (env : Env contract) (s : State) (id : Bytes32) (call : Call) :
    Option Engagement → Option Engagement → Prop where
  | kept (row : Option Engagement) : Turn env s id call row row
  | created (e : Engagement) (named : e.id = id) (pending : e.state = .pending)
      (signedMentor : env.signers e.mentor = true) (signedMentee : env.signers e.mentee = true) :
      Turn env s id call none (some e)
  | moved (before after : Engagement) (move : Move env s id call before after) :
      Turn env s id call (some before) (some after)

theorem step_turn (hstep : Effect env s call s') (id : Bytes32) :
    Turn env s id call (s.engagement id) (s'.engagement id) := by
  cases hstep with
  | initialized => exact .kept _
  | published => exact .kept _
  | retired => exact .kept _
  | accepted => exact .kept _
  | repeated => exact .kept _
  | created _ e _ _ vacant signedMentor signedMentee pending =>
    change Turn env s id _ (s.engagement id) (Function.update s.engagement e.id (some e) id)
    by_cases hid : id = e.id
    · rw [hid, vacant, Function.update_self]
      exact .created e rfl pending signedMentor signedMentee
    · rw [Function.update_of_ne hid]
      exact .kept _
  | moved _ other before after found move =>
    change Turn env s id _ (s.engagement id) (Function.update s.engagement other (some after) id)
    by_cases hid : id = other
    · rw [hid, found, Function.update_self]
      exact .moved before after move
    · rw [Function.update_of_ne hid]
      exact .kept _
  | breached => exact .kept _
  | resolved => exact .kept _

/-- Engagements go on from where they stand. -/
def Continues (s s' : State) : Prop :=
  ∀ id e, s.engagement id = some e → ∃ e', s'.engagement id = some e' ∧ e.Later e'

theorem step_continues (hstep : Effect env s call s') : Continues s s' := by
  intro id e he
  have hturn := step_turn hstep id
  rw [he] at hturn
  generalize hafter : s'.engagement id = row at hturn
  cases hturn with
  | kept => exact ⟨e, rfl, .refl e⟩
  | moved _ after move => exact ⟨after, rfl, move.later⟩

theorem run_continues (s : State) (is : List (Input contract)) :
    Continues s ((machine contract).run s is) := by
  apply @Machine.run_relation _ _ _ _ _ (fun _ => True) Continues _ _ _ trivial (fun _ _ _ _ _ _ => trivial)
    (fun _ _ _ _ _ hstep => step_continues (step_effect hstep)) is
  · exact fun s id e he => ⟨e, he, .refl e⟩
  · intro a b c hab hbc id e he
    obtain ⟨e', he', hlater⟩ := hab id e he
    obtain ⟨e'', he'', hlater'⟩ := hbc id e' he'
    exact ⟨e'', he'', hlater.trans hlater'⟩

/-- Over every run, an engagement comes into being as pending, with the signatures of both of its parties,
and is changed by nothing but the four moves: one of its parties activates it when it is pending, resumes it
when it is suspended or ends it, and the administrator suspends it when it is active. Its parties stay, it
is never pending again, and once ended it stays as it is. -/
theorem engagements_follow_their_lifecycle (is js : List (Input contract)) :
    (∀ e ∈ (machine contract).journal State.empty is, ∀ id,
      Turn e.input.env e.pre id e.input.call (e.pre.engagement id) (e.post.engagement id)) ∧
      ∀ id e, ((machine contract).run State.empty is).engagement id = some e →
        ∃ e', ((machine contract).run State.empty (is ++ js)).engagement id = some e' ∧ e.Later e' := by
  refine ⟨?_, ?_⟩
  · intro e he id
    obtain ⟨hstep, _⟩ := Machine.journal_step he
    exact step_turn (step_effect hstep) id
  · rw [Machine.run_append]
    exact run_continues _ js

/-- An engagement that is made active is compliant. -/
theorem activates_compliant (hstep : Effect env s call s') (hactivates : call.activates = some id) :
    ∃ before after, s.engagement id = some before ∧ Move env s id call before after ∧
      Compliant s' id after := by
  cases hstep with
  | moved _ other before after found move =>
    cases move with
    | activated caller _ mentorVersion menteeVersion party signed pending mentor mentee =>
      cases hactivates
      exact ⟨before, _, found, .activated caller before mentorVersion menteeVersion party signed pending
        mentor mentee, Function.update_self _ _ _, rfl, ⟨mentorVersion, mentor⟩, menteeVersion, mentee⟩
    | suspended => cases hactivates
    | resumed caller _ mentorVersion menteeVersion party signed suspended mentor mentee =>
      cases hactivates
      exact ⟨before, _, found, .resumed caller before mentorVersion menteeVersion party signed suspended
        mentor mentee, Function.update_self _ _ _, rfl, ⟨mentorVersion, mentor⟩, menteeVersion, mentee⟩
    | ended => cases hactivates
  | initialized => cases hactivates
  | published => cases hactivates
  | retired => cases hactivates
  | accepted => cases hactivates
  | repeated => cases hactivates
  | created => cases hactivates
  | breached => cases hactivates
  | resolved => cases hactivates

/-- Over every run, an engagement is compliant after each call that activates or resumes it, and in every
state that is reached, the policy version that stands recorded for a party of an active or suspended
engagement applies to the party's role and is accepted by the party in that role if it is mandatory. -/
theorem engagements_pass_the_gate (is : List (Input contract)) :
    (∀ e ∈ (machine contract).journal State.empty is, ∀ id, e.input.call.activates = some id →
      engagementCompliant e.post id = true) ∧
      ∀ id e, ((machine contract).run State.empty is).engagement id = some e →
        e.state = .active ∨ e.state = .suspended →
          Passed ((machine contract).run State.empty is) e.mentor .mentor e.mentorPolicyVersion ∧
            Passed ((machine contract).run State.empty is) e.mentee .mentee e.menteePolicyVersion := by
  refine ⟨?_, ?_⟩
  · intro e he id hactivates
    obtain ⟨hstep, _⟩ := Machine.journal_step he
    obtain ⟨_, after, _, _, hcompliant⟩ := activates_compliant (step_effect hstep) hactivates
    exact compliant_iff.mpr ⟨after, hcompliant⟩
  · intro id e he hstate
    have hproper := (run_kept is).engagements id e he
    exact ⟨hproper.mentor hstate, hproper.mentee hstate⟩

end Lifecycle

end ChainVerse.MentorshipConduct
