import ChainVerse.Decisions.Records
import ChainVerse.Framework.Listings
import Mathlib.Data.List.Chain

namespace ChainVerse.MentorshipApplications

variable {contract : Address} {crypto : Crypto} {env : Env contract} {s s' : State}
  {es : List (Step contract)}

section Quantities

/-- The applicant and the program of an application. -/
def Application.party (application : Application) : Address × Bytes32 :=
  (application.applicant, application.programId)

/-- Whose application, in which program, is stored under an id. -/
def State.party (s : State) (id : Bytes32) : Option (Address × Bytes32) :=
  (s.application id).map Application.party

/-- The application of a party that an accepted call has added. -/
def handedIn (party : Address × Bytes32) (e : Step contract) : Option Bytes32 :=
  match e.output with
  | .application id =>
    if e.pre.party id = none ∧ e.post.party id = some party then some id else none
  | _ => none

/-- The applications that a party has handed in, in order. -/
def attempts (party : Address × Bytes32) (es : List (Step contract)) : List Bytes32 :=
  es.filterMap (handedIn party)

/-- The party that `open_application` is called for. -/
def openedFor (e : Step contract) : Option (Address × Bytes32) :=
  match e.input.call with
  | .openApplication applicant programId _ => some (applicant, programId)
  | _ => none

def Call.setsPolicy : Call → Bool
  | .setProgramPolicy _ _ _ => true
  | _ => false

/-- The first application was closed, and the cooldown had passed, when the second was handed in. -/
def Apart (s : State) (rules : ProgramPolicy) (first second : Bytes32) : Prop :=
  ∃ x y, s.application first = some x ∧ s.application second = some y ∧ x.status.isFinal = true ∧
    x.closedAt + rules.reapplyCooldown ≤ y.submittedAt

/-- The ledger times of the calls never decrease. -/
def InOrder (es : List (Step contract)) : Prop :=
  (es.map fun e => e.input.env.timestamp).Pairwise (· ≤ ·)

instance : Decidable (InOrder es) := inferInstanceAs (Decidable (List.Pairwise _ _))

end Quantities

/-- Every party's applications form one chain of attempts, of which the newest alone has no
successor. -/
structure Chained (policy : Bytes32 → Option ProgramPolicy) (s : State)
    (es : List (Step contract)) : Prop where
  policies : s.policy = policy
  listed : Listed (fun party => attempts party es) s.party
  opened : ∀ id party, s.party id = some party → party ∈ es.filterMap openedFor
  linked : ∀ id, s.application id = none → s.reappliedFrom id = none
  newest : ∀ id application, s.application id = some application → s.reappliedFrom id = none →
    (attempts application.party es).getLast? = some id ∧
      application.attempt = (attempts application.party es).length
  within : ∀ party rules, policy party.2 = some rules → rules.maxAttempts ≠ 0 →
    (attempts party es).length ≤ rules.maxAttempts
  apart : ∀ party rules, policy party.2 = some rules →
    (attempts party es).IsChain (Apart s rules)
  closed : ∀ id application, s.application id = some application →
    application.closedAt = 0 ∨ ∃ e ∈ es, application.closedAt = e.input.env.timestamp

section Chains

theorem chained_configured {admin : Option Address} {coordinator : Address → Bool}
    {policy : Bytes32 → Option ProgramPolicy} :
    Chained policy (State.configured admin coordinator policy) ([] : List (Step contract)) where
  policies := rfl
  listed := listed_empty
  opened _ _ h := by cases h
  linked _ _ := rfl
  newest _ _ h := by cases h
  within _ _ _ _ := Nat.zero_le _
  apart _ _ _ := List.IsChain.nil
  closed _ _ h := by cases h

theorem attempts_snoc (party : Address × Bytes32) (e : Step contract) :
    attempts party (es ++ [e]) = attempts party es ++ (handedIn party e).toList :=
  filterMap_snoc e

theorem party_eq_none {id : Bytes32} : s.party id = none ↔ s.application id = none := by
  simp [State.party]

theorem party_update {id : Bytes32} {application : Application}
    (h : s'.application = Function.update s.application id (some application)) :
    s'.party = Function.update s.party id (some application.party) := by
  funext x
  unfold State.party
  rw [h]
  by_cases hx : x = id
  · rw [hx, Function.update_self, Function.update_self, Option.map_some]
  · rw [Function.update_of_ne hx, Function.update_of_ne hx]

/-- What has come apart stays so. -/
theorem Apart.grows {rules : ProgramPolicy} {first second : Bytes32} (h : Apart s rules first second)
    (hgrows : Grows s s') : Apart s' rules first second := by
  obtain ⟨x, y, hx, hy, hfinal, hcooled⟩ := h
  obtain ⟨x', hx', hxbecomes⟩ := hgrows.rows first x hx
  obtain ⟨y', hy', hybecomes⟩ := hgrows.rows second y hy
  rw [hxbecomes.final hfinal] at hx'
  refine ⟨x, y', hx', hy', hfinal, ?_⟩
  rw [hybecomes.submittedAt]
  exact hcooled

theorem Chained.closed_snoc (hs : Chained policy s es) (e : Step contract) :
    ∀ id application, s.application id = some application → application.closedAt = 0 ∨
      ∃ e' ∈ es ++ [e], application.closedAt = e'.input.env.timestamp := by
  intro id application hstored
  rcases hs.closed id application hstored with hopen | ⟨e', he', htime⟩
  · exact .inl hopen
  · exact .inr ⟨e', List.mem_append_left _ he', htime⟩

/-- A call that adds no application and leaves the parties and the links keeps the chains. -/
theorem Chained.keep {policy : Bytes32 → Option ProgramPolicy} (hs : Chained policy s es)
    {e : Step contract} (hgrows : Grows s s') (hpolicy : s'.policy = s.policy)
    (hparty : s'.party = s.party) (hlinks : s'.reappliedFrom = s.reappliedFrom)
    (hattempt : ∀ id new, s'.application id = some new →
      ∃ old, s.application id = some old ∧ new.attempt = old.attempt)
    (hnone : ∀ party, handedIn party e = none)
    (hclosed : ∀ id application, s'.application id = some application → application.closedAt = 0 ∨
      ∃ e' ∈ es ++ [e], application.closedAt = e'.input.env.timestamp) :
    Chained policy s' (es ++ [e]) := by
  have hsame : ∀ party, attempts party (es ++ [e]) = attempts party es := by
    intro party
    rw [attempts_snoc, hnone, Option.toList_none, List.append_nil]
  refine ⟨hpolicy.trans hs.policies, ?_, ?_, ?_, ?_, ?_, ?_, hclosed⟩
  · simp only [hsame, hparty]
    exact hs.listed
  · intro id party hid
    rw [hparty] at hid
    rw [List.filterMap_append]
    exact List.mem_append_left _ (hs.opened id party hid)
  · intro id hid
    rw [← party_eq_none, hparty, party_eq_none] at hid
    rw [hlinks]
    exact hs.linked id hid
  · intro id new hnew hunlinked
    obtain ⟨old, hold, hattempts⟩ := hattempt id new hnew
    have hsameparty : new.party = old.party := by
      have hparties := congrFun hparty id
      rw [State.party, State.party, hnew, hold] at hparties
      exact Option.some.inj hparties
    rw [hlinks] at hunlinked
    rw [hsame, hsameparty, hattempts]
    exact hs.newest id old hold hunlinked
  · intro party rules hrules hbounded
    rw [hsame]
    exact hs.within party rules hrules hbounded
  · intro party rules hrules
    rw [hsame]
    exact (hs.apart party rules hrules).imp fun _ _ h => h.grows hgrows

/-- What a new application adds to the chains: it is the party's first, or it succeeds the newest one
after the cooldown and within the bound. -/
theorem Chained.enter {policy : Bytes32 → Option ProgramPolicy} (hs : Chained policy s es)
    {e : Step contract} {id : Bytes32} {application : Application} (hgrows : Grows s s')
    (hnew : s.application id = none)
    (happlication : s'.application = Function.update s.application id (some application))
    (hpolicy : s'.policy = s.policy) (hpending : application.closedAt = 0)
    (hhanded : ∀ party, handedIn party e = if party = application.party then some id else none)
    (hopened : application.party ∈ (es ++ [e]).filterMap openedFor)
    (hattempt : application.attempt = (attempts application.party es).length + 1)
    (hwithin : ∀ rules, policy application.programId = some rules → rules.maxAttempts ≠ 0 →
      application.attempt ≤ rules.maxAttempts)
    (hapart : ∀ rules, policy application.programId = some rules →
      ∀ x ∈ (attempts application.party es).getLast?, Apart s' rules x id)
    (hlinks : ∀ x, x ≠ id → s'.reappliedFrom x = none → s.reappliedFrom x = none ∧
      ∀ row, s.application x = some row → row.party ≠ application.party)
    (hlinked : ∀ x, s'.application x = none → s'.reappliedFrom x = none) :
    Chained policy s' (es ++ [e]) := by
  have hparty := party_update happlication
  have hself : attempts application.party (es ++ [e]) = attempts application.party es ++ [id] := by
    rw [attempts_snoc, hhanded, if_pos rfl, Option.toList_some]
  have hothers : ∀ party, party ≠ application.party →
      attempts party (es ++ [e]) = attempts party es := by
    intro party hne
    rw [attempts_snoc, hhanded, if_neg hne, Option.toList_none, List.append_nil]
  have hlists : (fun party => attempts party (es ++ [e])) =
      Function.update (fun party => attempts party es) application.party
        (attempts application.party es ++ [id]) := by
    funext party
    by_cases hp : party = application.party
    · rw [hp, Function.update_self, hself]
    · rw [Function.update_of_ne hp, hothers party hp]
  refine ⟨hpolicy.trans hs.policies, ?_, ?_, hlinked, ?_, ?_, ?_, ?_⟩
  · rw [hlists, hparty]
    exact hs.listed.append (party_eq_none.mpr hnew) application.party
  · intro x party hx
    rw [hparty] at hx
    rcases update_row_cases hx with ⟨_, rfl⟩ | ⟨_, hold⟩
    · exact hopened
    · rw [List.filterMap_append]
      exact List.mem_append_left _ (hs.opened x party hold)
  · intro x row hrow hunlinked
    rw [happlication] at hrow
    rcases update_row_cases hrow with ⟨rfl, rfl⟩ | ⟨hx, hold⟩
    · rw [hself, List.getLast?_append_of_ne_nil _ (List.cons_ne_nil _ _)]
      refine ⟨rfl, ?_⟩
      rw [hattempt, List.length_append, List.length_singleton]
    · obtain ⟨hbefore, hapartfrom⟩ := hlinks x hx hunlinked
      rw [hothers _ (hapartfrom row hold)]
      exact hs.newest x row hold hbefore
  · intro party rules hrules hbounded
    by_cases hp : party = application.party
    · rw [hp] at hrules ⊢
      rw [hself, List.length_append, List.length_singleton, ← hattempt]
      exact hwithin rules hrules hbounded
    · rw [hothers party hp]
      exact hs.within party rules hrules hbounded
  · intro party rules hrules
    by_cases hp : party = application.party
    · rw [hp] at hrules ⊢
      rw [hself]
      apply ((hs.apart _ rules hrules).imp fun _ _ h => h.grows hgrows).append
        (List.IsChain.singleton id)
      intro x hx y hy
      rw [List.head?_cons, Option.mem_some_iff] at hy
      rw [← hy]
      exact hapart rules hrules x hx
    · rw [hothers party hp]
      exact (hs.apart party rules hrules).imp fun _ _ h => h.grows hgrows
  · exact forall_update_row (hs.closed_snoc e) happlication (.inl hpending)

theorem handedIn_none {party : Address × Bytes32} {e : Step contract}
    (h : e.post.party = e.pre.party) : handedIn party e = none := by
  unfold handedIn
  split
  · rw [h, if_neg]
    intro hboth
    rw [hboth.1] at hboth
    cases hboth.2
  · rfl

theorem handedIn_new {i : Input contract} {id : Bytes32} {application : Application}
    (hnew : s.application id = none)
    (happlication : s'.application = Function.update s.application id (some application))
    (party : Address × Bytes32) :
    handedIn party (⟨s, i, .application id, s'⟩ : Step contract) =
      if party = application.party then some id else none := by
  have hparty : s'.party id = some application.party := by
    rw [party_update happlication, Function.update_self]
  simp only [handedIn, hparty, party_eq_none.mpr hnew, Option.some.injEq, true_and, eq_comm]

theorem Effect.sets_policy {i : Input contract} {o : Answer} (h : Effect crypto i.env s i.call o s')
    (hcall : i.call.setsPolicy = false) : s'.policy = s.policy := by
  obtain ⟨env, call⟩ := i
  cases h with
  | configure => cases hcall
  | appoint => rfl
  | coordinate => rfl
  | submit => rfl
  | reapply => rfl
  | resolve => rfl
  | replay => rfl

/-- A party that has not opened an application has none. -/
theorem Chained.attempts_nil {policy : Bytes32 → Option ProgramPolicy} (hs : Chained policy s es)
    {party : Address × Bytes32} (h : party ∉ es.filterMap openedFor) : attempts party es = [] := by
  apply List.eq_nil_iff_forall_not_mem.mpr
  intro id hid
  exact h (hs.opened id party ((hs.listed.mem party id).mp hid))

/-- The cooldown has passed since an application was closed. -/
theorem Chained.cooled {policy : Bytes32 → Option ProgramPolicy} (hs : Chained policy s es)
    {e : Step contract} (hclock : InOrder (es ++ [e])) {id : Bytes32} {application : Application}
    {rules : ProgramPolicy} (hfound : s.application id = some application)
    (hcooled : 0 < rules.reapplyCooldown →
      application.closedAt + rules.reapplyCooldown ≤ e.input.env.timestamp) :
    application.closedAt + rules.reapplyCooldown ≤ e.input.env.timestamp := by
  by_cases hcooldown : 0 < rules.reapplyCooldown
  · exact hcooled hcooldown
  · rw [Nat.eq_zero_of_not_pos hcooldown, Nat.add_zero]
    rcases hs.closed id application hfound with hopen | ⟨e', he', htime⟩
    · rw [hopen]
      exact Nat.zero_le _
    · rw [htime]
      rw [InOrder, List.map_append] at hclock
      exact (List.pairwise_append.mp hclock).2.2 _ (List.mem_map_of_mem he') _
        (List.mem_singleton_self _)

/-- Of a party's applications the newest alone has no successor. -/
theorem Chained.unlinked_unique {policy : Bytes32 → Option ProgramPolicy}
    (hs : Chained policy s es) {x y : Bytes32} {row row' : Application}
    (hx : s.application x = some row) (hy : s.application y = some row')
    (hunlinked : s.reappliedFrom x = none) (hunlinked' : s.reappliedFrom y = none)
    (hparty : row.party = row'.party) : x = y := by
  have hlast := (hs.newest x row hx hunlinked).1
  rw [hparty, (hs.newest y row' hy hunlinked').1] at hlast
  exact (Option.some.inj hlast).symm

/-- A decision closes an application or leaves it open; it adds none. -/
theorem Chained.resolve {policy : Bytes32 → Option ProgramPolicy} (hs : Chained policy s es)
    {e : Step contract} {id : Bytes32} {application : Application} {record : DecisionRecord}
    (hgrows : Grows s (s.resolve application record))
    (hfound : s.application id = some application) (hid : application.id = id)
    (htime : record.recordedAt = e.input.env.timestamp)
    (hnone : ∀ party, handedIn party e = none) :
    Chained policy (s.resolve application record) (es ++ [e]) := by
  have hwritten : (s.resolve application record).application =
      Function.update s.application id (some (application.decided record)) := by
    rw [← hid]
    rfl
  have hparty : (s.resolve application record).party = s.party := by
    rw [party_update hwritten]
    apply Function.update_eq_self_iff.mpr
    rw [State.party, hfound]
    rfl
  refine hs.keep hgrows rfl hparty rfl ?_ hnone ?_
  · intro x new hnew
    rw [hwritten] at hnew
    rcases update_row_cases hnew with ⟨rfl, rfl⟩ | ⟨_, hold⟩
    · exact ⟨application, hfound, rfl⟩
    · exact ⟨new, hold, rfl⟩
  · apply forall_update_row (hs.closed_snoc e) hwritten
    rw [Application.decided]
    dsimp only
    split_ifs
    · exact .inr ⟨e, List.mem_concat_self, htime⟩
    · exact hs.closed_snoc e id application hfound

/-- As long as nobody opens a second application in a program, every accepted call keeps the
chains. -/
theorem Effect.chained {policy : Bytes32 → Option ProgramPolicy} {i : Input contract} {o : Answer}
    (h : Effect crypto i.env s i.call o s') (hbooks : Books crypto s es) (hs : Chained policy s es)
    (hfree : CollisionFree crypto.sha256
      (hashed crypto (es ++ [(⟨s, i, o, s'⟩ : Step contract)])))
    (hopened : ((es ++ [(⟨s, i, o, s'⟩ : Step contract)]).filterMap openedFor).Nodup)
    (hclock : InOrder (es ++ [(⟨s, i, o, s'⟩ : Step contract)]))
    (hcall : i.call.setsPolicy = false) : Chained policy s' (es ++ [⟨s, i, o, s'⟩]) := by
  have hgrows := h.grows hbooks hfree
  have hpolicy := h.sets_policy hcall
  obtain ⟨env, call⟩ := i
  cases h with
  | configure => cases hcall
  | appoint | coordinate | replay =>
    exact hs.keep hgrows rfl rfl rfl (fun _ new hnew => ⟨new, hnew, rfl⟩)
      (fun _ => handedIn_none rfl) (hs.closed_snoc _)
  | @resolve _ id application record hfound hpending _ hresolution =>
    obtain ⟨_, _, htime, _⟩ := hresolution.record_of
    exact hs.resolve hgrows hfound (hbooks.ids id application hfound) htime fun _ => rfl
  | @submit applicant programId id consentVersion _ _ _ _ hfits hhashed =>
    have hnew := hbooks.fresh hfree hfits rfl hhashed
    rw [List.filterMap_append] at hopened
    have hnever : (applicant, programId) ∉ es.filterMap openedFor :=
      fun hmem => List.disjoint_of_nodup_append hopened hmem (List.mem_singleton_self _)
    have hnone := hs.attempts_nil hnever
    refine hs.enter hgrows hnew rfl rfl rfl (handedIn_new hnew rfl) ?_ ?_ ?_ ?_ ?_ ?_
    · rw [List.filterMap_append]
      exact List.mem_concat_self
    · show 1 = (attempts (applicant, programId) es).length + 1
      rw [hnone, List.length_nil]
    · intro rules _ hbounded
      exact Nat.one_le_iff_ne_zero.mpr hbounded
    · intro rules _ x hx
      have hlast : x ∈ (attempts (applicant, programId) es).getLast? := hx
      rw [hnone] at hlast
      cases hlast
    · intro x _ hunlinked
      refine ⟨hunlinked, fun row hrow heq => hnever ?_⟩
      apply hs.opened x
      rw [State.party, hrow, Option.map_some]
      exact congrArg some heq
    · exact fun x hx => hs.linked x (hgrows.absent hx)
  | @reapply previousId id consentVersion previous rules _ hunlinked hfound hclosed hgoverned hwithin
      hcooled _ hfits hhashed =>
    have hnew := hbooks.fresh hfree hfits (preimage_reapply hunlinked hfound) hhashed
    obtain ⟨hlast, hattempt⟩ := hs.newest previousId previous hfound hunlinked
    have hsamerules : ∀ rules', policy previous.programId = some rules' → rules' = rules := by
      intro rules' hrules
      rw [← hs.policies, hgoverned, Option.some.injEq] at hrules
      exact hrules.symm
    refine hs.enter hgrows hnew rfl rfl rfl (handedIn_new hnew rfl) ?_ ?_ ?_ ?_ ?_ ?_
    · have hparty : s.party previousId = some previous.party := by
        rw [State.party, hfound, Option.map_some]
      rw [List.filterMap_append]
      exact List.mem_append_left _ (hs.opened previousId previous.party hparty)
    · exact congrArg (· + 1) hattempt
    · intro rules' hrules hbounded
      rw [hsamerules rules' hrules] at hbounded ⊢
      exact hwithin hbounded
    · intro rules' hrules x hx
      have hxlast : x ∈ (attempts previous.party es).getLast? := hx
      rw [hlast, Option.mem_some_iff] at hxlast
      rw [← hxlast, hsamerules rules' hrules]
      refine ⟨previous, _, update_keeps_row hnew hfound, Function.update_self _ _ _, ?_,
        hs.cooled hclock hfound hcooled⟩
      rcases hclosed with hwithdrawn | hrejected
      · rw [hwithdrawn]
        rfl
      · rw [hrejected]
        rfl
    · intro x _ hafter
      have hne : x ≠ previousId := by
        intro heq
        rw [heq] at hafter
        dsimp only at hafter
        rw [Function.update_self] at hafter
        cases hafter
      have hbefore : s.reappliedFrom x = none := (Function.update_of_ne hne _ _).symm.trans hafter
      exact ⟨hbefore, fun row hrow heq =>
        hne (hs.unlinked_unique hrow hfound hbefore hunlinked heq)⟩
    · intro x hx
      have habsent := hgrows.absent hx
      have hne : x ≠ previousId := by
        intro heq
        rw [heq, hfound] at habsent
        cases habsent
      exact (Function.update_of_ne hne _ _).trans (hs.linked x habsent)

/-- The attempts of a run in which nobody opens a second application in a program. -/
theorem run_chained {admin : Option Address} {coordinator : Address → Bool}
    {policy : Bytes32 → Option ProgramPolicy} (is : List (Input contract))
    (hfree : CollisionFree crypto.sha256 (hashed crypto
      ((machine contract crypto).journal (State.configured admin coordinator policy) is)))
    (hopened : (((machine contract crypto).journal
      (State.configured admin coordinator policy) is).filterMap openedFor).Nodup)
    (hclock : InOrder ((machine contract crypto).journal
      (State.configured admin coordinator policy) is))
    (hcalls : ∀ i ∈ is, i.call.setsPolicy = false) :
    Chained policy ((machine contract crypto).run (State.configured admin coordinator policy) is)
      ((machine contract crypto).journal (State.configured admin coordinator policy) is) := by
  let P (t : State) (fs : List (Step contract)) : Prop :=
    CollisionFree crypto.sha256 (hashed crypto fs) → (fs.filterMap openedFor).Nodup →
      InOrder fs → (∀ e ∈ fs, e.input.call.setsPolicy = false) →
      Books crypto t fs ∧ Chained policy t fs
  have hstart : P (State.configured admin coordinator policy) [] :=
    fun _ _ _ _ => ⟨books_configured, chained_configured⟩
  have hstep : ∀ fs t (i : Input contract) o t', P t fs →
      (machine contract crypto).step t i = .ok (o, t') → P t' (fs ++ [⟨t, i, o, t'⟩]) := by
    intro fs t i o t' ht h hfree hopened hclock hcalls
    have hopenedleft : (fs.filterMap openedFor).Nodup := by
      rw [List.filterMap_append] at hopened
      exact hopened.of_append_left
    have hclockleft : InOrder fs := by
      rw [InOrder, List.map_append] at hclock
      exact (List.pairwise_append.mp hclock).1
    obtain ⟨hbooks, hchained⟩ := ht (hashed_left hfree) hopenedleft hclockleft
      fun e he => hcalls e (List.mem_append_left _ he)
    have heffect := step_effect h
    exact ⟨heffect.books hbooks hfree, heffect.chained hbooks hchained hfree hopened hclock
      (hcalls _ List.mem_concat_self)⟩
  refine (Machine.run_journal_invariant hstart hstep is hfree hopened hclock ?_).2
  intro e he
  obtain ⟨_, js, hjs, _⟩ := Machine.journal_prefix he
  exact hcalls _ (hjs.subset List.mem_concat_self)

end Chains

/-- As long as no applicant opens a second application in a program, their applications in it never
outnumber its attempts, and each was handed in after the one before was closed and the cooldown had
passed. -/
theorem run_attempts_bounded {admin : Option Address} {coordinator : Address → Bool}
    {policy : Bytes32 → Option ProgramPolicy} (is : List (Input contract))
    (hfree : CollisionFree crypto.sha256 (hashed crypto
      ((machine contract crypto).journal (State.configured admin coordinator policy) is)))
    (hopened : (((machine contract crypto).journal
      (State.configured admin coordinator policy) is).filterMap openedFor).Nodup)
    (hclock : InOrder ((machine contract crypto).journal
      (State.configured admin coordinator policy) is))
    (hcalls : ∀ i ∈ is, i.call.setsPolicy = false) :
    let m := machine contract crypto
    let s₀ := State.configured admin coordinator policy
    let s := m.run s₀ is
    ∀ applicant programId rules, policy programId = some rules →
      {id | s.party id = some (applicant, programId)}.Finite ∧
      (rules.maxAttempts ≠ 0 →
        {id | s.party id = some (applicant, programId)}.ncard ≤ rules.maxAttempts) ∧
      (∀ id, id ∈ attempts (applicant, programId) (m.journal s₀ is) ↔
        s.party id = some (applicant, programId)) ∧
      (attempts (applicant, programId) (m.journal s₀ is)).IsChain (Apart s rules) := by
  intro m s₀ s applicant programId rules hrules
  have hs : Chained policy s (m.journal s₀ is) := run_chained is hfree hopened hclock hcalls
  have hcount := hs.listed.countP (fun _ => true) (applicant, programId)
  simp only [and_true, List.countP_true] at hcount
  refine ⟨?_, ?_, hs.listed.mem (applicant, programId), hs.apart _ rules hrules⟩
  · have hfinite := hs.listed.finite (fun _ => True) (applicant, programId)
    simpa only [and_true] using hfinite
  · intro hbounded
    rw [← hcount]
    exact hs.within (applicant, programId) rules hrules hbounded

section Samples

/-- An application that is withdrawn, and its reapplication. -/
def sampleReapplied : List (Input ⟨0⟩) :=
  [⟨.sample, .openApplication ⟨2⟩ 5 1⟩,
    ⟨.sample, .withdrawApplication ⟨2⟩ sampleIds.1 ⟨7, 0, .internalOnly, true⟩⟩,
    ⟨.sampleLater, .reapply ⟨2⟩ sampleIds.1 1⟩]

theorem run_attempts_bounded_sample :
    let s := (machine ⟨0⟩ sampleCrypto).run (sampleConfigured 2) sampleReapplied
    s.party sampleIds.1 = some (⟨2⟩, 5) ∧ s.party sampleIds.2.2 = some (⟨2⟩, 5) ∧
      {id | s.party id = some (⟨2⟩, 5)}.ncard ≤ 2 := by
  have hbounded := @run_attempts_bounded ⟨0⟩ sampleCrypto (some ⟨1⟩) (fun _ => false)
    (sampleConfigured 2).policy sampleReapplied (by decide +kernel) (by decide +kernel)
    (by decide +kernel) (by decide +kernel) ⟨2⟩ 5 ⟨0, 0, true, 5, 2, 0⟩ rfl
  exact ⟨by decide +kernel, by decide +kernel, hbounded.2.1 (by decide)⟩

/-- With one attempt allowed, an applicant opens two applications, the first of which is still
open. -/
theorem second_attempt_opened :
    let m := machine ⟨0⟩ sampleCrypto
    let is := [⟨.sample, .openApplication ⟨2⟩ 5 1⟩, ⟨.sampleLater, .openApplication ⟨2⟩ 5 1⟩]
    let s := m.run (sampleConfigured 1) is
    s.party sampleIds.1 = some (⟨2⟩, 5) ∧ s.party sampleIds.2.1 = some (⟨2⟩, 5) ∧
      sampleIds.1 ≠ sampleIds.2.1 ∧ (s.policy 5).map ProgramPolicy.maxAttempts = some 1 ∧
      (s.application sampleIds.1).map Application.status = some .submitted ∧
      (s.application sampleIds.2.1).map Application.attempt = some 1 := by
  decide +kernel

end Samples

end ChainVerse.MentorshipApplications
