import ChainVerse.Budgets.Panels
import ChainVerse.Framework.Listings

namespace ChainVerse.ScholarshipDecisions

variable {contract : Address} {env : Env contract} {s s' : State} {key : Application}
  {call : Call} {docket docket' : Docket} {es : List (Step contract)} {e : Step contract}

section Histories

/-- The call has done a deed on the docket of the application. -/
def Does (deed : Deed) (key : Application) (e : Step contract) : Bool :=
  e.input.call.deed = some (deed, key)

def Docket.decided (docket : Docket) : Bool :=
  docket.decision.any fun decision => decision.status = .finalized

def Docket.appealed (docket : Docket) : Bool := docket.appeal.isSome

def Docket.resolved (docket : Docket) : Bool :=
  docket.appeal.any fun appeal => appeal.status = .resolved

/-- The votes on a list are those of distinct members, each cast by a call on the application. -/
structure Panel (es : List (Step contract)) (deed : Deed) (key : Application) (votes : List Vote) :
    Prop where
  distinct : (votes.map Vote.member).Nodup
  cast : ∀ vote ∈ votes, ∃ e ∈ es, Does deed key e = true ∧
    Casts e.input.env e.pre e.input.call vote

/-- What the calls so far have made of the docket of an application. -/
structure Heard (es : List (Step contract)) (key : Application) (docket : Docket) : Prop where
  finalized : es.countP (Does .finalization key) = docket.decided.toNat
  filed : es.countP (Does .filing key) = docket.appealed.toNat
  resolved : es.countP (Does .resolution key) = docket.resolved.toNat
  panel : ∀ decision, docket.decision = some decision → Panel es .vote key decision.votes
  appeal : ∀ appeal, docket.appeal = some appeal → Panel es .appealVote key appeal.votes ∧
    ∃ decision, docket.decision = some decision ∧ decision.status = .finalized ∧
      ∀ vote ∈ appeal.votes, vote.member ∉ decision.votes.map Vote.member
  standing : ∀ e ∈ es, Does .finalization key e = true → ∃ given decision,
    e.post.decision key = some given ∧ docket.decision = some decision ∧
      decision.votes = given.votes ∧ decision.finalizedAt = given.finalizedAt ∧
      (docket.resolved = false → decision.outcome = given.outcome)
  superseded : ∀ e ∈ es, Does .resolution key e = true → e.post.docket key = docket

theorem heard_empty (key : Application) :
    Heard ([] : List (Step contract)) key (State.empty.docket key) where
  finalized := rfl
  filed := rfl
  resolved := rfl
  panel _ h := by cases h
  appeal _ h := by cases h
  standing _ he := by cases he
  superseded _ he := by cases he

theorem Panel.mono {deed : Deed} {votes : List Vote} (h : Panel es deed key votes)
    (e : Step contract) : Panel (es ++ [e]) deed key votes where
  distinct := h.distinct
  cast vote hvote := by
    obtain ⟨e', he', hcast⟩ := h.cast vote hvote
    exact ⟨e', List.mem_append_left _ he', hcast⟩

theorem panel_empty (deed : Deed) : Panel es deed key [] where
  distinct := List.nodup_nil
  cast _ h := by cases h

theorem Panel.snoc {deed : Deed} {votes : List Vote} {vote : Vote} (h : Panel es deed key votes)
    (hdoes : Does deed key e = true) (hcasts : Casts e.input.env e.pre e.input.call vote)
    (hfresh : vote.member ∉ votes.map Vote.member) : Panel (es ++ [e]) deed key (votes ++ [vote]) where
  distinct := by
    rw [List.map_append, List.map_singleton]
    apply List.Nodup.append h.distinct (List.nodup_singleton _)
    rw [List.disjoint_singleton]
    exact hfresh
  cast v hv := by
    rcases List.mem_append.mp hv with hold | hnew
    · exact (h.mono e).cast v hold
    · rw [List.mem_singleton] at hnew
      rw [hnew]
      exact ⟨e, List.mem_concat_self, hdoes, hcasts⟩

end Histories

section Turns

/-- A decision is finalized by a finalization alone, once. -/
theorem Turn.decided (h : Turn env s key call docket docket') : docket'.decided.toNat =
    docket.decided.toNat + if call.deed = some (.finalization, key) then 1 else 0 := by
  cases h with
  | kept helsewhere => simp [helsewhere]
  | opened hdeed hundecided => simp [hdeed, hundecided, Docket.decided]
  | voted hdeed hundecided => simp [hdeed, Docket.decided, Decision.cast]
  | finalized hdeed hundecided => simp [hdeed, hundecided, Docket.decided, Decision.conclude]
  | filed hdeed => simp [hdeed, Docket.decided]
  | appealVoted hdeed => simp [hdeed, Docket.decided]
  | resolved hdeed => simp [hdeed, Docket.decided, Decision.supersede]

/-- An appeal is filed once. -/
theorem Turn.appealed (h : Turn env s key call docket docket') : docket'.appealed.toNat =
    docket.appealed.toNat + if call.deed = some (.filing, key) then 1 else 0 := by
  cases h with
  | kept helsewhere => simp [helsewhere]
  | opened hdeed => simp [hdeed, Docket.appealed]
  | voted hdeed => simp [hdeed, Docket.appealed]
  | finalized hdeed => simp [hdeed, Docket.appealed]
  | filed hdeed => simp [hdeed, Docket.appealed]
  | appealVoted hdeed => simp [hdeed, Docket.appealed]
  | resolved hdeed => simp [hdeed, Docket.appealed]

/-- An appeal is resolved once. -/
theorem Turn.resolution (h : Turn env s key call docket docket') : docket'.resolved.toNat =
    docket.resolved.toNat + if call.deed = some (.resolution, key) then 1 else 0 := by
  cases h with
  | kept helsewhere => simp [helsewhere]
  | opened hdeed => simp [hdeed, Docket.resolved]
  | voted hdeed => simp [hdeed, Docket.resolved]
  | finalized hdeed => simp [hdeed, Docket.resolved]
  | filed hdeed _ hunresolved => simp [hdeed, hunresolved, Docket.resolved]
  | appealVoted hdeed => simp [hdeed, Docket.resolved, Appeal.cast]
  | resolved hdeed hunresolved => simp [hdeed, hunresolved, Docket.resolved, Appeal.resolve]

/-- Deeds that change a flag of the docket are as many as the flag says. -/
theorem count_snoc {deed : Deed} {before after : Bool}
    (hcount : es.countP (Does deed key) = before.toNat)
    (hflag : after.toNat =
      before.toNat + if e.input.call.deed = some (deed, key) then 1 else 0) :
    (es ++ [e]).countP (Does deed key) = after.toNat := by
  rw [countP_snoc, hcount, hflag]
  simp only [Does, decide_eq_true_eq]

theorem Turn.panel (h : Turn e.input.env e.pre key e.input.call docket docket')
    (hs : Heard es key docket) {decision : Decision} (hdecision : docket'.decision = some decision) :
    Panel (es ++ [e]) .vote key decision.votes := by
  cases h with
  | kept => exact (hs.panel decision hdecision).mono e
  | opened _ _ hvotes =>
    cases hdecision
    rw [hvotes]
    exact panel_empty _
  | voted hdeed _ hcasts hfresh =>
    cases hdecision
    exact (hs.panel _ rfl).snoc (decide_eq_true hdeed) hcasts hfresh
  | finalized =>
    cases hdecision
    exact (hs.panel _ rfl).mono e
  | filed => exact (hs.panel decision hdecision).mono e
  | appealVoted => exact (hs.panel decision hdecision).mono e
  | resolved =>
    cases hdecision
    exact (hs.panel _ rfl).mono e

/-- The decision that an appeal is against has been finalized, by others than those who vote on the
appeal. -/
theorem Turn.appealPanel (h : Turn e.input.env e.pre key e.input.call docket docket')
    (hs : Heard es key docket) {appeal : Appeal} (happeal : docket'.appeal = some appeal) :
    Panel (es ++ [e]) .appealVote key appeal.votes ∧
      ∃ decision, docket'.decision = some decision ∧ decision.status = .finalized ∧
        ∀ vote ∈ appeal.votes, vote.member ∉ decision.votes.map Vote.member := by
  have hundecided : ∀ decision, docket.decision = some decision → decision.status = .opened →
      docket.appeal ≠ some appeal := by
    intro decision hdecision hopen hfound
    obtain ⟨_, other, hother, hfinalized, _⟩ := hs.appeal appeal hfound
    rw [hdecision, Option.some.injEq] at hother
    rw [hother, hfinalized] at hopen
    cases hopen
  cases h with
  | kept =>
    obtain ⟨hpanel, hagainst⟩ := hs.appeal appeal happeal
    exact ⟨hpanel.mono e, hagainst⟩
  | opened =>
    obtain ⟨_, _, hnone, _⟩ := hs.appeal appeal happeal
    cases hnone
  | voted _ hopen => exact absurd happeal (hundecided _ rfl hopen)
  | finalized _ hopen => exact absurd happeal (hundecided _ rfl hopen)
  | filed _ happealable _ hvotes =>
    cases happeal
    rw [hvotes]
    refine ⟨panel_empty _, _, rfl, happealable.finalized, ?_⟩
    intro vote hvote
    cases hvote
  | appealVoted hdeed _ hcasts huninvolved hfresh =>
    cases happeal
    obtain ⟨hpanel, decision, hdecision, hfinalized, hagainst⟩ := hs.appeal _ rfl
    cases hdecision
    refine ⟨hpanel.snoc (decide_eq_true hdeed) hcasts hfresh, _, rfl, hfinalized, ?_⟩
    intro vote hvote
    rcases List.mem_append.mp hvote with hold | hnew
    · exact hagainst vote hold
    · rw [List.mem_singleton] at hnew
      rw [hnew]
      exact huninvolved
  | resolved =>
    cases happeal
    obtain ⟨hpanel, decision, hdecision, hfinalized, hagainst⟩ := hs.appeal _ rfl
    cases hdecision
    exact ⟨hpanel.mono e, _, rfl, hfinalized, hagainst⟩

/-- No deed of a kind has been done as long as its flag is down. -/
theorem not_does_of_flag {deed : Deed} {flag : Bool}
    (hcount : es.countP (Does deed key) = flag.toNat) (hflag : flag = false) :
    ∀ e ∈ es, Does deed key e ≠ true := by
  rw [hflag] at hcount
  exact List.countP_eq_zero.mp hcount

/-- What a finalization has decided stands until an appeal is resolved. -/
theorem Turn.standing (h : Turn e.input.env e.pre key e.input.call docket docket')
    (hs : Heard es key docket) (hpost : e.post.docket key = docket') :
    ∀ e' ∈ es ++ [e], Does .finalization key e' = true → ∃ given decision,
      e'.post.decision key = some given ∧ docket'.decision = some decision ∧
        decision.votes = given.votes ∧ decision.finalizedAt = given.finalizedAt ∧
        (docket'.resolved = false → decision.outcome = given.outcome) := by
  intro e' he' hdoes
  rw [List.mem_append, List.mem_singleton] at he'
  -- A decision that is still open has not been finalized by any call so far.
  have hnever : docket.decided = false → e' ∉ es := fun hopen hold =>
    not_does_of_flag hs.finalized hopen e' hold hdoes
  have hother : ∀ {deed : Deed}, deed ≠ .finalization → e.input.call.deed = some (deed, key) →
      e' ≠ e := by
    intro deed hne hdeed heq
    rw [heq, Does, hdeed, decide_eq_true_eq, Option.some.injEq, Prod.mk.injEq] at hdoes
    exact hne hdoes.1
  cases h with
  | kept helsewhere =>
    rcases he' with hold | rfl
    · exact hs.standing e' hold hdoes
    · exact absurd (of_decide_eq_true hdoes) (helsewhere _)
  | opened hdeed =>
    rcases he' with hold | hnew
    · exact absurd hold (hnever rfl)
    · exact absurd hnew (hother (by decide) hdeed)
  | voted hdeed hopen =>
    rcases he' with hold | hnew
    · exact absurd hold (hnever (by simp [Docket.decided, hopen]))
    · exact absurd hnew (hother (by decide) hdeed)
  | finalized hdeed hopen =>
    rcases he' with hold | hnew
    · exact absurd hold (hnever (by simp [Docket.decided, hopen]))
    · rw [hnew]
      refine ⟨_, _, congrArg Docket.decision hpost, rfl, rfl, rfl, fun _ => rfl⟩
  | filed hdeed =>
    rcases he' with hold | hnew
    · obtain ⟨given, decision, hgiven, hdecision, hvotes, hat, houtcome⟩ := hs.standing e' hold hdoes
      exact ⟨given, decision, hgiven, hdecision, hvotes, hat, fun _ => houtcome rfl⟩
    · exact absurd hnew (hother (by decide) hdeed)
  | appealVoted hdeed =>
    rcases he' with hold | hnew
    · obtain ⟨given, decision, hgiven, hdecision, hvotes, hat, houtcome⟩ := hs.standing e' hold hdoes
      exact ⟨given, decision, hgiven, hdecision, hvotes, hat, houtcome⟩
    · exact absurd hnew (hother (by decide) hdeed)
  | resolved hdeed =>
    rcases he' with hold | hnew
    · obtain ⟨given, decision, hgiven, hdecision, hvotes, hat, _⟩ := hs.standing e' hold hdoes
      cases hdecision
      refine ⟨given, _, hgiven, rfl, hvotes, hat, ?_⟩
      intro hunresolved
      cases hunresolved
    · exact absurd hnew (hother (by decide) hdeed)

/-- Nothing is written on a docket whose appeal has been resolved. -/
theorem Turn.closed (h : Turn env s key call docket docket') (hs : Heard es key docket)
    (hresolved : docket.resolved = true) :
    docket' = docket ∧ ∀ deed, call.deed ≠ some (deed, key) := by
  obtain ⟨appeal, happeal, hstatus⟩ : ∃ appeal, docket.appeal = some appeal ∧
      appeal.status = .resolved := by simpa [Docket.resolved, Option.any_eq_true] using hresolved
  obtain ⟨_, decision, hdecision, hfinalized, _⟩ := hs.appeal appeal happeal
  cases h with
  | kept helsewhere => exact ⟨rfl, helsewhere⟩
  | opened => cases hdecision
  | voted _ hopen =>
    cases hdecision
    rw [hfinalized] at hopen
    cases hopen
  | finalized _ hopen =>
    cases hdecision
    rw [hfinalized] at hopen
    cases hopen
  | filed => cases happeal
  | appealVoted _ hopen =>
    cases happeal
    rw [hstatus] at hopen
    cases hopen
  | resolved _ hopen =>
    cases happeal
    rw [hstatus] at hopen
    cases hopen

theorem Turn.superseded (h : Turn e.input.env e.pre key e.input.call docket docket')
    (hs : Heard es key docket) (hpost : e.post.docket key = docket') :
    ∀ e' ∈ es ++ [e], Does .resolution key e' = true → e'.post.docket key = docket' := by
  intro e' he' hdoes
  rcases List.mem_append.mp he' with hold | hnew
  · have hresolved : docket.resolved = true := by
      by_contra hnot
      exact not_does_of_flag hs.resolved (Bool.eq_false_iff.mpr hnot) e' hold hdoes
    rw [hs.superseded e' hold hdoes, (h.closed hs hresolved).1]
  · rw [List.mem_singleton] at hnew
    rw [hnew]
    exact hpost

theorem Heard.snoc (hs : Heard es key (e.pre.docket key))
    (h : Turn e.input.env e.pre key e.input.call (e.pre.docket key) (e.post.docket key)) :
    Heard (es ++ [e]) key (e.post.docket key) where
  finalized := count_snoc hs.finalized h.decided
  filed := count_snoc hs.filed h.appealed
  resolved := count_snoc hs.resolved h.resolution
  panel _ := h.panel hs
  appeal _ := h.appealPanel hs
  standing := h.standing hs rfl
  superseded := h.superseded hs rfl

end Turns

section Runs

theorem run_heard (is : List (Input contract)) (key : Application) :
    Heard ((machine contract).journal State.empty is) key
      (((machine contract).run State.empty is).docket key) := by
  refine @Machine.run_journal_invariant _ _ _ _ (machine contract)
    (fun s es => Heard es key (s.docket key)) State.empty (heard_empty key) ?_ is
  intro es s i u s' hs h
  exact @Heard.snoc contract key es ⟨s, i, u, s'⟩ hs (step_turn h key)

/-- A vote is decided: distinct members other than those who recuse themselves make up the quorum, and
the outcome is elected, in whatever order they have voted. -/
structure Decides (s : State) (votes : List Vote) (outcome : DecisionOutcome) : Prop where
  distinct : (votes.map Vote.member).Nodup
  set : s.quorum ≠ 0
  reached : s.quorum ≤ votesCast votes
  elected : Elected votes outcome
  ordered : ∀ others, votes.Perm others → concludeVote s others = .ok outcome

theorem decides_of_concluded {votes : List Vote} {outcome : DecisionOutcome}
    (hdistinct : (votes.map Vote.member).Nodup) (h : concludeVote s votes = .ok outcome) :
    Decides s votes outcome := by
  obtain ⟨_, hset, hreached, helected⟩ := concludeVote_eq_ok.mp h
  exact ⟨hdistinct, hset, hreached, helected, fun _ => concludeVote_perm h⟩

/-- What a finalization finds and leaves. -/
theorem Turn.of_finalization (h : Turn env s key call (s.docket key) (s'.docket key))
    (hdeed : call.deed = some (.finalization, key)) : ∃ decision outcome,
      s.decision key = some decision ∧ decision.status = .opened ∧
        concludeVote s decision.votes = .ok outcome ∧
        s'.decision key = some (decision.conclude outcome env.timestamp) := by
  generalize hbefore : s.docket key = before at h
  generalize hafter : s'.docket key = after at h
  have hdecision : s.decision key = before.decision := congrArg Docket.decision hbefore
  have hdecision' : s'.decision key = after.decision := congrArg Docket.decision hafter
  cases h with
  | kept helsewhere => exact absurd hdeed (helsewhere _)
  | finalized _ hopen hconcluded => exact ⟨_, _, hdecision, hopen, hconcluded, hdecision'⟩
  | opened h => simp [hdeed] at h
  | voted h => simp [hdeed] at h
  | filed h => simp [hdeed] at h
  | appealVoted h => simp [hdeed] at h
  | resolved h => simp [hdeed] at h

/-- What the filing of an appeal finds. -/
theorem Turn.of_filing (h : Turn env s key call (s.docket key) (s'.docket key))
    (hdeed : call.deed = some (.filing, key)) : ∃ decision, s.decision key = some decision ∧
      s.appeal key = none ∧ Appealable env s key decision := by
  generalize hbefore : s.docket key = before at h
  generalize s'.docket key = after at h
  have hdecision : s.decision key = before.decision := congrArg Docket.decision hbefore
  have happeal : s.appeal key = before.appeal := congrArg Docket.appeal hbefore
  cases h with
  | kept helsewhere => exact absurd hdeed (helsewhere _)
  | filed _ happealable => exact ⟨_, hdecision, happeal, happealable⟩
  | opened h => simp [hdeed] at h
  | voted h => simp [hdeed] at h
  | finalized h => simp [hdeed] at h
  | appealVoted h => simp [hdeed] at h
  | resolved h => simp [hdeed] at h

/-- What the resolution of an appeal finds and leaves. -/
theorem Turn.of_resolution (h : Turn env s key call (s.docket key) (s'.docket key))
    (hdeed : call.deed = some (.resolution, key)) : ∃ decision appeal outcome,
      s.decision key = some decision ∧ s.appeal key = some appeal ∧ appeal.status = .opened ∧
        concludeVote s appeal.votes = .ok outcome ∧
        s'.decision key = some (decision.supersede outcome) ∧
        s'.appeal key = some (appeal.resolve outcome env.timestamp) := by
  generalize hbefore : s.docket key = before at h
  generalize hafter : s'.docket key = after at h
  have hdecision : s.decision key = before.decision := congrArg Docket.decision hbefore
  have happeal : s.appeal key = before.appeal := congrArg Docket.appeal hbefore
  have hdecision' : s'.decision key = after.decision := congrArg Docket.decision hafter
  have happeal' : s'.appeal key = after.appeal := congrArg Docket.appeal hafter
  cases h with
  | kept helsewhere => exact absurd hdeed (helsewhere _)
  | resolved _ hopen hconcluded =>
    exact ⟨_, _, _, hdecision, happeal, hopen, hconcluded, hdecision', happeal'⟩
  | opened h => simp [hdeed] at h
  | voted h => simp [hdeed] at h
  | finalized h => simp [hdeed] at h
  | filed h => simp [hdeed] at h
  | appealVoted h => simp [hdeed] at h

/-- The outcome of a decision changes by a finalization or by the resolution of an appeal alone. -/
theorem Turn.outcome (h : Turn env s key call (s.docket key) (s'.docket key))
    {decision : Decision} (hfound : s.decision key = some decision) : ∃ decision',
      s'.decision key = some decision' ∧ (decision'.outcome ≠ decision.outcome →
        call.deed = some (.finalization, key) ∨ call.deed = some (.resolution, key)) := by
  generalize hbefore : s.docket key = before at h
  generalize hafter : s'.docket key = after at h
  have hdecision : s.decision key = before.decision := congrArg Docket.decision hbefore
  have hdecision' : s'.decision key = after.decision := congrArg Docket.decision hafter
  rw [hfound] at hdecision
  cases h with
  | kept => exact ⟨decision, hdecision'.trans hdecision.symm, fun hne => absurd rfl hne⟩
  | opened => cases hdecision
  | voted =>
    cases hdecision
    exact ⟨_, hdecision', fun hne => absurd rfl hne⟩
  | finalized hdeed => exact ⟨_, hdecision', fun _ => .inl hdeed⟩
  | filed => exact ⟨decision, hdecision'.trans hdecision.symm, fun hne => absurd rfl hne⟩
  | appealVoted => exact ⟨decision, hdecision'.trans hdecision.symm, fun hne => absurd rfl hne⟩
  | resolved hdeed => exact ⟨_, hdecision', fun _ => .inr hdeed⟩

/-- What a line of a run finds, and the turn that it takes. -/
theorem heard_of_split {is : List (Input contract)} {earlier later : List (Step contract)}
    (h : (machine contract).journal State.empty is = earlier ++ e :: later) (key : Application) :
    Heard earlier key (e.pre.docket key) ∧
      Turn e.input.env e.pre key e.input.call (e.pre.docket key) (e.post.docket key) := by
  obtain ⟨js, ks, _, hjournal, hrun, hstep⟩ := Machine.journal_split h
  have hheard := run_heard js key
  rw [hjournal, hrun] at hheard
  exact ⟨hheard, step_turn hstep key⟩

theorem exists_does {deed : Deed} {flag : Bool} (hcount : es.countP (Does deed key) = flag.toNat)
    (hflag : flag = true) : ∃ e ∈ es, Does deed key e = true := by
  rw [← List.countP_pos_iff, hcount, hflag]
  exact Nat.one_pos

/-- Over every run a decision is finalized at most once, by an elected outcome of a quorum of distinct
members, and keeps its votes. Its outcome changes at most once more, when the one appeal that the
applicant may file in time against it is resolved by a quorum of members without a vote on it. -/
theorem run_verdicts (is : List (Input contract)) (key : Application) :
    let s := (machine contract).run State.empty is
    let es := (machine contract).journal State.empty is
    (es.countP (Does .finalization key) ≤ 1 ∧ es.countP (Does .filing key) ≤ 1 ∧
        es.countP (Does .resolution key) ≤ 1) ∧
      (∀ earlier e later, es = earlier ++ e :: later → Does .finalization key e = true →
        ∃ given outcome decision, e.pre.decision key = some given ∧ given.status = .opened ∧
          Panel earlier .vote key given.votes ∧ Decides e.pre given.votes outcome ∧
          e.post.decision key = some (given.conclude outcome e.input.env.timestamp) ∧
          s.decision key = some decision ∧ decision.votes = given.votes ∧
          (decision.outcome ≠ outcome → ∃ e' ∈ es, Does .resolution key e' = true)) ∧
      (∀ e ∈ es, ∀ decision, e.pre.decision key = some decision → ∃ decision',
        e.post.decision key = some decision' ∧ (decision'.outcome ≠ decision.outcome →
          Does .finalization key e = true ∨ Does .resolution key e = true)) ∧
      (∀ earlier e later, es = earlier ++ e :: later → Does .filing key e = true →
        (∃ e' ∈ earlier, Does .finalization key e' = true) ∧
          ∃ decision, e.pre.decision key = some decision ∧
            Appealable e.input.env e.pre key decision) ∧
      ∀ earlier e later, es = earlier ++ e :: later → Does .resolution key e = true →
        (∃ e' ∈ earlier, Does .filing key e' = true) ∧
          ∃ decision appeal outcome, e.pre.decision key = some decision ∧
            e.pre.appeal key = some appeal ∧ Panel earlier .appealVote key appeal.votes ∧
            (∀ vote ∈ appeal.votes, vote.member ∉ decision.votes.map Vote.member) ∧
            Decides e.pre appeal.votes outcome ∧
            s.decision key = some (decision.supersede outcome) := by
  intro s es
  have hheard : Heard es key (s.docket key) := run_heard is key
  refine ⟨⟨?_, ?_, ?_⟩, ?_, ?_, ?_, ?_⟩
  · rw [hheard.finalized]
    exact Bool.toNat_le _
  · rw [hheard.filed]
    exact Bool.toNat_le _
  · rw [hheard.resolved]
    exact Bool.toNat_le _
  · intro earlier e later hes hdoes
    obtain ⟨hbefore, hturn⟩ := heard_of_split hes key
    obtain ⟨given, outcome, hgiven, hopen, hconcluded, hpost⟩ :=
      hturn.of_finalization (of_decide_eq_true hdoes)
    have hpanel := hbefore.panel given hgiven
    have he : e ∈ es := hes ▸ List.mem_append_cons_self
    obtain ⟨given', decision, hpost', hdecision, hvotes, _, houtcome⟩ := hheard.standing e he hdoes
    rw [hpost, Option.some.injEq] at hpost'
    subst hpost'
    refine ⟨given, outcome, decision, hgiven, hopen, hpanel,
      decides_of_concluded hpanel.distinct hconcluded, hpost, hdecision, hvotes, ?_⟩
    intro hchanged
    have hresolved : (s.docket key).resolved = true := by
      by_contra hnot
      exact hchanged (houtcome (Bool.eq_false_iff.mpr hnot))
    exact exists_does hheard.resolved hresolved
  · intro e he decision hfound
    obtain ⟨hstep, _⟩ := Machine.journal_step he
    obtain ⟨decision', hpost, houtcome⟩ := (step_turn hstep key).outcome hfound
    refine ⟨decision', hpost, fun hne => ?_⟩
    exact (houtcome hne).imp decide_eq_true decide_eq_true
  · intro earlier e later hes hdoes
    obtain ⟨hbefore, hturn⟩ := heard_of_split hes key
    obtain ⟨decision, hfound, _, happealable⟩ := hturn.of_filing (of_decide_eq_true hdoes)
    refine ⟨exists_does hbefore.finalized ?_, decision, hfound, happealable⟩
    simp [Docket.decided, State.docket, hfound, happealable.finalized]
  · intro earlier e later hes hdoes
    obtain ⟨hbefore, hturn⟩ := heard_of_split hes key
    obtain ⟨decision, appeal, outcome, hfound, happeal, _, hconcluded, hpost, _⟩ :=
      hturn.of_resolution (of_decide_eq_true hdoes)
    obtain ⟨hpanel, against, hagainst, _, huninvolved⟩ := hbefore.appeal appeal happeal
    obtain rfl : decision = against := Option.some.inj (hfound.symm.trans hagainst)
    have he : e ∈ es := hes ▸ List.mem_append_cons_self
    have hfinal : s.decision key = e.post.decision key :=
      congrArg Docket.decision (hheard.superseded e he hdoes).symm
    refine ⟨exists_does hbefore.filed ?_, decision, appeal, outcome, hfound, happeal, hpanel,
      huninvolved, decides_of_concluded hpanel.distinct hconcluded, hfinal.trans hpost⟩
    simp [Docket.appealed, State.docket, happeal]

end Runs

end ChainVerse.ScholarshipDecisions
