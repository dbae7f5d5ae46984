import ChainVerse.Framework.Histories
import ChainVerse.Framework.Listings
import ChainVerse.Framework.Tables
import ChainVerse.Rematch.Steps

namespace ChainVerse.MentorshipRematch

variable {contract : Address} {env : Env contract} {s s' : State} {id : Bytes32}

section Views

def State.next (s : State) (id : Bytes32) : Option Bytes32 :=
  (s.matchRecord id).bind MatchRecord.successorMatchId

def State.prev (s : State) (id : Bytes32) : Option Bytes32 :=
  (s.matchRecord id).bind MatchRecord.supersededMatchId

def State.mentee (s : State) (id : Bytes32) : Option Address :=
  (s.matchRecord id).map MatchRecord.mentee

def State.requestMatch (s : State) (id : Bytes32) : Option Bytes32 :=
  (s.request id).map RematchRequest.matchId

def State.ActiveMatch (s : State) (id : Bytes32) : Prop :=
  ∃ record, s.matchRecord id = some record ∧ record.status = .active

end Views

/-- The matches form chains: each superseded match and its successor point at each other. -/
structure Matches (s : State) : Prop where
  keyed : ∀ id record, s.matchRecord id = some record → record.matchId = id
  chained : Chained s.next s.prev
  ended : ∀ id record, s.matchRecord id = some record →
    (record.status = .superseded ↔ record.successorMatchId ≠ none)
  mentees : ∀ a b, s.next a = some b → s.mentee b = s.mentee a

/-- Every match has few requests, and at most one that is pending, while the match is active. -/
structure Requests (s : State) : Prop where
  keyed : ∀ id request, s.request id = some request → request.requestId = id
  listed : Listed s.matchRequests s.requestMatch
  short : ∀ id, (s.matchRequests id).length ≤ maxRequestsPerMatch
  active : ∀ id request, s.request id = some request → request.status.isPending = true →
    s.ActiveMatch request.matchId
  single : ∀ id id' request request', s.request id = some request → s.request id' = some request' →
    request.status.isPending = true → request'.status.isPending = true →
    request.matchId = request'.matchId → id = id'

section Matches

variable {record written : MatchRecord}

theorem matches_empty : Matches State.empty where
  keyed id record h := by cases h
  chained := chained_empty
  ended id record h := by cases h
  mentees a b h := by cases h

theorem next_update (h : s'.matchRecord = Function.update s.matchRecord id (some written)) :
    s'.next = Function.update s.next id written.successorMatchId ∧
      s'.prev = Function.update s.prev id written.supersededMatchId ∧
      s'.mentee = Function.update s.mentee id (some written.mentee) := by
  refine ⟨?_, ?_, ?_⟩
  · funext x
    rw [State.next, h]
    exact congrFun (Function.comp_update (fun row => Option.bind row MatchRecord.successorMatchId)
      s.matchRecord id (some written)) x
  · funext x
    rw [State.prev, h]
    exact congrFun (Function.comp_update (fun row => Option.bind row MatchRecord.supersededMatchId)
      s.matchRecord id (some written)) x
  · funext x
    rw [State.mentee, h]
    exact congrFun (Function.comp_update (Option.map MatchRecord.mentee) s.matchRecord id
      (some written)) x

theorem pointers_none (h : s.matchRecord id = none) :
    s.next id = none ∧ s.prev id = none ∧ s.mentee id = none := by
  rw [State.next, State.prev, State.mentee, h]
  exact ⟨rfl, rfl, rfl⟩

theorem Matches.same (hs : Matches s) (h : s'.matchRecord = s.matchRecord) : Matches s' := by
  obtain ⟨hkeyed, hchained, hended, hmentees⟩ := hs
  have hnext : s'.next = s.next := by
    funext x
    rw [State.next, h, State.next]
  have hprev : s'.prev = s.prev := by
    funext x
    rw [State.prev, h, State.prev]
  have hmentee : s'.mentee = s.mentee := by
    funext x
    rw [State.mentee, h, State.mentee]
  refine ⟨?_, ?_, ?_, ?_⟩
  · rwa [h]
  · rwa [hnext, hprev]
  · rwa [h]
  · rwa [hnext, hmentee]

/-- A match without neighbours is stored. -/
theorem Matches.register (hs : Matches s) (hfresh : s.matchRecord id = none)
    (hid : written.matchId = id) (hactive : written.status = .active)
    (hunlinked : written.successorMatchId = none ∧ written.supersededMatchId = none)
    (h : s'.matchRecord = Function.update s.matchRecord id (some written)) : Matches s' := by
  obtain ⟨hnext, hprev, hmentee⟩ := next_update h
  obtain ⟨hnone, hnone', _⟩ := pointers_none hfresh
  rw [hunlinked.1, ← hnone, Function.update_eq_self] at hnext
  rw [hunlinked.2, ← hnone', Function.update_eq_self] at hprev
  refine ⟨forall_update_row hs.keyed h hid, ?_, ?_, ?_⟩
  · rw [hnext, hprev]
    exact hs.chained
  · refine forall_update_row hs.ended h ?_
    rw [hactive, hunlinked.1]
    simp
  · intro a b hab
    rw [hnext] at hab
    have ha : a ≠ id := by
      intro heq
      rw [heq, hnone] at hab
      cases hab
    have hb : b ≠ id := by
      intro heq
      have hback := (hs.chained.inverse a b).mp hab
      rw [heq, hnone'] at hback
      cases hback
    rw [hmentee, Function.update_of_ne ha, Function.update_of_ne hb]
    exact hs.mentees a b hab

/-- A match without a successor is closed. -/
theorem Matches.close (hs : Matches s) (hfound : s.matchRecord id = some record)
    (hactive : record.status = .active) (now : Nat)
    (h : s'.matchRecord = Function.update s.matchRecord id (some (record.closed now))) : Matches s' := by
  obtain ⟨hnext, hprev, hmentee⟩ := next_update h
  have hend : record.successorMatchId = none := by
    by_contra hlinked
    have hended := (hs.ended id record hfound).mpr hlinked
    rw [hactive] at hended
    cases hended
  have hsame : s'.next = s.next := by
    rw [hnext, Function.update_eq_self_iff, State.next, hfound]
    rfl
  have hsame' : s'.prev = s.prev := by
    rw [hprev, Function.update_eq_self_iff, State.prev, hfound]
    rfl
  have hsame'' : s'.mentee = s.mentee := by
    rw [hmentee, Function.update_eq_self_iff, State.mentee, hfound]
    rfl
  refine ⟨forall_update_row hs.keyed h (hs.keyed id record hfound), ?_, ?_, ?_⟩
  · rw [hsame, hsame']
    exact hs.chained
  · refine forall_update_row hs.ended h ?_
    show MatchStatus.closed = .superseded ↔ record.successorMatchId ≠ none
    rw [hend]
    simp
  · rw [hsame, hsame'']
    exact hs.mentees

/-- The pointers and the mentees once a match has been superseded by a new one. -/
theorem supersede_pointers (hfound : s.matchRecord id = some record) (hkey : record.matchId = id)
    {successorId : Bytes32} (mentor : Address) (now : Nat) (hfresh : s.matchRecord successorId = none)
    (h : s'.matchRecord = Function.update
      (Function.update s.matchRecord successorId (some (record.successor successorId mentor now))) id
      (some (record.superseded successorId now))) :
    s'.next = Function.update s.next id (some successorId) ∧
      s'.prev = Function.update s.prev successorId (some id) ∧
      (∀ x, x ≠ successorId → s'.mentee x = s.mentee x) ∧ s'.mentee successorId = s.mentee id := by
  have hne : id ≠ successorId := by
    intro heq
    rw [← heq, hfound] at hfresh
    cases hfresh
  obtain ⟨hnone, _, _⟩ := pointers_none hfresh
  obtain ⟨hnext, hprev, hmentee⟩ := @next_update (putMatch s (record.successor successorId mentor now))
    s' id (record.superseded successorId now) h
  obtain ⟨hnext₁, hprev₁, hmentee₁⟩ := @next_update s
    (putMatch s (record.successor successorId mentor now)) successorId
    (record.successor successorId mentor now) rfl
  refine ⟨?_, ?_, ?_, ?_⟩
  · have hleft : Function.update s.next successorId none = s.next := by
      rw [← hnone, Function.update_eq_self]
    rw [hnext, hnext₁]
    show Function.update (Function.update s.next successorId none) id (some successorId) = _
    rw [hleft]
  · have hback : record.supersededMatchId = Function.update s.prev successorId (some id) id := by
      rw [Function.update_of_ne hne, State.prev, hfound]
      rfl
    rw [hprev, hprev₁]
    show Function.update (Function.update s.prev successorId (some record.matchId)) id
      record.supersededMatchId = _
    rw [hkey, hback, Function.update_eq_self]
  · intro x hx
    rw [hmentee, hmentee₁]
    by_cases hxid : x = id
    · rw [hxid, Function.update_self, State.mentee, hfound]
      rfl
    · rw [Function.update_of_ne hxid, Function.update_of_ne hx]
  · rw [hmentee, hmentee₁, Function.update_of_ne hne.symm, Function.update_self, State.mentee, hfound]
    rfl

/-- A match is superseded by a new one with the same mentee. -/
theorem Matches.supersede (hs : Matches s) (hfound : s.matchRecord id = some record)
    (hactive : record.status = .active) {successorId : Bytes32} (mentor : Address) (now : Nat)
    (hfresh : s.matchRecord successorId = none)
    (h : s'.matchRecord = Function.update
      (Function.update s.matchRecord successorId (some (record.successor successorId mentor now))) id
      (some (record.superseded successorId now))) : Matches s' := by
  have hkey := hs.keyed id record hfound
  have hne : id ≠ successorId := by
    intro heq
    rw [← heq, hfound] at hfresh
    cases hfresh
  obtain ⟨hnone, hnone', _⟩ := pointers_none hfresh
  have hend : s.next id = none := by
    rw [State.next, hfound]
    show record.successorMatchId = none
    by_contra hlinked
    have hended := (hs.ended id record hfound).mpr hlinked
    rw [hactive] at hended
    cases hended
  obtain ⟨hnexts, hprevs, hothers, hnew⟩ := supersede_pointers hfound hkey mentor now hfresh h
  have hkeys : ∀ x row, Function.update s.matchRecord successorId
      (some (record.successor successorId mentor now)) x = some row → row.matchId = x :=
    forall_update_row hs.keyed rfl rfl
  have hends : ∀ x row, Function.update s.matchRecord successorId
      (some (record.successor successorId mentor now)) x = some row →
      (row.status = .superseded ↔ row.successorMatchId ≠ none) := by
    refine forall_update_row hs.ended rfl ?_
    simp [MatchRecord.successor]
  refine ⟨?_, ?_, ?_, ?_⟩
  · exact forall_update_row hkeys h hkey
  · rw [hnexts, hprevs]
    exact hs.chained.append hend hnone hnone' hne
  · refine forall_update_row hends h ?_
    simp [MatchRecord.superseded]
  · intro a b hab
    rw [hnexts] at hab
    rcases append_step hab with ⟨rfl, rfl⟩ | hold
    · rw [hnew, hothers a hne]
    · have ha : a ≠ successorId := by
        intro heq
        rw [heq, hnone] at hold
        cases hold
      have hb : b ≠ successorId := by
        intro heq
        have hback := (hs.chained.inverse a b).mp hold
        rw [heq, hnone'] at hback
        cases hback
      rw [hothers a ha, hothers b hb]
      exact hs.mentees a b hold

end Matches

section Requests

variable {request written : RematchRequest}

theorem requests_empty : Requests State.empty where
  keyed id request h := by cases h
  listed := listed_empty
  short id := Nat.zero_le _
  active id request h := by cases h
  single id id' request request' h := by cases h

theorem Requests.same (hs : Requests s) (hrequest : s'.request = s.request)
    (hlists : s'.matchRequests = s.matchRequests) (hactive : ∀ m, s.ActiveMatch m → s'.ActiveMatch m) :
    Requests s' := by
  have hmatch : s'.requestMatch = s.requestMatch := by
    funext x
    rw [State.requestMatch, hrequest, State.requestMatch]
  refine ⟨?_, ?_, ?_, ?_, ?_⟩
  · rw [hrequest]
    exact hs.keyed
  · rw [hlists, hmatch]
    exact hs.listed
  · rw [hlists]
    exact hs.short
  · intro id request hfound hpending
    rw [hrequest] at hfound
    exact hactive _ (hs.active id request hfound hpending)
  · rw [hrequest]
    exact hs.single

theorem requestMatch_update (h : s'.request = Function.update s.request id (some written)) :
    s'.requestMatch = Function.update s.requestMatch id (some written.matchId) := by
  funext x
  rw [State.requestMatch, h]
  exact congrFun (Function.comp_update (Option.map RematchRequest.matchId) s.request id (some written)) x

/-- A pending request moves on. When it is finished its match may end with it. -/
theorem Requests.rewrite (hs : Requests s) (written : RematchRequest) (hfound : s.request id = some request)
    (hpending : request.status.isPending = true) (hid : written.requestId = request.requestId)
    (hmatch : written.matchId = request.matchId)
    (hrequest : s'.request = Function.update s.request written.requestId (some written))
    (hlists : s'.matchRequests = s.matchRequests)
    (hactive : ∀ m, m ≠ request.matchId ∨ written.status.isPending = true → s.ActiveMatch m →
      s'.ActiveMatch m) : Requests s' := by
  have hkey : written.requestId = id := hid.trans (hs.keyed id request hfound)
  rw [hkey] at hrequest
  have hothers : ∀ x other, x ≠ id → s.request x = some other → other.status.isPending = true →
      other.matchId ≠ request.matchId := by
    intro x other hx hother hopen hsame
    exact hx (hs.single x id other request hother hfound hopen hpending hsame)
  have hkept : s'.requestMatch = s.requestMatch := by
    rw [requestMatch_update hrequest, Function.update_eq_self_iff, State.requestMatch, hfound, hmatch]
    rfl
  refine ⟨forall_update_row hs.keyed hrequest hkey, ?_, ?_, ?_, ?_⟩
  · rw [hlists, hkept]
    exact hs.listed
  · rw [hlists]
    exact hs.short
  · intro x other hother hopen
    rw [hrequest] at hother
    rcases update_row_cases hother with ⟨rfl, rfl⟩ | ⟨hx, hold⟩
    · rw [hmatch]
      exact hactive _ (.inr hopen) (hs.active x request hfound hpending)
    · exact hactive _ (.inl (hothers x other hx hold hopen)) (hs.active x other hold hopen)
  · intro x y other other' hother hother' hopen hopen' hsame
    rw [hrequest] at hother hother'
    rcases update_row_cases hother with ⟨rfl, rfl⟩ | ⟨hx, hold⟩
    · rcases update_row_cases hother' with ⟨rfl, _⟩ | ⟨hy, hold'⟩
      · rfl
      · exact absurd (hsame.symm.trans hmatch) (hothers y other' hy hold' hopen')
    · rcases update_row_cases hother' with ⟨rfl, rfl⟩ | ⟨hy, hold'⟩
      · exact absurd (hsame.trans hmatch) (hothers x other hx hold hopen)
      · exact hs.single x y other other' hold hold' hopen hopen' hsame

/-- A request is made for an active match that has none pending. -/
theorem Requests.open (hs : Requests s) (hfresh : s.request request.requestId = none)
    (hactive : s.ActiveMatch request.matchId)
    (hroom : (s.matchRequests request.matchId).length < maxRequestsPerMatch)
    (hclear : ∀ id ∈ s.matchRequests request.matchId, ∃ other, s.request id = some other ∧
      other.status.isPending = false) : Requests (requested s request) := by
  have hwritten : (requested s request).request =
      Function.update s.request request.requestId (some request) := rfl
  have hothers : ∀ x other, s.request x = some other → other.status.isPending = true →
      other.matchId ≠ request.matchId := by
    intro x other hother hopen hsame
    have hlisted : x ∈ s.matchRequests request.matchId := by
      rw [hs.listed.mem, State.requestMatch, hother, ← hsame]
      rfl
    obtain ⟨settled, hsettled, hclosed⟩ := hclear x hlisted
    rw [hother, Option.some.injEq] at hsettled
    rw [hsettled, hclosed] at hopen
    cases hopen
  refine ⟨forall_update_row hs.keyed hwritten rfl, ?_, ?_, ?_, ?_⟩
  · rw [requestMatch_update hwritten]
    have hnone : s.requestMatch request.requestId = none := by
      rw [State.requestMatch, hfresh]
      rfl
    exact hs.listed.append hnone request.matchId
  · intro m
    show (Function.update s.matchRequests request.matchId _ m).length ≤ _
    by_cases hm : m = request.matchId
    · rw [hm, Function.update_self, List.length_append]
      exact hroom
    · rw [Function.update_of_ne hm]
      exact hs.short m
  · exact forall_update_row hs.active hwritten fun _ => hactive
  · intro x y other other' hother hother' hopen hopen' hsame
    rw [hwritten] at hother hother'
    rcases update_row_cases hother with ⟨rfl, rfl⟩ | ⟨hx, hold⟩
    · rcases update_row_cases hother' with ⟨rfl, _⟩ | ⟨hy, hold'⟩
      · rfl
      · exact absurd hsame.symm (hothers y other' hold' hopen')
    · rcases update_row_cases hother' with ⟨rfl, rfl⟩ | ⟨hy, hold'⟩
      · exact absurd hsame (hothers x other hold hopen)
      · exact hs.single x y other other' hold hold' hopen hopen' hsame

end Requests

end ChainVerse.MentorshipRematch
