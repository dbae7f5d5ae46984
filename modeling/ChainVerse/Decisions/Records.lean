import ChainVerse.Decisions.Steps
import ChainVerse.Framework.Tables

namespace ChainVerse.MentorshipApplications

variable {contract : Address} {crypto : Crypto} {env : Env contract} {s s' : State}
  {es : List (Step contract)}

section Quantities

/-- The contract set up, before anybody has applied. -/
def State.configured (admin : Option Address) (coordinator : Address → Bool)
    (policy : Bytes32 → Option ProgramPolicy) : State :=
  { State.empty with admin, coordinator, policy }

/-- An application of the program that is still under way. -/
def PendingIn (programId : Bytes32) : Option Application → Prop
  | some application => application.programId = programId ∧ application.status.isFinal = false
  | none => False

instance (programId : Bytes32) : DecidablePred (PendingIn programId)
  | some application =>
    inferInstanceAs (Decidable (application.programId = programId ∧ application.status.isFinal = false))
  | none => inferInstanceAs (Decidable False)

/-- The application that a call names. -/
def Call.subject : Call → Option Bytes32
  | .recordDecision _ id _ _ | .withdrawApplication _ id _ | .reapply _ id _ => some id
  | _ => none

/-- The bytes that a call has hashed into an application id. -/
def preimage (crypto : Crypto) (e : Step contract) : Option (List Byte) :=
  let hashed (programId : Bytes32) (applicant : Address) (attempt : Nat) :=
    applicationPreimage (e.pre.applicationCount + 1) e.input.env.timestamp
      (applicationSalt crypto programId applicant attempt)
  match e.input.call with
  | .openApplication applicant programId _ => some (hashed programId applicant 1)
  | .reapply _ previousId _ =>
    match e.pre.reappliedFrom previousId, e.pre.application previousId with
    | none, some previous =>
      some (hashed previous.programId previous.applicant (previous.attempt + 1))
    | _, _ => none
  | _ => none

/-- The bytes that the calls have hashed into application ids. -/
def hashed (crypto : Crypto) (es : List (Step contract)) : List (List Byte) :=
  es.filterMap (preimage crypto)

end Quantities

/-- The history of an application is numbered from 1 to its count without a gap. -/
structure Application.Recorded (application : Application) (history : Nat → Option DecisionRecord) :
    Prop where
  latest : application.lastDecisionSeq = application.decisionCount
  dense : ∀ seq, history seq ≠ none ↔ 1 ≤ seq ∧ seq ≤ application.decisionCount
  numbered : ∀ seq record, history seq = some record →
    record.seq = seq ∧ record.applicationId = application.id

/-- The stored applications after the calls `es`. -/
structure Books (crypto : Crypto) (s : State) (es : List (Step contract)) : Prop where
  ids : ∀ id application, s.application id = some application → application.id = id
  finite : ∀ programId, {id | PendingIn programId (s.application id)}.Finite
  active : ∀ programId,
    s.activeCount programId = {id | PendingIn programId (s.application id)}.ncard
  history : ∀ id application, s.application id = some application →
    application.Recorded fun seq => s.decision (id, seq)
  orphan : ∀ id, s.application id = none → ∀ seq, s.decision (id, seq) = none
  issued : Issued crypto.sha256 (fun id => s.application id ≠ none) s.applicationCount
    (hashed crypto es)

section Books

theorem books_configured {admin : Option Address} {coordinator : Address → Bool}
    {policy : Bytes32 → Option ProgramPolicy} :
    Books crypto (State.configured admin coordinator policy) ([] : List (Step contract)) where
  ids _ _ h := by cases h
  finite _ := Set.finite_empty
  active _ := Set.ncard_empty _ |>.symm
  history _ _ h := by cases h
  orphan _ _ _ := rfl
  issued := issued_empty.mono fun _ h => h rfl

theorem hashed_snoc (e : Step contract) :
    hashed crypto (es ++ [e]) = hashed crypto es ++ (preimage crypto e).toList := filterMap_snoc e

theorem hashed_left {fs : List (Step contract)}
    (h : CollisionFree crypto.sha256 (hashed crypto (es ++ fs))) :
    CollisionFree crypto.sha256 (hashed crypto es) := h.filterMap_left

theorem applicationPreimage_start {next timestamp : Nat} {salt : List Byte} :
    ∃ rest, applicationPreimage next timestamp salt = beBytes 8 next ++ rest := by
  rw [applicationPreimage, List.append_assoc]
  exact ⟨_, rfl⟩

/-- The id of the next application is not in use. -/
theorem Books.fresh (hs : Books crypto s es) {e : Step contract} {timestamp : Nat} {id : Bytes32}
    {salt : List Byte} (hfree : CollisionFree crypto.sha256 (hashed crypto (es ++ [e])))
    (hfits : s.applicationCount + 1 < 2^64)
    (hpreimage : preimage crypto e =
      some (applicationPreimage (s.applicationCount + 1) timestamp salt))
    (hid : id = crypto.sha256 (applicationPreimage (s.applicationCount + 1) timestamp salt)) :
    s.application id = none := by
  obtain ⟨rest, hstart⟩ := @applicationPreimage_start (s.applicationCount + 1) timestamp salt
  rw [hashed_snoc, hpreimage] at hfree
  rw [hid]
  exact not_not.mp (hs.issued.fresh hstart hfits hfree)

/-- A call that leaves the applications keeps the books. -/
theorem Books.leave (hs : Books crypto s es) {e : Step contract}
    (happlication : s'.application = s.application) (hcount : s'.applicationCount = s.applicationCount)
    (hdecision : s'.decision = s.decision) (hactive : s'.activeCount = s.activeCount)
    (hpreimage : preimage crypto e = none) : Books crypto s' (es ++ [e]) where
  ids := by rw [happlication]; exact hs.ids
  finite := by rw [happlication]; exact hs.finite
  active := by rw [happlication, hactive]; exact hs.active
  history := by rw [happlication, hdecision]; exact hs.history
  orphan := by rw [happlication, hdecision]; exact hs.orphan
  issued := by
    rw [hashed_snoc, hpreimage, Option.toList_none, List.append_nil, happlication, hcount]
    exact hs.issued

/-- A new application adds one to those under way in its program. -/
theorem Books.enter (hs : Books crypto s es) {e : Step contract} {id : Bytes32}
    {application : Application} {timestamp : Nat} {salt : List Byte}
    (hnew : s.application id = none) (hfresh : ∃ programId applicant attempt consent previous now,
      application = newApplication id programId applicant attempt consent previous now)
    (happlication : s'.application = Function.update s.application id (some application))
    (hactive : s'.activeCount = Function.update s.activeCount application.programId
      (s.activeCount application.programId + 1))
    (hdecision : s'.decision = s.decision) (hcount : s'.applicationCount = s.applicationCount + 1)
    (hfits : s.applicationCount + 1 < 2^64)
    (hpreimage : preimage crypto e =
      some (applicationPreimage (s.applicationCount + 1) timestamp salt))
    (hid : id = crypto.sha256 (applicationPreimage (s.applicationCount + 1) timestamp salt)) :
    Books crypto s' (es ++ [e]) := by
  obtain ⟨programId, applicant, attempt, consent, previous, now, rfl⟩ := hfresh
  refine ⟨?_, ?_, ?_, ?_, ?_, ?_⟩
  · exact forall_update_row hs.ids happlication rfl
  · intro other
    rw [happlication]
    exact finite_update_row (hs.finite other) _ _
  · intro other
    have hmoved := ncard_update_row (hs.finite other) id
      (some (newApplication id programId applicant attempt consent previous now))
    have hold : ¬ PendingIn other (s.application id) := by
      rw [hnew]
      exact not_false
    rw [if_neg hold, Nat.add_zero] at hmoved
    rw [happlication, hmoved, ← hs.active, hactive]
    show Function.update s.activeCount programId (s.activeCount programId + 1) other = _
    by_cases hprogram : other = programId
    · have hthis : PendingIn other
          (some (newApplication id programId applicant attempt consent previous now)) :=
        ⟨hprogram.symm, rfl⟩
      rw [if_pos hthis, hprogram, Function.update_self]
    · have hother : ¬ PendingIn other
          (some (newApplication id programId applicant attempt consent previous now)) :=
        fun h => hprogram h.1.symm
      rw [if_neg hother, Function.update_of_ne hprogram, Nat.add_zero]
  · rw [hdecision]
    apply forall_update_row hs.history happlication
    have hnone := hs.orphan id hnew
    refine ⟨rfl, ?_, ?_⟩
    · intro seq
      constructor
      · exact fun hrecorded => absurd (hnone seq) hrecorded
      · intro hrange
        have hzero : seq ≤ 0 := hrange.2
        omega
    · intro seq record hrecord
      rw [hnone seq] at hrecord
      cases hrecord
  · intro x hnone seq
    rw [happlication] at hnone
    have hne : x ≠ id := by
      intro heq
      rw [heq, Function.update_self] at hnone
      cases hnone
    rw [hdecision]
    exact hs.orphan x ((Function.update_of_ne hne _ _).symm.trans hnone) seq
  · obtain ⟨rest, hstart⟩ := @applicationPreimage_start (s.applicationCount + 1) timestamp salt
    rw [hashed_snoc, hpreimage, happlication, hcount]
    exact hs.issued.insert hstart hfits hid

/-- What every decision that is written down has in common. -/
theorem Resolution.record_of {id : Bytes32} {application : Application} {call : Call}
    {record : DecisionRecord} (h : Resolution env s id application call record) :
    record.applicationId = id ∧ record.seq = application.decisionCount + 1 ∧
      record.recordedAt = env.timestamp ∧ call.subject = some id := by
  cases h with
  | decision => exact ⟨rfl, rfl, rfl, rfl⟩
  | withdrawal => exact ⟨rfl, rfl, rfl, rfl⟩

/-- The next entry of a history carries it on. -/
theorem Application.Recorded.append {application : Application} {record : DecisionRecord}
    {history : Nat → Option DecisionRecord} (h : application.Recorded history)
    (hid : record.applicationId = application.id)
    (hseq : record.seq = application.decisionCount + 1) :
    (application.decided record).Recorded (Function.update history record.seq (some record)) := by
  refine ⟨rfl, ?_, ?_⟩
  · intro seq
    show Function.update history record.seq (some record) seq ≠ none ↔ 1 ≤ seq ∧ seq ≤ record.seq
    by_cases hnew : seq = record.seq
    · rw [hnew, Function.update_self]
      simp only [ne_eq, reduceCtorEq, not_false_eq_true, true_iff]
      omega
    · rw [Function.update_of_ne hnew, h.dense]
      omega
  · intro seq row hrow
    rcases update_row_cases hrow with ⟨rfl, rfl⟩ | ⟨_, hold⟩
    · exact ⟨rfl, hid⟩
    · exact h.numbered seq row hold

theorem Books.resolve_row (hs : Books crypto s es) {id : Bytes32} {application : Application}
    (hfound : s.application id = some application) (record : DecisionRecord) :
    (s.resolve application record).application id = some (application.decided record) := by
  show Function.update s.application application.id _ id = _
  rw [hs.ids id application hfound, Function.update_self]

/-- A decision takes its application from those under way exactly when it is final. -/
theorem Books.resolve (hs : Books crypto s es) {e : Step contract} {id : Bytes32}
    {application : Application} {record : DecisionRecord}
    (hfound : s.application id = some application)
    (hpending : application.status.isFinal = false) (hsubject : record.applicationId = id)
    (hseq : record.seq = application.decisionCount + 1) (hpreimage : preimage crypto e = none) :
    Books crypto (s.resolve application record) (es ++ [e]) := by
  have hid := hs.ids id application hfound
  have hwritten : (s.resolve application record).application =
      Function.update s.application id (some (application.decided record)) := by
    rw [← hid]
    rfl
  have hdecision : (s.resolve application record).decision =
      Function.update s.decision (id, record.seq) (some record) := by
    rw [← hsubject]
    rfl
  refine ⟨?_, ?_, ?_, ?_, ?_, ?_⟩
  · exact forall_update_row hs.ids hwritten hid
  · intro programId
    rw [hwritten]
    exact finite_update_row (hs.finite programId) _ _
  · intro programId
    have hmoved := ncard_update_row (hs.finite programId) id (some (application.decided record))
    rw [hwritten]
    rw [hfound] at hmoved
    have hbefore : PendingIn programId (some application) ↔ application.programId = programId :=
      and_iff_left hpending
    have hafter : PendingIn programId (some (application.decided record)) ↔
        application.programId = programId ∧ record.resultingStatus.isFinal = false := Iff.rfl
    simp only [hbefore, hafter] at hmoved
    have hcounter : (s.resolve application record).activeCount programId =
        if record.resultingStatus.isFinal = true ∧ application.programId = programId then
          s.activeCount programId - 1
        else s.activeCount programId := by
      unfold State.resolve
      by_cases hfinal : record.resultingStatus.isFinal = true
      · by_cases hprogram : application.programId = programId
        · simp [hfinal, hprogram]
        · simp [hfinal, hprogram, Function.update_of_ne (Ne.symm hprogram)]
      · simp [hfinal]
    rw [hcounter, hs.active]
    by_cases hprogram : application.programId = programId
    · cases hfinal : record.resultingStatus.isFinal
      · simp [hprogram, hfinal] at hmoved ⊢
        exact hmoved.symm
      · simp [hprogram, hfinal] at hmoved ⊢
        omega
    · simp [hprogram] at hmoved ⊢
      exact hmoved.symm
  · intro x row hrow
    rw [hwritten] at hrow
    rcases update_row_cases hrow with ⟨rfl, rfl⟩ | ⟨hx, hold⟩
    · have happended := (hs.history x application hfound).append (hsubject.trans hid.symm) hseq
      rw [hdecision, update_line]
      exact happended
    · have hsame := hs.history x row hold
      simp only [hdecision, update_other_line _ _ _ _ hx]
      exact hsame
  · intro x hnone seq
    rw [hwritten] at hnone
    have hx : x ≠ id := by
      intro heq
      rw [heq, Function.update_self] at hnone
      cases hnone
    rw [Function.update_of_ne hx] at hnone
    rw [hdecision, update_other_line _ _ _ _ hx]
    exact hs.orphan x hnone seq
  · rw [hashed_snoc, hpreimage, Option.toList_none, List.append_nil, hwritten]
    exact hs.issued.rewrite hfound

theorem Replayed.preimage_none {call : Call} {answer : Answer} (h : Replayed s call answer) :
    preimage crypto (⟨s, ⟨env, call⟩, answer, s'⟩ : Step contract) = none := by
  cases h with
  | decision => rfl
  | withdrawal => rfl
  | reapplication hlinked => simp [preimage, hlinked]

theorem Resolution.preimage_none {id : Bytes32} {application : Application} {call : Call}
    {record : DecisionRecord} {answer : Answer}
    (h : Resolution env s id application call record) :
    preimage crypto (⟨s, ⟨env, call⟩, answer, s'⟩ : Step contract) = none := by
  cases h with
  | decision => rfl
  | withdrawal => rfl

theorem preimage_reapply {previousId : Bytes32} {previous : Application} {applicant : Address}
    {consentVersion : Nat} {answer : Answer} (hunlinked : s.reappliedFrom previousId = none)
    (hfound : s.application previousId = some previous) :
    preimage crypto
        (⟨s, ⟨env, .reapply applicant previousId consentVersion⟩, answer, s'⟩ : Step contract) =
      some (applicationPreimage (s.applicationCount + 1) env.timestamp
        (applicationSalt crypto previous.programId previous.applicant (previous.attempt + 1))) := by
  simp only [preimage, hunlinked, hfound]

/-- Every accepted call keeps the books. -/
theorem Effect.books {i : Input contract} {o : Answer} (h : Effect crypto i.env s i.call o s')
    (hs : Books crypto s es)
    (hfree : CollisionFree crypto.sha256
      (hashed crypto (es ++ [(⟨s, i, o, s'⟩ : Step contract)]))) :
    Books crypto s' (es ++ [⟨s, i, o, s'⟩]) := by
  obtain ⟨env, call⟩ := i
  cases h with
  | appoint => exact hs.leave rfl rfl rfl rfl rfl
  | coordinate => exact hs.leave rfl rfl rfl rfl rfl
  | configure => exact hs.leave rfl rfl rfl rfl rfl
  | submit _ _ _ hfits hhashed =>
    exact hs.enter (hs.fresh hfree hfits rfl hhashed) ⟨_, _, _, _, _, _, rfl⟩ rfl rfl rfl rfl hfits rfl
      hhashed
  | reapply _ hunlinked hfound _ _ _ _ _ hfits hhashed =>
    have hnew := hs.fresh hfree hfits (preimage_reapply hunlinked hfound) hhashed
    exact hs.enter hnew ⟨_, _, _, _, _, _, rfl⟩ rfl rfl rfl rfl hfits (preimage_reapply hunlinked hfound)
      hhashed
  | resolve hfound hpending _ hresolution =>
    obtain ⟨hsubject, hseq, _⟩ := hresolution.record_of
    exact hs.resolve hfound hpending hsubject hseq hresolution.preimage_none
  | replay hreplayed => exact hs.leave rfl rfl rfl rfl hreplayed.preimage_none

end Books

/-- How a stored application may go on: a final one stays as it is. -/
structure Application.Becomes (old new : Application) : Prop where
  programId : new.programId = old.programId
  applicant : new.applicant = old.applicant
  submittedAt : new.submittedAt = old.submittedAt
  final : old.status.isFinal = true → new = old

/-- Applications stay, and their histories only grow. -/
structure Grows (s s' : State) : Prop where
  rows : ∀ id old, s.application id = some old →
    ∃ new, s'.application id = some new ∧ old.Becomes new
  decisions : ∀ id record, s.decision id = some record → s'.decision id = some record

section Growth

theorem Application.Becomes.refl (application : Application) : application.Becomes application :=
  ⟨rfl, rfl, rfl, fun _ => rfl⟩

theorem Application.Becomes.trans {a b c : Application} (hab : a.Becomes b) (hbc : b.Becomes c) :
    a.Becomes c where
  programId := hbc.programId.trans hab.programId
  applicant := hbc.applicant.trans hab.applicant
  submittedAt := hbc.submittedAt.trans hab.submittedAt
  final hfinal := by
    have hsame := hab.final hfinal
    rw [hbc.final (hsame ▸ hfinal), hsame]

theorem grows_same (happlication : s'.application = s.application)
    (hdecision : s'.decision = s.decision) : Grows s s' where
  rows _ old h := ⟨old, by rwa [happlication], .refl old⟩
  decisions _ _ h := by rwa [hdecision]

theorem Grows.trans {a b c : State} (hab : Grows a b) (hbc : Grows b c) : Grows a c where
  rows id old hold := by
    obtain ⟨mid, hmid, hbecomes⟩ := hab.rows id old hold
    obtain ⟨new, hnew, hbecomes'⟩ := hbc.rows id mid hmid
    exact ⟨new, hnew, hbecomes.trans hbecomes'⟩
  decisions id record h := hbc.decisions id record (hab.decisions id record h)

theorem Grows.absent (h : Grows s s') {id : Bytes32} (habsent : s'.application id = none) :
    s.application id = none := by
  by_contra hstored
  obtain ⟨row, hrow⟩ := Option.ne_none_iff_exists'.mp hstored
  obtain ⟨_, hrow', _⟩ := h.rows id row hrow
  rw [habsent] at hrow'
  cases hrow'

/-- A new application leaves all others. -/
theorem grows_enter {application : Application} (hnew : s.application application.id = none) :
    Grows s (s.enter application) where
  rows _ old hold := ⟨old, update_keeps_row hnew hold, .refl old⟩
  decisions _ _ h := h

theorem Books.grows_resolve (hs : Books crypto s es) {id : Bytes32} {application : Application}
    {record : DecisionRecord} (hfound : s.application id = some application)
    (hpending : application.status.isFinal = false) (hsubject : record.applicationId = id)
    (hseq : record.seq = application.decisionCount + 1) :
    Grows s (s.resolve application record) where
  rows x old hold := by
    have hid := hs.ids id application hfound
    show ∃ new, Function.update s.application application.id _ x = some new ∧ _
    rw [hid]
    by_cases hx : x = id
    · rw [hx, hfound, Option.some.injEq] at hold
      rw [hx, Function.update_self, ← hold]
      refine ⟨_, rfl, rfl, rfl, rfl, ?_⟩
      intro hfinal
      rw [hpending] at hfinal
      cases hfinal
    · rw [Function.update_of_ne hx]
      exact ⟨old, hold, .refl old⟩
  decisions x row hrow := by
    have hdense := (hs.history id application hfound).dense record.seq
    have hnone : s.decision (record.applicationId, record.seq) = none := by
      rw [hsubject]
      by_contra hsome
      have := (hdense.mp hsome).2
      omega
    exact update_keeps_row hnone hrow

/-- Every accepted call keeps what is stored. -/
theorem Effect.grows {i : Input contract} {o : Answer} (h : Effect crypto i.env s i.call o s')
    (hs : Books crypto s es)
    (hfree : CollisionFree crypto.sha256
      (hashed crypto (es ++ [(⟨s, i, o, s'⟩ : Step contract)]))) : Grows s s' := by
  obtain ⟨env, call⟩ := i
  cases h with
  | appoint => exact grows_same rfl rfl
  | coordinate => exact grows_same rfl rfl
  | configure => exact grows_same rfl rfl
  | submit _ _ _ hfits hhashed => exact grows_enter (hs.fresh hfree hfits rfl hhashed)
  | reapply _ hunlinked hfound _ _ _ _ _ hfits hhashed =>
    have hnew := hs.fresh hfree hfits (preimage_reapply hunlinked hfound) hhashed
    exact (grows_enter hnew).trans (grows_same rfl rfl)
  | resolve hfound hpending _ hresolution =>
    obtain ⟨hsubject, hseq, _⟩ := hresolution.record_of
    exact hs.grows_resolve hfound hpending hsubject hseq
  | replay => exact grows_same rfl rfl

/-- A call that does not name an application leaves it and its history. -/
theorem Effect.frame {i : Input contract} {o : Answer} {id : Bytes32} {application : Application}
    (h : Effect crypto i.env s i.call o s') (hs : Books crypto s es)
    (hfree : CollisionFree crypto.sha256
      (hashed crypto (es ++ [(⟨s, i, o, s'⟩ : Step contract)])))
    (hstored : s.application id = some application) (hother : i.call.subject ≠ some id) :
    s'.application id = some application ∧ ∀ seq, s'.decision (id, seq) = s.decision (id, seq) := by
  obtain ⟨env, call⟩ := i
  cases h with
  | appoint => exact ⟨hstored, fun _ => rfl⟩
  | coordinate => exact ⟨hstored, fun _ => rfl⟩
  | configure => exact ⟨hstored, fun _ => rfl⟩
  | submit _ _ _ hfits hhashed =>
    have hnew := hs.fresh hfree hfits rfl hhashed
    exact ⟨update_keeps_row hnew hstored, fun _ => rfl⟩
  | reapply _ hunlinked hfound _ _ _ _ _ hfits hhashed =>
    have hnew := hs.fresh hfree hfits (preimage_reapply hunlinked hfound) hhashed
    exact ⟨update_keeps_row hnew hstored, fun _ => rfl⟩
  | @resolve _ named row record hfound _ _ hresolution =>
    obtain ⟨hsubject, _, _, hcall⟩ := hresolution.record_of
    have hne : id ≠ named := fun heq => hother (heq ▸ hcall)
    refine ⟨?_, ?_⟩
    · show Function.update s.application row.id _ id = _
      rw [hs.ids named row hfound, Function.update_of_ne hne]
      exact hstored
    · intro seq
      show Function.update s.decision (record.applicationId, record.seq) _ (id, seq) = _
      rw [hsubject]
      exact update_other_line _ _ _ _ hne seq
  | replay => exact ⟨hstored, fun _ => rfl⟩

end Growth

section Runs

/-- From kept books on, the books are kept, what is stored stays, and what no call names stays as it
is. -/
theorem run_books (hs : Books crypto s es) (is : List (Input contract))
    (hfree : CollisionFree crypto.sha256
      (hashed crypto (es ++ (machine contract crypto).journal s is))) :
    Books crypto ((machine contract crypto).run s is)
      (es ++ (machine contract crypto).journal s is) ∧
    Grows s ((machine contract crypto).run s is) ∧
    ∀ id application, s.application id = some application →
      (∀ i ∈ is, i.call.subject ≠ some id) →
      ((machine contract crypto).run s is).application id = some application ∧
        ∀ seq, ((machine contract crypto).run s is).decision (id, seq) = s.decision (id, seq) := by
  let P (t : State) (fs : List (Step contract)) : Prop :=
    CollisionFree crypto.sha256 (hashed crypto (es ++ fs)) →
      Books crypto t (es ++ fs) ∧ Grows s t ∧
      ∀ id application, s.application id = some application →
        (∀ e ∈ fs, e.input.call.subject ≠ some id) →
        t.application id = some application ∧ ∀ seq, t.decision (id, seq) = s.decision (id, seq)
  have hstart : P s [] := by
    intro _
    rw [List.append_nil]
    exact ⟨hs, grows_same rfl rfl, fun _ _ hstored _ => ⟨hstored, fun _ => rfl⟩⟩
  have hstep : ∀ fs t (i : Input contract) o t', P t fs →
      (machine contract crypto).step t i = .ok (o, t') → P t' (fs ++ [⟨t, i, o, t'⟩]) := by
    intro fs t i o t' ht h hfree
    rw [← List.append_assoc] at hfree ⊢
    obtain ⟨hbooks, hgrows, hframe⟩ := ht (hashed_left hfree)
    have heffect := step_effect h
    refine ⟨heffect.books hbooks hfree, hgrows.trans (heffect.grows hbooks hfree), ?_⟩
    intro id application hstored hothers
    obtain ⟨hrow, hhistory⟩ := hframe id application hstored
      fun e he => hothers e (List.mem_append_left _ he)
    obtain ⟨hrow', hhistory'⟩ := heffect.frame hbooks hfree hrow
      (hothers _ List.mem_concat_self)
    exact ⟨hrow', fun seq => (hhistory' seq).trans (hhistory seq)⟩
  obtain ⟨hbooks, hgrows, hframe⟩ := Machine.run_journal_invariant hstart hstep is hfree
  refine ⟨hbooks, hgrows, fun id application hstored hothers => ?_⟩
  apply hframe id application hstored
  intro e he
  obtain ⟨_, js, hjs, _⟩ := Machine.journal_prefix he
  exact hothers _ (hjs.subset List.mem_concat_self)

end Runs

section Samples

/-- The SHA-256 digests of three preimages: the first application of applicant 2 in program 5, a
second first application and a reapplication. -/
def sampleIds : Bytes32 × Bytes32 × Bytes32 :=
  (0x1231afc553c41c8ee2fecdc1f200ffcdd35ca626d88061cf2a95f411d35707b2,
    0xd6c2f16c7efd11eb689f248c291a7d5fbccc8aa7a02eb1caaf6da1333aa38fbf,
    0x2c6766ddcabece5275782c672915a4a8bc417781e32b66d2c916d1a40bf760e3)

def sampleCrypto : Crypto where
  sha256 p :=
    if p = beBytes 8 1 ++ beBytes 8 10 ++ (bytes32 5 ++ accountXdr ⟨2⟩ ++ beBytes 4 1) then
      sampleIds.1
    else if p = beBytes 8 2 ++ beBytes 8 20 ++ (bytes32 5 ++ accountXdr ⟨2⟩ ++ beBytes 4 1) then
      sampleIds.2.1
    else if p = beBytes 8 2 ++ beBytes 8 20 ++ (bytes32 5 ++ accountXdr ⟨2⟩ ++ beBytes 4 2) then
      sampleIds.2.2
    else 0
  addressXdr := accountXdr

/-- Program 5 with the given number of attempts and a cooldown of 5, under the admin 1. -/
def sampleConfigured (maxAttempts : Nat) : State :=
  State.configured (some ⟨1⟩) (fun _ => false) fun programId =>
    if programId = 5 then some ⟨0, 0, true, 5, maxAttempts, 0⟩ else none

end Samples

end ChainVerse.MentorshipApplications
