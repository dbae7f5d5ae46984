import ChainVerse.Framework.Histories
import ChainVerse.Framework.Tables
import ChainVerse.Intake.Steps

namespace ChainVerse.ScholarshipApplications

variable {contract : Address} {env : Env contract} {s s' : State} {call : Call} {o : Answer} {id : Nat}
  {request : PrivacyRequest} {key : Address × Bytes32} {earlier : List (Step contract)}
  {e : Step contract}

section Requests

/-- Requests are numbered and concern applications that there are. -/
structure Filed (s : State) (id : Nat) (request : PrivacyRequest) : Prop where
  named : request.id = id
  numbered : id ≤ s.requestCounter
  applied : s.application request.subject ≠ none

def AllFiled (s : State) : Prop := ∀ id request, s.request id = some request → Filed s id request

/-- An application is never taken back. -/
theorem applied_ne_none (request : PrivacyRequest) {application : Address × Bytes32 → Option Application}
    (h : application key ≠ none) : request.applied application key ≠ none := by
  unfold PrivacyRequest.applied
  rcases hfound : application request.subject with _ | app
  · exact h
  · simp only
    by_cases hsame : key = request.subject
    · rw [hsame, Function.update_self]
      exact Option.some_ne_none _
    · rwa [Function.update_of_ne hsame]

theorem Effect.applied (h : Effect s call o s') (happlied : s.application key ≠ none) :
    s'.application key ≠ none := by
  cases h with
  | quiet _ _ _ hrecords => rwa [hrecords.application]
  | enrolled _ _ _ _ _ hrecords => rwa [hrecords.application]
  | assigned _ _ _ _ _ _ hrecords => rwa [hrecords.application]
  | filed _ _ _ _ _ _ happlications => rwa [happlications]
  | denied _ _ _ _ _ _ happlications => rwa [happlications]
  | submitted _ _ _ hfirst happlications =>
    obtain ⟨app, happ⟩ := Option.ne_none_iff_exists'.mp happlied
    rw [happlications, update_keeps_row hfirst happ]
    exact Option.some_ne_none app
  | approved _ _ _ _ _ _ happlications =>
    rw [happlications]
    exact applied_ne_none _ happlied

/-- A request that is written over stays about the same application. -/
theorem Filed.decide {decided : PrivacyRequest} (h : Filed s id request)
    (hsame : SameRequest request decided) : Filed s id decided where
  named := hsame.id.trans h.named
  numbered := h.numbered
  applied := by
    rw [hsame.subject]
    exact h.applied

theorem Effect.allFiled (h : Effect s call o s') (hs : AllFiled s) : AllFiled s' := by
  have hkept : ∀ id request, Filed s id request → s.requestCounter ≤ s'.requestCounter →
      Filed s' id request :=
    fun id request hfiled hcounter =>
      ⟨hfiled.named, hfiled.numbered.trans hcounter, h.applied hfiled.applied⟩
  intro id request hrow
  have hsame : s'.request = s.request → s'.requestCounter = s.requestCounter → Filed s' id request := by
    intro hrequests hcounter
    rw [hrequests] at hrow
    exact hkept id request (hs id request hrow) hcounter.ge
  have hdecided : ∀ {found : Nat} {stored decided : PrivacyRequest}, s.request found = some stored →
      SameRequest stored decided → s'.request = Function.update s.request found (some decided) →
        s'.requestCounter = s.requestCounter → Filed s' id request := by
    intro found stored decided hfound hdecision hrequests hcounter
    rw [hrequests] at hrow
    rcases update_row_cases hrow with ⟨rfl, rfl⟩ | ⟨_, hold⟩
    · exact hkept _ _ ((hs _ stored hfound).decide hdecision) hcounter.ge
    · exact hkept id request (hs id request hold) hcounter.ge
  cases h with
  | quiet _ _ _ hrecords => exact hsame hrecords.request hrecords.requestCounter
  | enrolled _ _ _ _ _ hrecords => exact hsame hrecords.request hrecords.requestCounter
  | assigned _ _ _ _ _ _ hrecords => exact hsame hrecords.request hrecords.requestCounter
  | submitted _ _ _ _ _ hrequests hcounter => exact hsame hrequests hcounter
  | denied _ _ _ hfound _ hdecision _ hrequests hcounter =>
    exact hdecided hfound hdecision hrequests hcounter
  | approved _ _ _ hfound _ hdecision _ hrequests hcounter =>
    exact hdecided hfound hdecision hrequests hcounter
  | @filed _ written _ _ _ hnext _ happlied happlications hrequests hcounter =>
    rw [hrequests] at hrow
    rcases update_row_cases hrow with ⟨rfl, rfl⟩ | ⟨_, hold⟩
    · refine ⟨rfl, hcounter.ge, ?_⟩
      rwa [happlications]
    · apply hkept id request (hs id request hold)
      omega

theorem allFiled_empty : AllFiled State.empty :=
  fun _ _ h => absurd h (Option.some_ne_none _).symm

theorem run_allFiled (is : List (Input contract)) : AllFiled ((machine contract).run State.empty is) :=
  Machine.run_invariant allFiled_empty (fun _ _ _ _ hs h => (step_effect h).allFiled hs) is

end Requests

section Hashes

/-- The call of a line approves the request. -/
def Approves (request : PrivacyRequest) (e : Step contract) : Prop :=
  ∃ id, e.input.call.approves = some id ∧ e.pre.request id = some request

def Erased (s : State) (key : Address × Bytes32) : Prop :=
  ∃ app, s.application key = some app ∧ app.dataHash = 0

/-- What an approval leaves on the application. -/
theorem Effect.approval (h : Effect s call o s') (hs : AllFiled s) (happroves : call.approves = some id)
    (hfound : s.request id = some request) : ∃ app, s'.application request.subject = some app ∧
      app.dataHash = request.outcome := by
  have hnone : call.approves ≠ none := by
    rw [happroves]
    exact Option.some_ne_none id
  cases h with
  | quiet _ h => exact absurd h hnone
  | enrolled _ h => exact absurd h hnone
  | assigned _ h => exact absurd h hnone
  | submitted _ h => exact absurd h hnone
  | filed _ h => exact absurd h hnone
  | denied _ h => exact absurd h hnone
  | @approved _ _ known stored _ _ happroved _ hstored _ _ happlications =>
    obtain rfl : known = id := Option.some.inj (happroved.symm.trans happroves)
    obtain rfl : stored = request := Option.some.inj (hstored.symm.trans hfound)
    obtain ⟨app, happ⟩ := Option.ne_none_iff_exists'.mp (hs known stored hstored).applied
    refine ⟨{ app with dataHash := stored.outcome }, ?_, rfl⟩
    unfold PrivacyRequest.applied at happlications
    rw [happlications, happ]
    exact Function.update_self _ _ _

/-- An application that is not the subject of an approved request stays as it is. -/
theorem Effect.application (h : Effect s call o s') {app : Application}
    (happ : s.application key = some app)
    (hnone : ∀ id request, call.approves = some id → s.request id = some request →
      request.subject ≠ key) : s'.application key = some app := by
  cases h with
  | quiet _ _ _ hrecords => rwa [hrecords.application]
  | enrolled _ _ _ _ _ hrecords => rwa [hrecords.application]
  | assigned _ _ _ _ _ _ hrecords => rwa [hrecords.application]
  | filed _ _ _ _ _ _ happlications => rwa [happlications]
  | denied _ _ _ _ _ _ happlications => rwa [happlications]
  | submitted _ _ _ hfirst happlications =>
    rw [happlications]
    exact update_keeps_row hfirst happ
  | @approved _ _ id request _ _ happroves _ hfound _ _ happlications =>
    have hother := hnone id request happroves hfound
    rw [happlications]
    unfold PrivacyRequest.applied
    rcases s.application request.subject with _ | stored
    · exact happ
    · exact (Function.update_of_ne hother.symm _ _).trans happ

/-- The call of a line approves an erasure of the application. -/
def Erases (key : Address × Bytes32) (e : Step contract) : Prop :=
  ∃ request, Approves request e ∧ request.requestType = .erasure ∧ request.subject = key

/-- The call of a line approves a correction that puts another hash on the application. -/
def Overwrites (key : Address × Bytes32) (e : Step contract) : Prop :=
  ∃ request, Approves request e ∧ request.requestType = .correction ∧ request.subject = key ∧
    request.targetDataHash ≠ 0

/-- An erased application stays so until a correction overwrites it. -/
theorem run_since (is : List (Input contract)) (key : Address × Bytes32)
    (h : Since (Erases key) (Overwrites key) ((machine contract).journal State.empty is)) :
    Erased ((machine contract).run State.empty is) key := by
  refine (@Machine.run_journal_invariant _ _ _ _ (machine contract)
    (fun t es => AllFiled t ∧ (Since (Erases key) (Overwrites key) es → Erased t key)) State.empty
    ⟨allFiled_empty, ?_⟩ ?_ is).2 h
  · intro ⟨earlier, x, later, hsplit, _⟩
    cases earlier <;> cases hsplit
  · intro es s i o s' ⟨hfiled, herased⟩ hstep
    have heffect := step_effect hstep
    refine ⟨heffect.allFiled hfiled, fun hsince => ?_⟩
    rcases since_snoc.mp hsince with ⟨request, ⟨id, happroves, hfound⟩, hkind, rfl⟩ | ⟨hbefore, hkept⟩
    · obtain ⟨app, happ, hhash⟩ := heffect.approval hfiled happroves hfound
      refine ⟨app, happ, ?_⟩
      rw [hhash, PrivacyRequest.outcome, hkind]
    · obtain ⟨app, happ, hzero⟩ := herased hbefore
      by_cases hsubject : ∃ id request, i.call.approves = some id ∧ s.request id = some request ∧
          request.subject = key
      · obtain ⟨id, request, happroves, hfound, rfl⟩ := hsubject
        obtain ⟨app', happ', hhash⟩ := heffect.approval hfiled happroves hfound
        refine ⟨app', happ', ?_⟩
        rw [hhash, PrivacyRequest.outcome]
        cases hkind : request.requestType with
        | erasure => rfl
        | correction =>
          by_contra hother
          exact hkept ⟨request, ⟨id, happroves, hfound⟩, hkind, rfl, hother⟩
      · refine ⟨app, heffect.application happ ?_, hzero⟩
        intro id request happroves hfound hsame
        exact hsubject ⟨id, request, happroves, hfound, hsame⟩

end Hashes

section Runs

/-- An erasure of the application was approved when the request had already been filed. -/
def Overtaken (earlier : List (Step contract)) (request : PrivacyRequest) : Prop :=
  ∃ e ∈ earlier, Erases request.subject e ∧ e.pre.request request.id ≠ none

/-- After the lines before it, a line approves a correction that an erasure has overtaken. -/
structure Stale (earlier : List (Step contract)) (e : Step contract) (request : PrivacyRequest) :
    Prop where
  approves : Approves request e
  correction : request.requestType = .correction
  overtaken : Overtaken earlier request

/-- What holds of every stale correction that is approved in a run. -/
def EveryStale (es : List (Step contract)) (P : Step contract → PrivacyRequest → Prop) : Prop :=
  ∀ earlier e later, es = earlier ++ e :: later → ∀ request, Stale earlier e request → P e request

/-- An approved correction leaves the application erased just when its own hash is zero. -/
theorem erased_iff (hstep : (machine contract).step e.pre e.input = .ok (e.output, e.post))
    (hs : AllFiled e.pre) (hstale : Stale earlier e request) :
    Erased e.post request.subject ↔ request.targetDataHash = 0 := by
  obtain ⟨id, happroves, hfound⟩ := hstale.approves
  obtain ⟨app, happ, hhash⟩ := (step_effect hstep).approval hs happroves hfound
  rw [PrivacyRequest.outcome, hstale.correction] at hhash
  constructor
  · intro ⟨known, hknown, hzero⟩
    obtain rfl : known = app := Option.some.inj (hknown.symm.trans happ)
    exact hhash.symm.trans hzero
  · exact fun hzero => ⟨app, happ, hhash.trans hzero⟩

theorem run_erased_iff (is : List (Input contract)) :
    EveryStale ((machine contract).journal State.empty is)
        (fun e request => Erased e.post request.subject) ↔
      EveryStale ((machine contract).journal State.empty is)
        (fun _ request => request.targetDataHash = 0) := by
  refine forall_congr' fun earlier => forall_congr' fun e => forall_congr' fun later =>
    forall_congr' fun hsplit => forall_congr' fun request => forall_congr' fun hstale => ?_
  obtain ⟨js, _, _, _, hpre, hstep⟩ := Machine.journal_split hsplit
  exact erased_iff hstep (hpre ▸ run_allFiled js) hstale

/-- Once an erasure is approved, corrections filed before it leave the application erased, in whatever
order they are approved, just when none that is approved has a hash of its own; and then the application
is erased for as long as no correction filed later is approved. -/
theorem run_erasures (is : List (Input contract)) :
    let s := (machine contract).run State.empty is
    let es := (machine contract).journal State.empty is
    (EveryStale es (fun e request => Erased e.post request.subject) ↔
        EveryStale es (fun _ request => request.targetDataHash = 0)) ∧
      (EveryStale es (fun _ request => request.targetDataHash = 0) →
        ∀ earlier e later key, es = earlier ++ e :: later → Erases key e →
          (∀ e' ∈ later, ∀ request, Approves request e' → request.requestType = .correction →
            request.subject = key → e.pre.request request.id ≠ none) → Erased s key) := by
  intro s es
  refine ⟨run_erased_iff is, ?_⟩
  intro hzero earlier e later key hsplit herases hfiled
  apply run_since is key
  refine ⟨earlier, e, later, hsplit, herases, ?_⟩
  rintro x hx ⟨request, happroves, hkind, rfl, hother⟩
  obtain ⟨between, after, rfl⟩ := List.append_of_mem hx
  have hmem : e ∈ earlier ++ e :: between := List.mem_append_cons_self
  have hsplit' : es = (earlier ++ e :: between) ++ x :: after := by
    rw [List.append_assoc, List.cons_append]
    exact hsplit
  exact hother (hzero _ x after hsplit' request
    ⟨happroves, hkind, e, hmem, herases, hfiled x hx request happroves hkind rfl⟩)

/-- An application, a correction of it and its erasure are filed in this order. -/
def sampleFiled : List (Input ⟨0⟩) :=
  [⟨.sample, .initializeContract ⟨1⟩⟩,
    ⟨.sample, .registerProgram ⟨1⟩ 7 100⟩,
    ⟨.sample, .publishFormSchema ⟨1⟩ 7 3⟩,
    ⟨.sample, .publishConsentTerms ⟨1⟩ 7 4⟩,
    ⟨.sample, .recordConsent ⟨2⟩ 7⟩,
    ⟨.sample, .submitApplication ⟨2⟩ 7 8 1⟩,
    ⟨.sample, .requestCorrection ⟨2⟩ 7 9⟩,
    ⟨.sample, .requestErasure ⟨2⟩ 7⟩]

def sampleCorrection : PrivacyRequest := ⟨1, ⟨2⟩, 7, .correction, 10, 9, .pending, 0, 0, false⟩

def sampleErasure : PrivacyRequest := ⟨2, ⟨2⟩, 7, .erasure, 10, 0, .pending, 0, 0, false⟩

def sampleErase : Input ⟨0⟩ := ⟨.sample, .processPrivacyRequest ⟨1⟩ 2 true 0 true⟩

def sampleCorrect : Input ⟨0⟩ := ⟨.sample, .processPrivacyRequest ⟨1⟩ 1 true 0 true⟩

/-- The correction is approved after the erasure, and its hash is on the application again. -/
theorem sampleCorrect_resurrects : ¬EveryStale
    ((machine ⟨0⟩).journal State.empty (sampleFiled ++ [sampleErase] ++ [sampleCorrect]))
    fun e request => Erased e.post request.subject := by
  intro hall
  have hfiled : ((machine ⟨0⟩).run State.empty sampleFiled).request 1 = some sampleCorrection ∧
      ((machine ⟨0⟩).run State.empty sampleFiled).request 2 = some sampleErasure := by decide +kernel
  have hpending : ((machine ⟨0⟩).run State.empty (sampleFiled ++ [sampleErase])).request 1 =
      some sampleCorrection := by decide +kernel
  have herases : ((machine ⟨0⟩).step ((machine ⟨0⟩).run State.empty sampleFiled) sampleErase).isOk =
      true := by decide +kernel
  have hcorrects : ((machine ⟨0⟩).step
      ((machine ⟨0⟩).run State.empty (sampleFiled ++ [sampleErase])) sampleCorrect).isOk = true := by
    decide +kernel
  rcases herase : (machine ⟨0⟩).step ((machine ⟨0⟩).run State.empty sampleFiled) sampleErase
    with _ | ⟨o, s⟩
  · rw [herase] at herases
    cases herases
  rcases hcorrect : (machine ⟨0⟩).step
    ((machine ⟨0⟩).run State.empty (sampleFiled ++ [sampleErase])) sampleCorrect with _ | ⟨o', s'⟩
  · rw [hcorrect] at hcorrects
    cases hcorrects
  have hsplit := Machine.journal_append (machine ⟨0⟩) State.empty (sampleFiled ++ [sampleErase])
    [sampleCorrect]
  rw [Machine.journal_cons_ok _ hcorrect] at hsplit
  have hzero : sampleCorrection.targetDataHash = 0 := by
    refine (run_erased_iff _).mp hall _ _ _ hsplit sampleCorrection ⟨⟨1, rfl, hpending⟩, rfl, ?_⟩
    refine ⟨_, Machine.mem_journal herase, ⟨sampleErasure, ⟨2, rfl, hfiled.2⟩, rfl, rfl⟩, ?_⟩
    show ((machine ⟨0⟩).run State.empty sampleFiled).request 1 ≠ none
    rw [hfiled.1]
    exact Option.some_ne_none _
  exact absurd hzero (by decide)

end Runs

end ChainVerse.ScholarshipApplications
