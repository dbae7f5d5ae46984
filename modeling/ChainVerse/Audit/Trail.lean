import ChainVerse.Framework.HashChains
import ChainVerse.Framework.Histories
import ChainVerse.Framework.Machine
import ChainVerse.Host.Xdr

namespace ChainVerse.ScholarshipAudit

inductive ContractError where
  | notInitialized
  | alreadyInitialized
  | notAdmin
  | sourceNotRegistered
  | sequenceOverflow
  deriving DecidableEq, Repr

abbrev Outcome (α : Type) := Except (Abort ContractError) α

inductive AuditDomain where
  | securityRead
  | program
  | application
  | review
  | decision
  | award
  | milestone
  | finance
  deriving DecidableEq, Repr

inductive AuditAction where
  | read
  | create
  | update
  | transition
  | submit
  | withdraw
  | review
  | vote
  | finalize
  | appeal
  | accept
  | reject
  | amend
  | verify
  | release
  | deposit
  | reconcile
  | refund
  | recover
  | configure
  deriving DecidableEq, Repr

/-- The variants under the names that their encoding carries. -/
def AuditDomain.name : AuditDomain → Symbol
  | .securityRead => "SecurityRead"
  | .program => "Program"
  | .application => "Application"
  | .review => "Review"
  | .decision => "Decision"
  | .award => "Award"
  | .milestone => "Milestone"
  | .finance => "Finance"

def AuditAction.name : AuditAction → Symbol
  | .read => "Read"
  | .create => "Create"
  | .update => "Update"
  | .transition => "Transition"
  | .submit => "Submit"
  | .withdraw => "Withdraw"
  | .review => "Review"
  | .vote => "Vote"
  | .finalize => "Finalize"
  | .appeal => "Appeal"
  | .accept => "Accept"
  | .reject => "Reject"
  | .amend => "Amend"
  | .verify => "Verify"
  | .release => "Release"
  | .deposit => "Deposit"
  | .reconcile => "Reconcile"
  | .refund => "Refund"
  | .recover => "Recover"
  | .configure => "Configure"

structure AuditRecord where
  sequence : U64
  timestamp : U64
  source : Address
  domain : AuditDomain
  action : AuditAction
  entityHash : Bytes32
  actorHash : Bytes32
  payloadHash : Bytes32
  previousHash : Bytes32
  recordHash : Bytes32
  deriving DecidableEq

/-- The contract's storage. -/
structure State where
  admin : Option Address
  source : Address → Option Bool
  sequence : Option U64
  head : Option Bytes32

def State.empty : State where
  admin := none
  source := fun _ => none
  sequence := none
  head := none

variable {contract : Address}

section Helpers

/-- `checked_add` on `u64`. -/
def checkedAdd (a b : U64) : Option U64 :=
  if h : a.val + b.val < 2^64 then some ⟨a.val + b.val, h⟩ else none

def requireAdmin (env : Env contract) (s : State) (admin : Address) : Outcome Unit := do
  let configured ← orRefuse s.admin (.err .notInitialized)
  refuseIf (configured ≠ admin) (.err .notAdmin)
  requireAuth env admin

/-- The tuple that a record is hashed as. -/
def hashInput (addressXdr : Address → List Byte) (r : AuditRecord) : List Byte :=
  xdrVec 9 (xdrU64 r.sequence ++ (xdrU64 r.timestamp ++ (addressXdr r.source ++
    (xdrUnit r.domain.name ++ (xdrUnit r.action.name ++ (xdrBytes32 r.entityHash ++
      (xdrBytes32 r.actorHash ++ (xdrBytes32 r.payloadHash ++ xdrBytes32 r.previousHash))))))))

end Helpers

section EntryPoints

def initializeContract (env : Env contract) (s : State) (admin : Address) : Outcome State := do
  refuseIf (s.admin ≠ none) (.err .alreadyInitialized)
  requireAuth env admin
  pure { s with admin := some admin, sequence := some 0, head := some 0 }

def registerSource (env : Env contract) (s : State) (admin source : Address) : Outcome State := do
  requireAdmin env s admin
  pure { s with source := Function.update s.source source (some true) }

def revokeSource (env : Env contract) (s : State) (admin source : Address) : Outcome State := do
  requireAdmin env s admin
  pure { s with source := Function.update s.source source (some false) }

/-- The record is also what the call publishes as its event. -/
def record (crypto : Crypto) (env : Env contract) (s : State) (source : Address)
    (domain : AuditDomain) (action : AuditAction) (entityHash actorHash payloadHash : Bytes32) :
    Outcome (AuditRecord × State) := do
  refuseIf ((s.source source).getD false = false) (.err .sourceNotRegistered)
  requireAuth env source
  let last ← orRefuse s.sequence (.err .notInitialized)
  let sequence ← orRefuse (checkedAdd last 1) (.err .sequenceOverflow)
  let previousHash ← orRefuse s.head (.err .notInitialized)
  let unsealed : AuditRecord :=
    { sequence, timestamp := env.now, source, domain, action, entityHash, actorHash, payloadHash,
      previousHash, recordHash := 0 }
  let recordHash := crypto.sha256 (hashInput crypto.addressXdr unsealed)
  pure ({ unsealed with recordHash }, { s with sequence := some sequence, head := some recordHash })

def getHead (s : State) : Outcome (U64 × Bytes32) := do
  let sequence ← orRefuse s.sequence (.err .notInitialized)
  let head ← orRefuse s.head (.err .notInitialized)
  pure (sequence, head)

end EntryPoints

/-- The state-changing entry points. -/
inductive Call where
  | initializeContract (admin : Address)
  | registerSource (admin source : Address)
  | revokeSource (admin source : Address)
  | record (source : Address) (domain : AuditDomain) (action : AuditAction)
      (entityHash actorHash payloadHash : Bytes32)
  deriving DecidableEq

structure Input (contract : Address) where
  env : Env contract
  call : Call

/-- What an entry point returns. -/
inductive Answer where
  | done
  | recorded (record : AuditRecord)
  deriving DecidableEq

/-- One entry point applied to the state. -/
def execute (crypto : Crypto) (env : Env contract) (s : State) : Call → Outcome (Answer × State)
  | .initializeContract admin => (.done, ·) <$> initializeContract env s admin
  | .registerSource admin source => (.done, ·) <$> registerSource env s admin source
  | .revokeSource admin source => (.done, ·) <$> revokeSource env s admin source
  | .record source domain action entityHash actorHash payloadHash =>
    Prod.map .recorded id <$>
      record crypto env s source domain action entityHash actorHash payloadHash

def machine (contract : Address) (crypto : Crypto) :
    Machine State (Input contract) Answer (Abort ContractError) where
  step s i := execute crypto i.env s i.call

section Steps

variable {crypto : Crypto} {env : Env contract} {s s' : State} {call : Call} {o : Answer}

/-- An accepted call of a run, with the stores around it. -/
abbrev Step (contract : Address) := Entry State (Input contract) Answer

/-- The record carries the hash of what it says. -/
def AuditRecord.Sealed (crypto : Crypto) (r : AuditRecord) : Prop :=
  r.recordHash = crypto.sha256 (hashInput crypto.addressXdr r)

/-- The call that appends a record. -/
def AuditRecord.appendedBy (r : AuditRecord) : Call :=
  .record r.source r.domain r.action r.entityHash r.actorHash r.payloadHash

/-- Everything an accepted call can have done. -/
inductive Effect (crypto : Crypto) (env : Env contract) (s : State) : Call → Answer → State → Prop where
  | initialized (admin : Address) (vacant : s.admin = none) (signed : env.signers admin = true) :
      Effect crypto env s (.initializeContract admin) .done
        { s with admin := some admin, sequence := some 0, head := some 0 }
  | registered (admin source : Address) (configured : s.admin = some admin)
      (signed : env.signers admin = true) :
      Effect crypto env s (.registerSource admin source) .done
        { s with source := Function.update s.source source (some true) }
  | revoked (admin source : Address) (configured : s.admin = some admin)
      (signed : env.signers admin = true) :
      Effect crypto env s (.revokeSource admin source) .done
        { s with source := Function.update s.source source (some false) }
  | recorded (r : AuditRecord) (last : U64) (registered : s.source r.source = some true)
      (signed : env.signers r.source = true) (counted : s.sequence = some last)
      (next : r.sequence.val = last.val + 1) (previous : s.head = some r.previousHash)
      (now : r.timestamp = env.now) (hashed : r.Sealed crypto) :
      Effect crypto env s r.appendedBy (.recorded r)
        { s with sequence := some r.sequence, head := some r.recordHash }

theorem requireAdmin_eq_ok {admin : Address} {u : Unit} :
    requireAdmin env s admin = .ok u ↔ s.admin = some admin ∧ env.signers admin = true := by
  simp only [requireAdmin, bind_eq_ok, orRefuse_eq_ok, refuseIf_eq_ok, exists_unit, not_not,
    requireAuth_eq_ok]
  constructor
  · rintro ⟨configured, hconfigured, rfl, hsigned⟩
    exact ⟨hconfigured, hsigned⟩
  · rintro ⟨hconfigured, hsigned⟩
    exact ⟨admin, hconfigured, rfl, hsigned⟩

theorem checkedAdd_eq_some {a b c : U64} (h : checkedAdd a b = some c) : c.val = a.val + b.val := by
  unfold checkedAdd at h
  split at h
  · cases h
    rfl
  · cases h

theorem record_effect {source : Address} {domain : AuditDomain} {action : AuditAction}
    {entityHash actorHash payloadHash : Bytes32} {r : AuditRecord}
    (h : record crypto env s source domain action entityHash actorHash payloadHash = .ok (r, s')) :
    Effect crypto env s (.record source domain action entityHash actorHash payloadHash) (.recorded r)
      s' := by
  simp only [record, bind_eq_ok, exists_unit, refuseIf_eq_ok, requireAuth_eq_ok, orRefuse_eq_ok,
    pure_eq_ok, Prod.mk.injEq] at h
  obtain ⟨hregistered, hsigned, last, hlast, sequence, hnext, previousHash, hprevious, rfl, rfl⟩ := h
  have hstands : s.source source = some true := by
    rcases hsource : s.source source with _ | stands
    · exact absurd (by rw [hsource]; rfl) hregistered
    · cases stands with
      | true => rfl
      | false => exact absurd (by rw [hsource]; rfl) hregistered
  let r : AuditRecord :=
    { sequence, timestamp := env.now, source, domain, action, entityHash, actorHash, payloadHash,
      previousHash, recordHash := 0 }
  exact .recorded { r with recordHash := crypto.sha256 (hashInput crypto.addressXdr r) } last hstands
    hsigned hlast (checkedAdd_eq_some hnext) hprevious rfl rfl

/-- What an accepted entry point has done. -/
theorem step_effect {i : Input contract} (h : (machine contract crypto).step s i = .ok (o, s')) :
    Effect crypto i.env s i.call o s' := by
  obtain ⟨env, call⟩ := i
  cases call with
  | initializeContract admin =>
    simp only [machine, execute, map_eq_ok, initializeContract, bind_eq_ok, exists_unit,
      refuseIf_eq_ok, requireAuth_eq_ok, pure_eq_ok, not_not, Prod.mk.injEq] at h
    obtain ⟨_, ⟨hvacant, hsigned, rfl⟩, rfl, rfl⟩ := h
    exact .initialized admin hvacant hsigned
  | registerSource admin source =>
    simp only [machine, execute, map_eq_ok, registerSource, bind_eq_ok, exists_unit,
      requireAdmin_eq_ok, pure_eq_ok, Prod.mk.injEq] at h
    obtain ⟨_, ⟨⟨hconfigured, hsigned⟩, rfl⟩, rfl, rfl⟩ := h
    exact .registered admin source hconfigured hsigned
  | revokeSource admin source =>
    simp only [machine, execute, map_eq_ok, revokeSource, bind_eq_ok, exists_unit,
      requireAdmin_eq_ok, pure_eq_ok, Prod.mk.injEq] at h
    obtain ⟨_, ⟨⟨hconfigured, hsigned⟩, rfl⟩, rfl, rfl⟩ := h
    exact .revoked admin source hconfigured hsigned
  | record source domain action entityHash actorHash payloadHash =>
    simp only [machine, execute, map_eq_ok, Prod.map, Prod.mk.injEq, id] at h
    obtain ⟨⟨r, _⟩, hrecord, rfl, rfl⟩ := h
    exact record_effect hrecord

/-- What was checked before a record was published. -/
theorem recorded_effect {r : AuditRecord} (h : Effect crypto env s call (.recorded r) s') :
    call = r.appendedBy ∧ r.timestamp = env.now ∧ env.signers r.source = true ∧
      s.source r.source = some true := by
  cases h with
  | recorded _ _ registered signed _ _ _ now => exact ⟨rfl, now, signed, registered⟩

end Steps

section Trails

variable {crypto : Crypto} {s s' : State} {es : List (Step contract)} {i : Input contract} {o : Answer}

/-- What a chain reads of a record. -/
def links : Links AuditRecord Bytes32 where
  position r := r.sequence.val
  previous := AuditRecord.previousHash
  hash := AuditRecord.recordHash

def Answer.record : Answer → Option AuditRecord
  | .done => none
  | .recorded r => some r

/-- The records that have been published, in their order. -/
def trail (es : List (Step contract)) : List AuditRecord := es.filterMap fun e => e.output.record

theorem trail_snoc (es : List (Step contract)) (e : Step contract) :
    trail (es ++ [e]) = trail es ++ e.output.record.toList := filterMap_snoc e

/-- What the storage says about the published records. -/
structure Kept (crypto : Crypto) (s : State) (es : List (Step contract)) : Prop where
  linked : links.Linked 0 0 (trail es)
  hashed : ∀ r ∈ trail es, r.Sealed crypto
  started : s.admin = none → s.sequence = none ∧ trail es = []
  numbered : ∀ admin, s.admin = some admin → ∃ sequence, s.sequence = some sequence ∧
    sequence.val = (trail es).length ∧ s.head = some (links.head 0 (trail es))

theorem kept_empty : Kept crypto State.empty ([] : List (Step contract)) where
  linked := trivial
  hashed _ h := absurd h List.not_mem_nil
  started _ := ⟨rfl, rfl⟩
  numbered _ h := nomatch h

/-- A call that publishes nothing once the contract has an administrator. -/
theorem Kept.silent {e : Step contract} (h : Kept crypto s es) (hanswer : e.output.record = none)
    (hadmin : s'.admin ≠ none) (hnumbered : ∃ sequence, s'.sequence = some sequence ∧
      sequence.val = (trail es).length ∧ s'.head = some (links.head 0 (trail es))) :
    Kept crypto s' (es ++ [e]) := by
  have htrail : trail (es ++ [e]) = trail es := by
    rw [trail_snoc, hanswer, Option.toList_none, List.append_nil]
  refine ⟨?_, ?_, fun hnone => absurd hnone hadmin, ?_⟩
  · rw [htrail]
    exact h.linked
  · rw [htrail]
    exact h.hashed
  · rw [htrail]
    exact fun _ _ => hnumbered

theorem Kept.step (h : Kept crypto s es) (hstep : Effect crypto i.env s i.call o s') :
    Kept crypto s' (es ++ [⟨s, i, o, s'⟩]) := by
  obtain ⟨env, call⟩ := i
  cases hstep with
  | initialized admin vacant =>
    have hnone := (h.started vacant).2
    refine h.silent rfl (Option.some_ne_none admin) ⟨0, rfl, ?_, ?_⟩
    · rw [hnone]
      rfl
    · rw [hnone]
      rfl
  | registered admin source configured =>
    exact h.silent rfl (by simp [configured]) (h.numbered admin configured)
  | revoked admin source configured =>
    exact h.silent rfl (by simp [configured]) (h.numbered admin configured)
  | recorded r last _ _ counted next previous _ hashed =>
    have hadmin : ∃ admin, s.admin = some admin := by
      rcases hadmin : s.admin with _ | admin
      · rw [(h.started hadmin).1] at counted
        cases counted
      · exact ⟨admin, rfl⟩
    obtain ⟨admin, hadmin⟩ := hadmin
    obtain ⟨sequence, hsequence, hlength, hhead⟩ := h.numbered admin hadmin
    obtain rfl : sequence = last := Option.some.inj (hsequence.symm.trans counted)
    have hprevious : r.previousHash = links.head 0 (trail es) :=
      Option.some.inj (previous.symm.trans hhead)
    have hposition : links.position r = 0 + (trail es).length + 1 := by
      rw [← hlength, Nat.zero_add]
      exact next
    refine ⟨?_, ?_, ?_, ?_⟩
    · rw [trail_snoc]
      exact Links.linked_snoc.mpr ⟨h.linked, hposition, hprevious⟩
    · rw [trail_snoc]
      exact List.forall_mem_append.mpr ⟨h.hashed, fun x hx => List.mem_singleton.mp hx ▸ hashed⟩
    · intro hnone
      rw [hadmin] at hnone
      cases hnone
    · intro _ _
      refine ⟨r.sequence, rfl, ?_, ?_⟩
      · rw [trail_snoc, next, hlength]
        simp [Answer.record]
      · have hlast : links.head 0 (trail es ++ [r]) = r.recordHash := Links.head_snoc
        rw [trail_snoc]
        exact congrArg some hlast.symm

theorem run_kept (is : List (Input contract)) :
    Kept crypto ((machine contract crypto).run State.empty is)
      ((machine contract crypto).journal State.empty is) :=
  Machine.run_journal_invariant kept_empty (fun _ _ _ _ _ h hstep => h.step (step_effect hstep)) is

/-- Over every run the published records form a chain: the first has the number one and refers to the
zero hash, every later one has the next number and refers to the record before it, and each carries the
hash of its own content. `get_head` answers with the number of records and the hash of the last one. -/
theorem records_form_a_hash_chain (is : List (Input contract)) :
    let records := trail ((machine contract crypto).journal State.empty is)
    links.Linked 0 0 records ∧ (∀ r ∈ records, r.Sealed crypto) ∧
      (((machine contract crypto).run State.empty is).admin = none → records = []) ∧
      ∀ admin, ((machine contract crypto).run State.empty is).admin = some admin →
        ∃ sequence, getHead ((machine contract crypto).run State.empty is) =
            .ok (sequence, links.head 0 records) ∧ sequence.val = records.length := by
  have hkept := @run_kept contract crypto is
  refine ⟨hkept.linked, hkept.hashed, fun hnone => (hkept.started hnone).2, ?_⟩
  intro admin hadmin
  obtain ⟨sequence, hsequence, hlength, hhead⟩ := hkept.numbered admin hadmin
  refine ⟨sequence, ?_, hlength⟩
  simp only [getHead, hsequence, hhead]
  rfl

end Trails

section Sources

variable {crypto : Crypto} {s s' : State} {es : List (Step contract)} {i : Input contract} {o : Answer}

/-- The source is registered, or loses its registration. -/
def registers (source : Address) (e : Step contract) : Prop :=
  ∃ admin, e.input.call = .registerSource admin source

def revokes (source : Address) (e : Step contract) : Prop :=
  ∃ admin, e.input.call = .revokeSource admin source

/-- The administrator in whose name a call is made. -/
def Call.admin : Call → Option Address
  | .initializeContract admin | .registerSource admin _ | .revokeSource admin _ => some admin
  | .record _ _ _ _ _ _ => none

/-- What the storage says about the sources. -/
structure Governed (s : State) (es : List (Step contract)) : Prop where
  standing : ∀ source, s.source source = some true ↔ Since (registers source) (revokes source) es
  governed : ∀ e ∈ es, ∀ admin, e.input.call.admin = some admin →
    s.admin = some admin ∧ e.input.env.signers admin = true

theorem governed_empty : Governed State.empty ([] : List (Step contract)) where
  standing source := by
    constructor
    · intro h
      cases h
    · intro h
      exact absurd h not_since_nil
  governed e he := absurd he List.not_mem_nil

/-- A source is registered after a call when the call registers it, or when it was and the call does not
revoke it. -/
theorem standing_step (h : Effect crypto i.env s i.call o s') (source : Address) :
    s'.source source = some true ↔
      registers source ⟨s, i, o, s'⟩ ∨ s.source source = some true ∧ ¬ revokes source ⟨s, i, o, s'⟩ := by
  unfold registers revokes
  obtain ⟨env, call⟩ := i
  cases h with
  | initialized => simp
  | registered _ source' =>
    by_cases hsource : source = source'
    · simp [hsource]
    · simp [hsource, Ne.symm hsource]
  | revoked _ source' =>
    by_cases hsource : source = source'
    · simp [hsource]
    · simp [hsource, Ne.symm hsource]
  | recorded r => simp

/-- The contract keeps its administrator, and the administrator of a call is the one it has from then on. -/
theorem admin_step (h : Effect crypto i.env s i.call o s') :
    (∀ admin, s.admin = some admin → s'.admin = some admin) ∧
      ∀ admin, i.call.admin = some admin → s'.admin = some admin ∧ i.env.signers admin = true := by
  obtain ⟨env, call⟩ := i
  cases h with
  | initialized admin vacant signed =>
    refine ⟨?_, ?_⟩
    · intro admin' hadmin
      rw [vacant] at hadmin
      cases hadmin
    · rintro _ ⟨⟩
      exact ⟨rfl, signed⟩
  | registered admin source configured signed =>
    refine ⟨fun _ => id, ?_⟩
    rintro _ ⟨⟩
    exact ⟨configured, signed⟩
  | revoked admin source configured signed =>
    refine ⟨fun _ => id, ?_⟩
    rintro _ ⟨⟩
    exact ⟨configured, signed⟩
  | recorded r =>
    refine ⟨fun _ => id, ?_⟩
    intro _ hadmin
    cases hadmin

theorem Governed.step (h : Governed s es) (hstep : Effect crypto i.env s i.call o s') :
    Governed s' (es ++ [⟨s, i, o, s'⟩]) where
  standing source := by
    rw [standing_step hstep, since_snoc, h.standing]
  governed e he admin hadmin := by
    obtain ⟨hkeeps, hcalled⟩ := admin_step hstep
    rcases List.mem_append.mp he with hold | hnew
    · obtain ⟨hconfigured, hsigned⟩ := h.governed e hold admin hadmin
      exact ⟨hkeeps admin hconfigured, hsigned⟩
    · rw [List.mem_singleton.mp hnew] at hadmin ⊢
      exact hcalled admin hadmin

theorem run_governed (is : List (Input contract)) :
    Governed ((machine contract crypto).run State.empty is)
      ((machine contract crypto).journal State.empty is) :=
  Machine.run_journal_invariant governed_empty (fun _ _ _ _ _ h hstep => h.step (step_effect hstep)) is

/-- Over every run, a record is published only by the call that states its content, at the time it
carries, with the signature of its source, and while that source stands registered: its last
registration has not been followed by a revocation. Registrations and revocations are all by the one
administrator, who has signed them. -/
theorem records_come_from_registered_sources (is : List (Input contract)) :
    (∀ earlier e later r,
      (machine contract crypto).journal State.empty is = earlier ++ e :: later →
      e.output = .recorded r →
        e.input.call = r.appendedBy ∧ r.timestamp = e.input.env.now ∧
          e.input.env.signers r.source = true ∧ Since (registers r.source) (revokes r.source) earlier) ∧
      ∀ e ∈ (machine contract crypto).journal State.empty is, ∀ admin, e.input.call.admin = some admin →
        ((machine contract crypto).run State.empty is).admin = some admin ∧
          e.input.env.signers admin = true := by
  refine ⟨?_, (run_governed is).governed⟩
  intro earlier e later r hsplit hanswer
  obtain ⟨js, _, _, hjournal, hrun, hstep⟩ := Machine.journal_split hsplit
  have hgoverned := @run_governed contract crypto js
  rw [hjournal, hrun] at hgoverned
  have heffect := step_effect hstep
  rw [hanswer] at heffect
  obtain ⟨hcall, hnow, hsigned, hregistered⟩ := recorded_effect heffect
  exact ⟨hcall, hnow, hsigned, (hgoverned.standing _).mp hregistered⟩

end Sources

section Tampering

variable {crypto : Crypto} {addressXdr : Address → List Byte}

def domains : List AuditDomain :=
  [.securityRead, .program, .application, .review, .decision, .award, .milestone, .finance]

def actions : List AuditAction :=
  [.read, .create, .update, .transition, .submit, .withdraw, .review, .vote, .finalize, .appeal, .accept,
    .reject, .amend, .verify, .release, .deposit, .reconcile, .refund, .recover, .configure]

theorem domain_selfDelimiting : SelfDelimiting fun domain : AuditDomain => xdrUnit domain.name := by
  have hlisted : ∀ domain : AuditDomain, domain ∈ domains := by
    intro domain
    cases domain <;> decide
  have hsymbol : ∀ domain : AuditDomain, IsSymbol domain.name := by
    intro domain
    cases domain <;> decide
  have hnodup : (domains.map AuditDomain.name).Nodup := by decide
  apply xdrUnit_selfDelimiting hsymbol
  intro a b
  exact List.inj_on_of_nodup_map hnodup (hlisted a) (hlisted b)

theorem action_selfDelimiting : SelfDelimiting fun action : AuditAction => xdrUnit action.name := by
  have hlisted : ∀ action : AuditAction, action ∈ actions := by
    intro action
    cases action <;> decide
  have hsymbol : ∀ action : AuditAction, IsSymbol action.name := by
    intro action
    cases action <;> decide
  have hnodup : (actions.map AuditAction.name).Nodup := by decide
  apply xdrUnit_selfDelimiting hsymbol
  intro a b
  exact List.inj_on_of_nodup_map hnodup (hlisted a) (hlisted b)

/-- What a record says, in the order in which it is hashed. -/
def AuditRecord.content (r : AuditRecord) : U64 × U64 × Address × AuditDomain × AuditAction × Bytes32 ×
    Bytes32 × Bytes32 × Bytes32 :=
  (r.sequence, r.timestamp, r.source, r.domain, r.action, r.entityHash, r.actorHash, r.payloadHash,
    r.previousHash)

/-- The hashed tuple determines what the record says. -/
theorem hashInput_inj (haddress : SelfDelimiting addressXdr) {r r' : AuditRecord}
    (h : hashInput addressXdr r = hashInput addressXdr r') : r.content = r'.content := by
  have hhashes := xdrBytes32_selfDelimiting.append (xdrBytes32_selfDelimiting.append
    (xdrBytes32_selfDelimiting.append xdrBytes32_selfDelimiting))
  have hvalues := xdrU64_selfDelimiting.append (xdrU64_selfDelimiting.append (haddress.append
    (domain_selfDelimiting.append (action_selfDelimiting.append hhashes))))
  exact ((hvalues.behind _).behind _).injective h

/-- Records that carry the hash of what they say are told apart by it, unless two of the hashed tuples
collide. -/
theorem AuditRecord.Sealed.eq_of_hash {rs : List AuditRecord} {r r' : AuditRecord}
    (hsealed : r.Sealed crypto) (haddress : SelfDelimiting crypto.addressXdr)
    (hfree : CollisionFree crypto.sha256 (rs.map (hashInput crypto.addressXdr))) (hr : r ∈ rs)
    (hr' : r' ∈ rs) (hsealed' : r'.Sealed crypto)
    (hsame : r.recordHash = r'.recordHash) : r = r' := by
  have hhash : crypto.sha256 (hashInput crypto.addressXdr r) =
      crypto.sha256 (hashInput crypto.addressXdr r') := by
    rw [← hsealed, ← hsealed', hsame]
  have hinput := hfree _ (List.mem_map_of_mem hr) _ (List.mem_map_of_mem hr') hhash
  have hcontent := hashInput_inj haddress hinput
  cases r
  cases r'
  cases hcontent
  cases hsame
  rfl

/-- Whoever shows a list of records that starts from the zero hash, is numbered from one, links each
record to the one before it by a hash of its content, and ends in the hash of a record that a run has
published, has shown the published records up to that one and no others. It takes an encoding of
addresses that can be read back and hashes that do not collide on the two lists. -/
theorem shown_records_are_the_published_ones (haddress : SelfDelimiting crypto.addressXdr)
    (is : List (Input contract)) (shown : List AuditRecord) (last r : AuditRecord)
    (earlier later : List AuditRecord)
    (hlinked : links.Linked 0 0 (shown ++ [last])) (hsealed : ∀ x ∈ shown ++ [last], x.Sealed crypto)
    (hpublished : trail ((machine contract crypto).journal State.empty is) = earlier ++ r :: later)
    (hsame : last.recordHash = r.recordHash)
    (hfree : CollisionFree crypto.sha256
      ((shown ++ [last] ++ (earlier ++ [r])).map (hashInput crypto.addressXdr))) :
    shown ++ [last] = earlier ++ [r] := by
  have hkept := @run_kept contract crypto is
  have hhashed := hkept.hashed
  have hchain := hkept.linked
  rw [hpublished] at hhashed hchain
  have hdistinct : ∀ x ∈ shown ++ [last], ∀ y ∈ earlier ++ [r], x.recordHash = y.recordHash → x = y := by
    intro x hx y hy
    have hy' : y ∈ earlier ++ r :: later := by
      rw [List.append_cons]
      exact List.mem_append_left _ hy
    exact (hsealed x hx).eq_of_hash haddress hfree (List.mem_append_left _ hx)
      (List.mem_append_right _ hy) (hhashed y hy')
  obtain ⟨hbefore, hlast⟩ := hlinked.eq_before hchain hsame hdistinct
  rw [hbefore, hlast]

def sampleCrypto : Crypto where
  sha256 p := BitVec.ofNat 256 (p.foldl (fun n b => (n * 257 + b.toNat + 1) % (2^255 - 19)) 7)
  addressXdr := sampleXdr

/-- The administrator `⟨1⟩` registers the source `⟨2⟩`, which then reports twice. -/
def sampleCalls : List (Input ⟨0⟩) :=
  [⟨.sample, .initializeContract ⟨1⟩⟩, ⟨.sample, .registerSource ⟨1⟩ ⟨2⟩⟩,
    ⟨.sample, .record ⟨2⟩ .award .accept 3 4 5⟩, ⟨.sampleLater, .record ⟨2⟩ .finance .release 6 7 8⟩]

/-- The record with the hash of what it says. -/
def AuditRecord.seal (crypto : Crypto) (r : AuditRecord) : AuditRecord :=
  { r with recordHash := crypto.sha256 (hashInput crypto.addressXdr r) }

theorem AuditRecord.sealed_seal (r : AuditRecord) : (r.seal crypto).Sealed crypto := rfl

def sampleFirst : AuditRecord := .seal sampleCrypto
  { sequence := 1, timestamp := 10, source := ⟨2⟩, domain := .award, action := .accept, entityHash := 3,
    actorHash := 4, payloadHash := 5, previousHash := 0, recordHash := 0 }

def sampleSecond : AuditRecord := .seal sampleCrypto
  { sequence := 2, timestamp := 20, source := ⟨2⟩, domain := .finance, action := .release, entityHash := 6,
    actorHash := 7, payloadHash := 8, previousHash := sampleFirst.recordHash, recordHash := 0 }

theorem shown_records_are_the_published_ones_sample :
    trail ((machine ⟨0⟩ sampleCrypto).journal State.empty sampleCalls) = [sampleFirst, sampleSecond] ∧
      [sampleFirst] ++ [sampleSecond] = [sampleFirst] ++ [sampleSecond] := by
  have hpublished : trail ((machine ⟨0⟩ sampleCrypto).journal State.empty sampleCalls) =
      [sampleFirst, sampleSecond] := by decide +kernel
  have hlinked : links.Linked 0 0 [sampleFirst, sampleSecond] := ⟨rfl, rfl, rfl, rfl, trivial⟩
  have hsealed : ∀ x ∈ [sampleFirst, sampleSecond], x.Sealed sampleCrypto := by
    rintro x hx
    rcases List.mem_pair.mp hx with rfl | rfl
    · exact AuditRecord.sealed_seal _
    · exact AuditRecord.sealed_seal _
  have hfree : CollisionFree sampleCrypto.sha256 (([sampleFirst] ++ [sampleSecond] ++
      ([sampleFirst] ++ [sampleSecond])).map (hashInput sampleCrypto.addressXdr)) := by decide +kernel
  exact ⟨hpublished, shown_records_are_the_published_ones sampleXdr_selfDelimiting sampleCalls
    [sampleFirst] sampleSecond sampleSecond [sampleFirst] [] hlinked hsealed hpublished rfl hfree⟩

end Tampering

end ChainVerse.ScholarshipAudit
