import ChainVerse.Licensing.Holdings

namespace ChainVerse.LibraryLicensing

variable {contract : Address} {crypto : Crypto} {env : Env contract} {s s' : State} {call : Call}
  {o : Answer} {i : Input contract}

/-- An accepted call of a run, with the stores around it. -/
abbrev Line (contract : Address) := Entry State (Input contract) Answer

variable {es : List (Line contract)}

section Offline

/-- Whether a call has created an offline grant under an id, and whether it consumes one. -/
def lends (id : Bytes32) (e : Line contract) : Bool :=
  match e.input.call with
  | .createOfflineGrant .. => e.output = some id
  | _ => false

def consumes (id : Bytes32) (e : Line contract) : Bool :=
  match e.input.call with
  | .consumeOfflineGrant _ offlineId _ => offlineId = id
  | _ => false

/-- The uses so far of the offline grant that was last created under an id. -/
def countUse (id : Bytes32) (uses : Nat) (e : Line contract) : Nat :=
  if lends id e then 0 else if consumes id e then uses + 1 else uses

def usesOf (es : List (Line contract)) (id : Bytes32) : Nat := es.foldl (countUse id) 0

theorem usesOf_snoc (es : List (Line contract)) (e : Line contract) (id : Bytes32) :
    usesOf (es ++ [e]) id = countUse id (usesOf es id) e := List.foldl_append

/-- The call that has created an offline grant, for the holder of the access grant and within its window. -/
structure Lends (e : Line contract) (id : Bytes32) (record : OfflineGrant) : Prop where
  call : e.input.call =
    .createOfflineGrant record.grantee record.grantId record.expiresAt record.maxUses
  answer : e.output = some id
  signed : e.input.env.signers record.grantee = true
  granted : ∃ grant, e.pre.rights.grant record.grantId = some grant ∧ grant.grantee = record.grantee ∧
    record.expiresAt ≤ grant.expiresAt

/-- The offline grants count their uses, and stand until these are used up. -/
structure Lent (es : List (Line contract)) (s : State) : Prop where
  counted : ∀ id record, s.offlineGrant id = some record → record.uses = usesOf es id ∧
    record.uses ≤ record.maxUses ∧ (record.active = true ↔ record.uses < record.maxUses)
  created : ∀ id record, s.offlineGrant id = some record → ∃ e ∈ es, Lends e id record

theorem Lent.quiet {e : Line contract} (h : Lent es s) (hlends : ∀ id, lends id e = false)
    (hconsumes : ∀ id, consumes id e = false) (hsame : s'.offlineGrant = s.offlineGrant) :
    Lent (es ++ [e]) s' where
  counted := by
    intro id record hrecord
    rw [hsame] at hrecord
    have huses : usesOf (es ++ [e]) id = usesOf es id := by
      rw [usesOf_snoc, countUse, hlends, hconsumes]
      rfl
    rw [huses]
    exact h.counted id record hrecord
  created := by
    intro id record hrecord
    rw [hsame] at hrecord
    obtain ⟨x, hx, hcreated⟩ := h.created id record hrecord
    exact ⟨x, List.mem_append_left _ hx, hcreated⟩

theorem Lent.written {e : Line contract} {record : OfflineGrant} (h : Lent es s) (id : Bytes32)
    (hsame : s'.offlineGrant = Function.update s.offlineGrant id (some record))
    (hother : ∀ id', id' ≠ id → usesOf (es ++ [e]) id' = usesOf es id')
    (hcounted : record.uses = usesOf (es ++ [e]) id ∧ record.uses ≤ record.maxUses ∧
      (record.active = true ↔ record.uses < record.maxUses))
    (hcreated : ∃ x ∈ es ++ [e], Lends x id record) : Lent (es ++ [e]) s' where
  counted := by
    intro id' record' hrecord
    rw [hsame] at hrecord
    rcases update_row_cases hrecord with ⟨rfl, rfl⟩ | ⟨hne, hold⟩
    · exact hcounted
    · rw [hother id' hne]
      exact h.counted id' record' hold
  created := by
    intro id' record' hrecord
    rw [hsame] at hrecord
    rcases update_row_cases hrecord with ⟨rfl, rfl⟩ | ⟨_, hold⟩
    · exact hcreated
    · obtain ⟨x, hx, hlent⟩ := h.created id' record' hold
      exact ⟨x, List.mem_append_left _ hx, hlent⟩

theorem Lent.step (h : Lent es s) (hchange : Change i.env s i.call o s') : Lent (es ++ [⟨s, i, o, s'⟩]) s' := by
  obtain ⟨env, call⟩ := i
  cases hchange with
  | aside kind same =>
    refine h.quiet ?_ ?_ same.offlineGrant
    · intro id
      cases call with
      | createOfflineGrant => cases kind
      | _ => rfl
    · intro id
      cases call with
      | consumeOfflineGrant => cases kind
      | _ => rfl
  | entitled => exact h.quiet (fun _ => rfl) (fun _ => rfl) rfl
  | kept => exact h.quiet (fun _ => rfl) (fun _ => rfl) rfl
  | stripped => exact h.quiet (fun _ => rfl) (fun _ => rfl) rfl
  | proposed => exact h.quiet (fun _ => rfl) (fun _ => rfl) rfl
  | optedIn => exact h.quiet (fun _ => rfl) (fun _ => rfl) rfl
  | limited => exact h.quiet (fun _ => rfl) (fun _ => rfl) rfl
  | allotted => exact h.quiet (fun _ => rfl) (fun _ => rfl) rfl
  | reclaimed => exact h.quiet (fun _ => rfl) (fun _ => rfl) rfl
  | @lent id record grant count named found holder signed usable now window bounded unused standing =>
    apply h.written id rfl
    · intro id' hne
      simp [usesOf_snoc, countUse, lends, consumes, hne.symm]
    · refine ⟨?_, by omega, ?_⟩
      · simp [usesOf_snoc, countUse, lends, unused]
      · simp [standing, unused, bounded]
    · exact ⟨_, List.mem_concat_self, rfl, rfl, signed, grant, found, holder.symm, window.2⟩
  | @used id record found signed standing early left usable =>
    obtain ⟨hcount, _, hactive⟩ := h.counted id record found
    obtain ⟨x, hx, hlent⟩ := h.created id record found
    apply h.written id rfl
    · intro id' hne
      simp [usesOf_snoc, countUse, lends, consumes, hne.symm]
    · refine ⟨?_, left, ?_⟩
      · simp [usesOf_snoc, countUse, lends, consumes, OfflineGrant.used, hcount]
      · unfold OfflineGrant.used
        dsimp only
        split_ifs with hlast
        · rw [hlast]
          simp
        · simp only [standing, true_iff]
          omega
    · exact ⟨x, List.mem_append_left _ hx, ⟨hlent.call, hlent.answer, hlent.signed, hlent.granted⟩⟩

theorem run_lent (is : List (Input contract)) :
    Lent ((machine contract crypto).journal State.empty is) ((machine contract crypto).run State.empty is) := by
  apply Machine.run_journal_invariant (P := fun s es => Lent es s)
  · refine ⟨?_, ?_⟩
    · intro id record h
      cases h
    · intro id record h
      cases h
  · intro es s i o s' h hstep
    exact h.step (execute_change hstep)

theorem consumes_call {e : Line contract} {id : Bytes32} (h : consumes id e = true) :
    ∃ caller commitment, e.input.call = .consumeOfflineGrant caller id commitment := by
  unfold consumes at h
  split at h
  · rename_i caller offlineId commitment hcall
    rw [decide_eq_true_eq] at h
    rw [← h]
    exact ⟨caller, commitment, hcall⟩
  · cases h

/-- What is found before an offline grant is consumed. -/
theorem consumed_found {caller : Address} {id commitment : Bytes32}
    (h : Change env s (.consumeOfflineGrant caller id commitment) o s') :
    ∃ record, s.offlineGrant id = some record ∧ env.signers record.grantee = true ∧
      env.timestamp < record.expiresAt ∧ record.uses < record.maxUses ∧
      isGrantUsable env.timestamp s record.grantId = true := by
  cases h with
  | aside kind => cases kind
  | used found signed standing early left usable => exact ⟨_, found, signed, early, left, usable⟩

/-- Over every run, an offline grant that stands has been created by the holder of an access grant, who has
signed for it, to end with that grant at the latest; it has been used as often as it says since then, at most
as often as it allows, and it is active until it has been used up. Each time it is used, its holder signs, it
has not ended and not been used up, and the access grant and its license are active. -/
theorem offline_grants_are_used_within_their_bounds (is : List (Input contract)) :
    let s := (machine contract crypto).run State.empty is
    let es := (machine contract crypto).journal State.empty is
    (∀ id record, s.offlineGrant id = some record → record.uses = usesOf es id ∧
      usesOf es id ≤ record.maxUses ∧ (record.active = true ↔ usesOf es id < record.maxUses) ∧
      ∃ e ∈ es, Lends e id record) ∧
    ∀ earlier e later id, es = earlier ++ e :: later → consumes id e = true →
      ∃ record, e.pre.offlineGrant id = some record ∧ (∃ x ∈ earlier, Lends x id record) ∧
        usesOf earlier id < record.maxUses ∧ e.input.env.signers record.grantee = true ∧
        e.input.env.timestamp < record.expiresAt ∧
        isGrantUsable e.input.env.timestamp e.pre record.grantId = true := by
  intro s es
  refine ⟨?_, ?_⟩
  · intro id record hrecord
    obtain ⟨hcount, hwithin, hactive⟩ := (run_lent is).counted id record hrecord
    rw [hcount] at hwithin hactive
    exact ⟨hcount, hwithin, hactive, (run_lent is).created id record hrecord⟩
  · intro earlier e later id hsplit hconsumes
    obtain ⟨js, _, _, hjournal, hrun, hstep⟩ := Machine.journal_split hsplit
    obtain ⟨caller, commitment, hcall⟩ := consumes_call hconsumes
    have hchange := execute_change hstep
    rw [hcall] at hchange
    obtain ⟨record, hfound, hsigned, hearly, hleft, husable⟩ := consumed_found hchange
    have hlent := @run_lent contract crypto js
    rw [hjournal, hrun] at hlent
    rw [(hlent.counted id record hfound).1] at hleft
    exact ⟨record, hfound, hlent.created id record hfound, hleft, hsigned, hearly, husable⟩

end Offline

section Allocations

/-- The id that a call has allotted seats under. -/
def allots (e : Line contract) : Option Bytes32 :=
  match e.input.call with
  | .allocateSeats .. => e.output
  | _ => none

def allotted (es : List (Line contract)) : List Bytes32 := es.filterMap allots

theorem allotted_snoc (es : List (Line contract)) (e : Line contract) :
    allotted (es ++ [e]) = allotted es ++ (allots e).toList := by
  rw [allotted, allotted, List.filterMap_append]
  cases hallots : allots e with
  | none => simp [hallots]
  | some => simp [hallots]

/-- The seats that an allocation takes of a license. -/
def seatsIn (licenseId : Bytes32) (a : Option InstitutionalAllocation) : Int :=
  a.elim 0 fun a => if a.parentLicenseId = licenseId ∧ a.active = true then a.seats else 0

/-- The seats of the allocations that have been made of a license. -/
def State.seatsTaken (s : State) (ids : List Bytes32) (licenseId : Bytes32) : Int :=
  ∑ id ∈ ids.toFinset, seatsIn licenseId (s.allocation id)

/-- The totals of the licenses are within their limits, and those of the allocations that stand, where no two
allocations have been given one id. -/
structure Allotted (es : List (Line contract)) (s : State) : Prop where
  limited : ∀ id, s.allocationTotal id ≤ (s.allocationLimit id).getD 0
  known : ∀ id a, s.allocation id = some a → id ∈ allotted es
  summed : (allotted es).Nodup → ∀ id, s.allocationTotal id = s.seatsTaken (allotted es) id

theorem seatsIn_nonneg (licenseId : Bytes32) (a : Option InstitutionalAllocation) : 0 ≤ seatsIn licenseId a := by
  cases a with
  | none => exact le_rfl
  | some a =>
    unfold seatsIn
    dsimp only [Option.elim]
    split_ifs
    · exact Int.natCast_nonneg _
    · exact le_rfl

theorem Allotted.quiet {e : Line contract} (h : Allotted es s) (hallots : allots e = none)
    (hallocation : s'.allocation = s.allocation) (htotal : s'.allocationTotal = s.allocationTotal)
    (hlimit : ∀ id, (s.allocationLimit id).getD 0 ≤ (s'.allocationLimit id).getD 0 ∨
      s.allocationTotal id ≤ (s'.allocationLimit id).getD 0) : Allotted (es ++ [e]) s' := by
  have hsame : allotted (es ++ [e]) = allotted es := by
    rw [allotted_snoc, hallots]
    exact List.append_nil _
  refine ⟨?_, ?_, ?_⟩
  · intro id
    rw [htotal]
    rcases hlimit id with hle | hle
    · exact (h.limited id).trans hle
    · exact hle
  · rw [hsame, hallocation]
    exact h.known
  · rw [hsame, htotal]
    intro hnodup id
    rw [h.summed hnodup id, State.seatsTaken, State.seatsTaken, hallocation]

/-- The seats of one license change within its limit. -/
theorem Allotted.limited_update (h : Allotted es s) {parent : Bytes32} {total : Nat}
    (htotal : s'.allocationTotal = Function.update s.allocationTotal parent total)
    (hlimit : s'.allocationLimit = s.allocationLimit) (hle : total ≤ (s.allocationLimit parent).getD 0) :
    ∀ id, s'.allocationTotal id ≤ (s'.allocationLimit id).getD 0 := by
  rw [htotal, hlimit]
  exact (Function.forall_update_iff _ fun id total => total ≤ (s.allocationLimit id).getD 0).mpr
    ⟨hle, fun id _ => h.limited id⟩

/-- An allocation is written under an id that is known. -/
theorem Allotted.known_update (h : Allotted es s) {ids : List Bytes32} {id : Bytes32} {a : InstitutionalAllocation}
    (hallocation : s'.allocation = Function.update s.allocation id (some a)) (hids : allotted es ⊆ ids)
    (hid : id ∈ ids) : ∀ id' a', s'.allocation id' = some a' → id' ∈ ids := by
  intro id' a' ha'
  rw [hallocation] at ha'
  rcases update_row_cases ha' with ⟨rfl, _⟩ | ⟨_, hold⟩
  · exact hid
  · exact hids (h.known id' a' hold)

/-- Seats are taken under an id of their own. -/
theorem Allotted.taken {e : Line contract} (h : Allotted es s) {id : Bytes32} {a : InstitutionalAllocation}
    {limit : Nat} (hallots : allots e = some id) (hstanding : a.active = true)
    (hlimited : s.allocationLimit a.parentLicenseId = some limit)
    (hroom : s.allocationTotal a.parentLicenseId + a.seats ≤ limit)
    (hallocation : s'.allocation = Function.update s.allocation id (some a))
    (htotal : s'.allocationTotal = Function.update s.allocationTotal a.parentLicenseId
      (s.allocationTotal a.parentLicenseId + a.seats))
    (hlimit : s'.allocationLimit = s.allocationLimit) : Allotted (es ++ [e]) s' := by
  have hids : allotted (es ++ [e]) = allotted es ++ [id] := by
    rw [allotted_snoc, hallots]
    rfl
  refine ⟨?_, ?_, ?_⟩
  · apply h.limited_update htotal hlimit
    rw [hlimited]
    exact hroom
  · rw [hids]
    exact h.known_update hallocation (List.subset_append_left _ _) List.mem_concat_self
  · rw [hids]
    intro hnodup licenseId
    obtain ⟨hold, _, hdisjoint⟩ := List.nodup_append.mp hnodup
    have hnew : id ∉ (allotted es).toFinset := by
      rw [List.mem_toFinset]
      exact fun hin => hdisjoint id hin id (List.mem_singleton_self id) rfl
    have hrest : ∑ x ∈ (allotted es).toFinset, seatsIn licenseId (s'.allocation x) =
        s.seatsTaken (allotted es) licenseId := by
      rw [hallocation]
      exact sum_update_row_of_notMem _ (fun _ => seatsIn licenseId) s.allocation hnew (some a)
    have hinsert : (allotted es ++ [id]).toFinset = insert id (allotted es).toFinset := by
      ext x
      simp
    rw [State.seatsTaken, hinsert, Finset.sum_insert hnew, hrest, ← h.summed hold licenseId, htotal, hallocation,
      Function.update_self]
    by_cases hparent : licenseId = a.parentLicenseId
    · subst hparent
      rw [Function.update_self]
      simp [seatsIn, hstanding, add_comm]
    · rw [Function.update_of_ne hparent]
      simp [seatsIn, Ne.symm hparent]

/-- Seats are given back once. -/
theorem Allotted.returned {e : Line contract} (h : Allotted es s) {id : Bytes32} {a : InstitutionalAllocation}
    (hallots : allots e = none) (hfound : s.allocation id = some a) (hstanding : a.active = true)
    (hallocation : s'.allocation = Function.update s.allocation id (some { a with active := false }))
    (htotal : s'.allocationTotal = Function.update s.allocationTotal a.parentLicenseId
      (s.allocationTotal a.parentLicenseId - a.seats))
    (hlimit : s'.allocationLimit = s.allocationLimit) : Allotted (es ++ [e]) s' := by
  have hids : allotted (es ++ [e]) = allotted es := by
    rw [allotted_snoc, hallots]
    exact List.append_nil _
  have hin : id ∈ (allotted es).toFinset := List.mem_toFinset.mpr (h.known id a hfound)
  refine ⟨?_, ?_, ?_⟩
  · exact h.limited_update htotal hlimit ((Nat.sub_le _ _).trans (h.limited _))
  · rw [hids]
    exact h.known_update hallocation (List.Subset.refl _) (h.known id a hfound)
  · rw [hids]
    intro hnodup licenseId
    have hmoved := sum_update_row (allotted es).toFinset (fun _ => seatsIn licenseId) s.allocation hin
      (some { a with active := false })
    rw [State.seatsTaken, hallocation, hmoved, hfound, htotal]
    change _ = s.seatsTaken (allotted es) licenseId - _ + _
    rw [← h.summed hnodup licenseId]
    by_cases hparent : licenseId = a.parentLicenseId
    · subst hparent
      have hcovered : (a.seats : Int) ≤ s.allocationTotal a.parentLicenseId := by
        have hone : seatsIn a.parentLicenseId (s.allocation id) ≤ s.seatsTaken (allotted es) a.parentLicenseId :=
          Finset.single_le_sum (fun x _ => seatsIn_nonneg _ _) hin
        rw [hfound, ← h.summed hnodup] at hone
        simpa [seatsIn, hstanding] using hone
      rw [Function.update_self]
      simp only [seatsIn, Option.elim, hstanding, true_and, if_true, Bool.false_eq_true, and_false, if_false,
        add_zero]
      omega
    · rw [Function.update_of_ne hparent]
      simp [seatsIn, Ne.symm hparent]

theorem Allotted.step (h : Allotted es s) (hchange : Change i.env s i.call o s') :
    Allotted (es ++ [⟨s, i, o, s'⟩]) s' := by
  obtain ⟨env, call⟩ := i
  cases hchange with
  | aside kind same =>
    refine h.quiet ?_ same.allocation same.allocationTotal ?_
    · cases call with
      | allocateSeats => cases kind
      | _ => rfl
    · intro id
      rw [same.allocationLimit]
      exact .inl le_rfl
  | @limited licenseId license seatLimit _ _ room =>
    refine h.quiet rfl rfl rfl ?_
    intro id
    by_cases hid : id = licenseId
    · subst hid
      dsimp only
      rw [Function.update_self]
      exact .inr room
    · dsimp only
      rw [Function.update_of_ne hid]
      exact .inl le_rfl
  | allotted _ _ _ _ _ standing limited room => exact h.taken rfl standing limited room rfl rfl rfl
  | reclaimed found _ _ standing => exact h.returned rfl found standing rfl rfl rfl
  | entitled => exact h.quiet rfl rfl rfl fun _ => .inl le_rfl
  | kept => exact h.quiet rfl rfl rfl fun _ => .inl le_rfl
  | stripped => exact h.quiet rfl rfl rfl fun _ => .inl le_rfl
  | proposed => exact h.quiet rfl rfl rfl fun _ => .inl le_rfl
  | optedIn => exact h.quiet rfl rfl rfl fun _ => .inl le_rfl
  | lent => exact h.quiet rfl rfl rfl fun _ => .inl le_rfl
  | used => exact h.quiet rfl rfl rfl fun _ => .inl le_rfl

theorem run_allotted (is : List (Input contract)) :
    Allotted ((machine contract crypto).journal State.empty is)
      ((machine contract crypto).run State.empty is) := by
  apply Machine.run_journal_invariant (P := fun s es => Allotted es s)
  · refine ⟨fun _ => le_rfl, ?_, fun _ _ => rfl⟩
    intro id a h
    cases h
  · intro es s i o s' h hstep
    exact h.step (execute_change hstep)

/-- Who sets the limit of a license, or takes seats of it. -/
def Call.seating : Call → Option (Address × Bytes32)
  | .setAllocationLimit caller licenseId _ => some (caller, licenseId)
  | .allocateSeats caller licenseId _ _ _ => some (caller, licenseId)
  | _ => none

theorem seated_by {caller : Address} {licenseId : Bytes32} (h : Change i.env s i.call o s')
    (hseating : i.call.seating = some (caller, licenseId)) :
    ∃ license, s.rights.license licenseId = some license ∧ license.licensee = caller ∧
      i.env.signers caller = true := by
  obtain ⟨env, call⟩ := i
  cases h with
  | aside kind =>
    cases call with
    | setAllocationLimit => cases kind
    | allocateSeats => cases kind
    | _ => cases hseating
  | limited stored signed =>
    cases hseating
    exact ⟨_, stored, rfl, signed⟩
  | allotted stored _ signed =>
    cases hseating
    exact ⟨_, stored, rfl, signed⟩
  | entitled => cases hseating
  | kept => cases hseating
  | stripped => cases hseating
  | proposed => cases hseating
  | optedIn => cases hseating
  | reclaimed => cases hseating
  | lent => cases hseating
  | used => cases hseating

/-- Over every run, the seats taken of a license are within the limit that its licensee has set, and a license
without a limit has none taken; only the licensee sets the limit and takes seats, and signs for it. While no
two allocations are given one id, the total of a license is the sum of the seats of its allocations that
stand: each is counted when it is made, and given back once. -/
theorem allocated_seats_stay_within_the_limit (is : List (Input contract)) :
    let s := (machine contract crypto).run State.empty is
    let es := (machine contract crypto).journal State.empty is
    (∀ licenseId, s.allocationTotal licenseId ≤ (s.allocationLimit licenseId).getD 0) ∧
    ((allotted es).Nodup → ∀ licenseId, s.allocationTotal licenseId = s.seatsTaken (allotted es) licenseId) ∧
    ∀ e ∈ es, ∀ caller licenseId, e.input.call.seating = some (caller, licenseId) →
      ∃ license, e.pre.rights.license licenseId = some license ∧ license.licensee = caller ∧
        e.input.env.signers caller = true := by
  intro s es
  have hallotted : Allotted es s := run_allotted is
  refine ⟨hallotted.limited, hallotted.summed, ?_⟩
  intro e he caller licenseId hseating
  obtain ⟨hstep, _⟩ := Machine.journal_step he
  exact seated_by (execute_change hstep) hseating

end Allocations

section Renditions

/-- The original work, or a successor that every grant moves to, or that this grant has opted in to. -/
def isGrantActiveForWork (now : Nat) (s : State) (grantId workId : Bytes32) : Outcome Bool := do
  let grant ← loadGrant s grantId
  let license ← loadLicense s grant.licenseId
  if license.isActive now = false ∨ now < grant.notBefore ∨ grant.expiresAt ≤ now then pure false
  else if workId = license.workId then pure true
  else
    match s.renditionMigration license.workId with
    | none => pure false
    | some migration =>
      if migration.toWorkId ≠ workId then pure false
      else pure (migration.policy = .forced || s.grantMigrationOptIn (grantId, workId))

/-- The admin has proposed the migration. -/
def Proposes (e : Line contract) (m : RenditionMigration) : Prop :=
  ∃ admin, e.pre.admin = some admin ∧ e.input.env.signers admin = true ∧
    e.input.call = .proposeRenditionMigration admin m.fromWorkId m.toWorkId m.policy

/-- The holder of the grant has opted in to the successor. -/
def OptsIn (e : Line contract) (grantId workId : Bytes32) : Prop :=
  ∃ grant, e.pre.rights.grant grantId = some grant ∧ e.input.env.signers grant.grantee = true ∧
    e.input.call = .acceptRenditionMigration grant.grantee grantId workId

/-- The migrations are the proposed ones, each from the work that it is stored under. -/
structure Migrated (es : List (Line contract)) (s : State) : Prop where
  proposed : ∀ work m, s.renditionMigration work = some m → m.fromWorkId = work ∧ ∃ e ∈ es, Proposes e m
  optedIn : ∀ grantId workId, s.grantMigrationOptIn (grantId, workId) = true ↔ ∃ e ∈ es, OptsIn e grantId workId

/-- A call that does not opt in to a successor leaves who has. -/
theorem Migrated.unopted {e : Line contract} (h : Migrated es s) {grantId workId : Bytes32}
    (hcall : ∀ caller, e.input.call ≠ .acceptRenditionMigration caller grantId workId) :
    s.grantMigrationOptIn (grantId, workId) = true ↔ ∃ x ∈ es ++ [e], OptsIn x grantId workId := by
  rw [h.optedIn]
  constructor
  · rintro ⟨x, hx, hopts⟩
    exact ⟨x, List.mem_append_left _ hx, hopts⟩
  · rintro ⟨x, hx, hopts⟩
    rcases List.mem_append.mp hx with hold | hnew
    · exact ⟨x, hold, hopts⟩
    · obtain rfl := List.mem_singleton.mp hnew
      obtain ⟨_, _, _, hsame⟩ := hopts
      exact absurd hsame (hcall _)

theorem Migrated.quiet {e : Line contract} (h : Migrated es s)
    (hcall : ∀ caller grantId workId, e.input.call ≠ .acceptRenditionMigration caller grantId workId)
    (hmigrations : s'.renditionMigration = s.renditionMigration)
    (hoptions : s'.grantMigrationOptIn = s.grantMigrationOptIn) : Migrated (es ++ [e]) s' where
  proposed := by
    intro work m hm
    rw [hmigrations] at hm
    obtain ⟨hfrom, x, hx, hproposes⟩ := h.proposed work m hm
    exact ⟨hfrom, x, List.mem_append_left _ hx, hproposes⟩
  optedIn := by
    intro grantId workId
    rw [hoptions]
    exact h.unopted fun caller => hcall caller grantId workId

theorem Migrated.step (h : Migrated es s) (hchange : Change i.env s i.call o s') :
    Migrated (es ++ [⟨s, i, o, s'⟩]) s' := by
  obtain ⟨env, call⟩ := i
  cases hchange with
  | aside kind same =>
    refine h.quiet ?_ same.renditionMigration same.grantMigrationOptIn
    rintro caller grantId workId rfl
    cases kind
  | @proposed caller m admin signed =>
    refine ⟨?_, ?_⟩
    · intro work m' hm'
      rcases update_row_cases hm' with ⟨rfl, rfl⟩ | ⟨_, hold⟩
      · exact ⟨rfl, _, List.mem_concat_self, caller, admin, signed, rfl⟩
      · obtain ⟨hfrom, x, hx, hproposes⟩ := h.proposed work m' hold
        exact ⟨hfrom, x, List.mem_append_left _ hx, hproposes⟩
    · intro grantId workId
      apply h.unopted
      intro caller hcall
      cases hcall
  | @optedIn grantId grant license m found signed =>
    refine ⟨?_, ?_⟩
    · intro work m' hm'
      obtain ⟨hfrom, x, hx, hproposes⟩ := h.proposed work m' hm'
      exact ⟨hfrom, x, List.mem_append_left _ hx, hproposes⟩
    · intro grantId' workId'
      by_cases hkey : (grantId', workId') = (grantId, m.toWorkId)
      · cases hkey
        dsimp only
        rw [Function.update_self]
        exact ⟨fun _ => ⟨_, List.mem_concat_self, grant, found, signed, rfl⟩, fun _ => rfl⟩
      · dsimp only
        rw [Function.update_of_ne hkey]
        apply h.unopted
        intro caller hsame
        injection hsame with _ hgrant hwork
        exact hkey (Prod.ext hgrant.symm hwork.symm)
  | entitled => exact h.quiet (fun _ _ _ => nofun) rfl rfl
  | kept => exact h.quiet (fun _ _ _ => nofun) rfl rfl
  | stripped => exact h.quiet (fun _ _ _ => nofun) rfl rfl
  | limited => exact h.quiet (fun _ _ _ => nofun) rfl rfl
  | allotted => exact h.quiet (fun _ _ _ => nofun) rfl rfl
  | reclaimed => exact h.quiet (fun _ _ _ => nofun) rfl rfl
  | lent => exact h.quiet (fun _ _ _ => nofun) rfl rfl
  | used => exact h.quiet (fun _ _ _ => nofun) rfl rfl

theorem run_rehomed (is : List (Input contract)) :
    Migrated ((machine contract crypto).journal State.empty is)
      ((machine contract crypto).run State.empty is) := by
  apply Machine.run_journal_invariant (P := fun s es => Migrated es s)
  · refine ⟨?_, ?_⟩
    · intro work m h
      cases h
    · intro grantId workId
      simp [State.empty]
  · intro es s i o s' h hstep
    exact h.step (execute_change hstep)

/-- A work has one migration for good. -/
theorem Change.migration (h : Change env s call o s') {work : Bytes32} {m : RenditionMigration}
    (hm : s.renditionMigration work = some m) : s'.renditionMigration work = some m := by
  cases h with
  | aside _ same => rwa [same.renditionMigration]
  | proposed _ _ _ _ first => exact update_keeps_row first hm
  | _ => exact hm

theorem isGrantActiveForWork_eq_true {now : Nat} {grantId workId : Bytes32} :
    isGrantActiveForWork now s grantId workId = .ok true ↔
      isGrantActive now s grantId = .ok true ∧ ∃ grant license, s.rights.grant grantId = some grant ∧
        s.rights.license grant.licenseId = some license ∧
        (workId = license.workId ∨ ∃ m, s.renditionMigration license.workId = some m ∧ m.toWorkId = workId ∧
          (m.policy = .forced ∨ s.grantMigrationOptIn (grantId, workId) = true)) := by
  simp only [isGrantActiveForWork, isGrantActive, loadGrant, loadLicense, bind_eq_ok, orRefuse_eq_ok]
  have hwindow : ∀ grant : AccessGrant, ∀ license : License,
      ((license.isActive now && decide (grant.notBefore ≤ now ∧ now < grant.expiresAt)) = true) ↔
        ¬(license.isActive now = false ∨ now < grant.notBefore ∨ grant.expiresAt ≤ now) := by
    intro grant license
    rw [Bool.and_eq_true, decide_eq_true_eq, not_or, not_or, Bool.not_eq_false, not_lt, not_le]
  constructor
  · rintro ⟨grant, hgrant, license, hlicense, hanswer⟩
    split_ifs at hanswer with hout hwork
    · cases hanswer
    · exact ⟨⟨grant, hgrant, license, hlicense, pure_eq_ok.mpr ((hwindow grant license).mpr hout)⟩, grant, license,
        hgrant, hlicense, .inl hwork⟩
    · refine ⟨⟨grant, hgrant, license, hlicense, pure_eq_ok.mpr ((hwindow grant license).mpr hout)⟩, grant, license,
        hgrant, hlicense, .inr ?_⟩
      cases hm : s.renditionMigration license.workId with
      | none =>
        rw [hm] at hanswer
        cases hanswer
      | some m =>
        simp only [hm] at hanswer
        split_ifs at hanswer with hto
        · cases hanswer
        · rw [pure_eq_ok, Bool.or_eq_true, decide_eq_true_eq] at hanswer
          exact ⟨m, rfl, not_not.mp hto, hanswer⟩
  · rintro ⟨⟨grant, hgrant, license, hlicense, hactive⟩, grant', license', hgrant', hlicense', hwork⟩
    rw [hgrant, Option.some.injEq] at hgrant'
    subst hgrant'
    rw [hlicense, Option.some.injEq] at hlicense'
    subst hlicense'
    refine ⟨grant, hgrant, license, hlicense, ?_⟩
    rw [if_neg ((hwindow grant license).mp (pure_eq_ok.mp hactive))]
    rcases hwork with rfl | ⟨m, hm, rfl, hpolicy⟩
    · rw [if_pos rfl]
      rfl
    · split_ifs
      · rfl
      · simp only [hm]
        rw [if_neg (not_not_intro rfl), pure_eq_ok, Bool.or_eq_true, decide_eq_true_eq]
        exact hpolicy

/-- Over every run, a grant can be used for a work exactly while it is active, with its license, and the work is
that of the license or the one that the admin has moved it to, for all grants or for those whose holder has opted
in to it under signature. A work is moved once, and stays so in every run that follows. -/
theorem successors_are_read_by_migration (is js : List (Input contract)) :
    let s := (machine contract crypto).run State.empty is
    let es := (machine contract crypto).journal State.empty is
    (∀ now grantId workId, isGrantActiveForWork now s grantId workId = .ok true ↔
      isGrantActive now s grantId = .ok true ∧ ∃ grant license, s.rights.grant grantId = some grant ∧
        s.rights.license grant.licenseId = some license ∧
        (workId = license.workId ∨ ∃ m, s.renditionMigration license.workId = some m ∧ m.toWorkId = workId ∧
          m.fromWorkId = license.workId ∧ (∃ e ∈ es, Proposes e m) ∧
          (m.policy = .forced ∨ ∃ e ∈ es, OptsIn e grantId workId))) ∧
    ∀ work m, s.renditionMigration work = some m →
      ((machine contract crypto).run State.empty (is ++ js)).renditionMigration work = some m := by
  intro s es
  have hmigrated : Migrated es s := run_rehomed is
  refine ⟨?_, ?_⟩
  · intro now grantId workId
    rw [isGrantActiveForWork_eq_true]
    refine and_congr_right fun _ => exists_congr fun grant => exists_congr fun license =>
      and_congr_right fun _ => and_congr_right fun _ => or_congr_right (exists_congr fun m => ?_)
    rw [hmigrated.optedIn]
    constructor
    · rintro ⟨hm, hto, hpolicy⟩
      obtain ⟨hfrom, hproposed⟩ := hmigrated.proposed _ m hm
      exact ⟨hm, hto, hfrom, hproposed, hpolicy⟩
    · rintro ⟨hm, hto, _, _, hpolicy⟩
      exact ⟨hm, hto, hpolicy⟩
  · intro work m hm
    rw [Machine.run_append]
    apply @Machine.run_invariant _ _ _ _ _ fun s : State => s.renditionMigration work = some m
    · exact hm
    · intro s i o s' hs hstep
      exact (execute_change hstep).migration hs

end Renditions

section Commitments

/-- The commitment is worked out again, for the patron and the rendition that are asked about. -/
def verifyAccessGrant (crypto : Crypto) (now : Nat) (s : State) (grantId : Bytes32) (patron : Address)
    (renditionId : Bytes32) : Outcome Bool := do
  let grant ← loadGrant s grantId
  let expected := deriveCommitment crypto grant.loanId patron renditionId grant.expiresAt
  pure (decide (grant.grantee = patron) && decide (grant.renditionId = renditionId) &&
    decide (grant.commitment = expected) && isGrantUsable now s grantId)

/-- The bytes that the commitment of a grant is the hash of. -/
def AccessGrant.input (crypto : Crypto) (grant : AccessGrant) : List Byte :=
  bytes32 grant.loanId ++ crypto.addressXdr grant.grantee ++ bytes32 grant.renditionId ++
    beBytes 8 grant.expiresAt

/-- The commitment of a grant is that of its terms. -/
structure AccessGrant.Committed (crypto : Crypto) (grant : AccessGrant) : Prop where
  commitment : grant.commitment = crypto.sha256 (grant.input crypto)
  fits : grant.expiresAt < 2^64

/-- The terms of a grant can be read off the bytes that it commits to. -/
theorem input_inj {g g' : AccessGrant} (hxdr : Function.Injective crypto.addressXdr) (hg : g.expiresAt < 2^64)
    (hg' : g'.expiresAt < 2^64) (h : g.input crypto = g'.input crypto) :
    g.loanId = g'.loanId ∧ g.grantee = g'.grantee ∧ g.renditionId = g'.renditionId ∧
      g.expiresAt = g'.expiresAt := by
  obtain ⟨hfront, hend⟩ := List.append_inj' h (by rw [length_beBytes, length_beBytes])
  obtain ⟨hfront, hrendition⟩ := List.append_inj' hfront (by rw [length_bytes32, length_bytes32])
  obtain ⟨hloan, hgrantee⟩ := List.append_inj hfront (by rw [length_bytes32, length_bytes32])
  exact ⟨bytes32_inj hloan, hxdr hgrantee, bytes32_inj hrendition, beBytes_inj hg hg' hend⟩

theorem deriveAccessGrant_committed {caller grantee : Address} {licenseId grantId : Bytes32} {duration : Nat}
    {proof : EnrollmentProof}
    (h : deriveAccessGrant crypto env s caller licenseId grantee duration proof = .ok (grantId, s')) :
    ∃ grant, AccessGrant.Committed crypto grant ∧
      s'.rights.grant = Function.update s.rights.grant grantId (some grant) := by
  simp only [deriveAccessGrant, bind_eq_ok, orRefuse_eq_ok, fitsU_eq_some, exists_unit, Prod.exists, pure_eq_ok,
    Prod.mk.injEq] at h
  obtain ⟨_, license, _, _, _, _, _, _, _, requested, ⟨hfits, rfl⟩, _, _, _, rfl, rfl⟩ := h
  refine ⟨_, ⟨rfl, ?_⟩, rfl⟩
  dsimp only
  split_ifs with hshort
  · exact hfits
  · omega

/-- Only a derivation touches the grants. -/
theorem effect_grant {rights : Rights} (h : Effect crypto env s call o rights)
    (hcall : ∀ caller licenseId grantee duration proof,
      call ≠ .deriveAccessGrant caller licenseId grantee duration proof) : rights.grant = s.rights.grant := by
  cases h with
  | derived => exact absurd rfl (hcall _ _ _ _ _)
  | _ => rfl

theorem step_committed (hs : ∀ id grant, s.rights.grant id = some grant → grant.Committed crypto)
    (h : execute crypto env s call = .ok (o, s')) :
    ∀ id grant, s'.rights.grant id = some grant → grant.Committed crypto := by
  by_cases hcall : ∃ caller licenseId grantee duration proof,
      call = .deriveAccessGrant caller licenseId grantee duration proof
  · obtain ⟨caller, licenseId, grantee, duration, proof, rfl⟩ := hcall
    obtain ⟨grantId, _, hderived⟩ := named_eq_ok.mp h
    obtain ⟨grant, hcommitted, hgrants⟩ := deriveAccessGrant_committed hderived
    exact forall_update_row hs hgrants hcommitted
  · have hsame := effect_grant (execute_effect h) fun caller licenseId grantee duration proof heq =>
      hcall ⟨caller, licenseId, grantee, duration, proof, heq⟩
    rw [hsame]
    exact hs

/-- Every grant that stands commits to its own terms. -/
theorem run_committed (is : List (Input contract)) : ∀ id grant,
    ((machine contract crypto).run State.empty is).rights.grant id = some grant → grant.Committed crypto := by
  apply @Machine.run_invariant _ _ _ _ _ fun s : State =>
    ∀ id grant, s.rights.grant id = some grant → grant.Committed crypto
  · intro id grant h
    cases h
  · intro s i o s' hs hstep
    exact step_committed hs hstep

/-- Over every run, a grant is verified exactly for the patron and the rendition that it was derived for, while it
is active with its license: the commitment that is worked out again is then the stored one. Two grants with
one commitment have the same loan, patron, rendition and end, unless the hash of their terms collides. -/
theorem grants_are_verified_for_their_terms (is : List (Input contract)) :
    let s := (machine contract crypto).run State.empty is
    (∀ now grantId patron renditionId, verifyAccessGrant crypto now s grantId patron renditionId = .ok true ↔
      isGrantActive now s grantId = .ok true ∧ ∃ grant, s.rights.grant grantId = some grant ∧
        grant.grantee = patron ∧ grant.renditionId = renditionId) ∧
    (Function.Injective crypto.addressXdr → ∀ id id' g g',
      s.rights.grant id = some g → s.rights.grant id' = some g' → g.commitment = g'.commitment →
        (g.input crypto ≠ g'.input crypto → crypto.sha256 (g.input crypto) ≠ crypto.sha256 (g'.input crypto)) →
          g.loanId = g'.loanId ∧ g.grantee = g'.grantee ∧ g.renditionId = g'.renditionId ∧
            g.expiresAt = g'.expiresAt) := by
  intro s
  have hs := @run_committed contract crypto is
  refine ⟨?_, ?_⟩
  · intro now grantId patron renditionId
    have husable : isGrantUsable now s grantId = true ↔ isGrantActive now s grantId = .ok true := by
      unfold isGrantUsable
      cases isGrantActive now s grantId with
      | ok active => simp
      | error => simp
    simp only [verifyAccessGrant, loadGrant, bind_eq_ok, orRefuse_eq_ok, pure_eq_ok, Bool.and_eq_true,
      decide_eq_true_eq, husable]
    constructor
    · rintro ⟨grant, hgrant, ⟨⟨hpatron, hrendition⟩, _⟩, hactive⟩
      exact ⟨hactive, grant, hgrant, hpatron, hrendition⟩
    · rintro ⟨hactive, grant, hgrant, rfl, rfl⟩
      exact ⟨grant, hgrant, ⟨⟨rfl, rfl⟩, (hs grantId grant hgrant).commitment⟩, hactive⟩
  · intro hxdr id id' g g' hg hg' hsame hcollision
    have hcommitted := hs id g hg
    have hcommitted' := hs id' g' hg'
    rw [hcommitted.commitment, hcommitted'.commitment] at hsame
    have hinput : g.input crypto = g'.input crypto := by
      by_contra hne
      exact hcollision hne hsame
    exact input_inj hxdr hcommitted.fits hcommitted'.fits hinput

end Commitments

end ChainVerse.LibraryLicensing
