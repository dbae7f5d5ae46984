import ChainVerse.Core.Payouts

namespace ChainVerse.ChainverseCore

variable {contract : Address} {s s' : State} {tokens : Tokens}

section Definitions

/-- Whether a record is of the token and has the status, where these are given. -/
def wanted (token : Option Address) (status : Option EscrowStatus) (record : EscrowRecord) : Bool :=
  token.all (record.token = ·) && status.all (record.status = ·)

/-- The records with ids from `start` on that are wanted. -/
def search (s : State) (token : Option Address) (status : Option EscrowStatus) (start limit : Nat) :
    List EscrowRecord :=
  let stop := min s.nextId (saturatingAdd start limit)
  ((List.range' start (stop - start)).filterMap s.record).filter (wanted token status)

def u64Max : Nat := 2^64 - 1

def getEscrowsByBuyer (s : State) (buyer : Address) : List EscrowRecord := getByBuyer s buyer 0 u64Max

def getEscrowsBySeller (s : State) (seller : Address) : List EscrowRecord := getBySeller s seller 0 u64Max

def searchEscrows (s : State) (token : Option Address) (status : Option EscrowStatus) :
    List EscrowRecord :=
  search s token status 0 u64Max

end Definitions

section Scans

/-- All records, in the order of their ids. -/
def State.records (s : State) : List EscrowRecord := (List.range s.nextId).filterMap s.record

theorem Books.recorded (hs : Books contract s) : ∀ id ∈ List.range s.nextId, ∃ r, s.record id = some r := by
  intro id hid
  exact (hs.contiguous id).mpr (List.mem_range.mp hid)

theorem Books.records_ids (hs : Books contract s) : s.records.map EscrowRecord.id = List.range s.nextId := by
  have hrecorded := hs.recorded
  unfold State.records
  generalize List.range s.nextId = ids at hrecorded
  induction ids with
  | nil => rfl
  | cons id ids ih =>
    obtain ⟨⟨r, hr⟩, hrest⟩ := List.forall_mem_cons.mp hrecorded
    rw [List.filterMap_cons_some hr, List.map_cons, hs.named id r hr, ih hrest]

theorem Books.mem_records (hs : Books contract s) (r : EscrowRecord) :
    r ∈ s.records ↔ s.record r.id = some r := by
  simp only [State.records, List.mem_filterMap, List.mem_range]
  constructor
  · rintro ⟨id, _, hr⟩
    rw [hs.named id r hr]
    exact hr
  · intro hr
    exact ⟨r.id, hs.contiguous.lt hr, hr⟩

/-- The rows with a property are the records with it. -/
theorem having_records (s : State) (p : EscrowRecord → Bool) :
    (having s.record s.nextId p).filterMap s.record = s.records.filter p := by
  rw [having, State.records, List.filterMap_filter, List.filter_filterMap]
  congr 1
  funext id
  cases s.record id with
  | none => rfl
  | some r => cases hp : p r <;> simp [Option.filter, hp]

/-- A search reads a slice of the records. -/
theorem Books.search (hs : Books contract s) (hfits : s.nextId < 2^64) (token : Option Address)
    (status : Option EscrowStatus) (start limit : Nat) : search s token status start limit =
      ((s.records.drop start).take limit).filter (wanted token status) := by
  have hstop : min s.nextId (saturatingAdd start limit) = min s.nextId (start + limit) := by
    unfold saturatingAdd
    omega
  have hplaces : (List.range' start (min s.nextId (start + limit) - start)).filterMap s.record =
      (List.range' start (min s.nextId (start + limit) - start)).filterMap
        fun i => (List.range s.nextId)[i]?.bind s.record := by
    apply List.filterMap_congr
    intro i hi
    rw [List.mem_range'_1] at hi
    rw [List.getElem?_range (by omega), Option.bind_some]
  have hcut : (List.range' start (min s.nextId (start + limit) - start)).filterMap s.record =
      (s.records.drop start).take limit := by
    have hrest : ∀ id ∈ (List.range s.nextId).drop start, ∃ r, s.record id = some r :=
      fun id hid => hs.recorded id (List.mem_of_mem_drop hid)
    have hpage := take_page (List.range s.nextId) start limit
    rw [List.length_range] at hpage
    rw [hplaces, places_page, hpage, filterMap_take_of_forall hrest, filterMap_drop_of_forall hs.recorded]
    rfl
  rw [ChainverseCore.search, hstop, hcut]

/-- What an index lists is cut out of the records that it is of. -/
theorem Books.collectByIds (hs : Books contract s) (hfits : s.nextId < 2^64) (p : EscrowRecord → Bool)
    (start limit : Nat) : collectByIds s (having s.record s.nextId p) start limit =
      ((s.records.filter p).drop start).take limit := by
  let ids := having s.record s.nextId p
  have hlength : ids.length ≤ s.nextId := by
    have hle := List.length_filter_le (fun id => (s.record id).any p) (List.range s.nextId)
    rw [List.length_range] at hle
    exact hle
  have hstop : min ids.length (saturatingAdd start limit) = min ids.length (start + limit) := by
    unfold saturatingAdd
    omega
  have hids : ∀ id ∈ ids, ∃ r, s.record id = some r :=
    fun id hid => hs.recorded id (List.mem_of_mem_filter hid)
  have hrest : ∀ id ∈ ids.drop start, ∃ r, s.record id = some r :=
    fun id hid => hids id (List.mem_of_mem_drop hid)
  calc ChainverseCore.collectByIds s ids start limit
      = (List.range' start (min ids.length (start + limit) - start)).filterMap
          (fun i => ids[i]?.bind s.record) := by rw [ChainverseCore.collectByIds, hstop]
    _ = ((ids.drop start).take limit).filterMap s.record := by rw [places_page, take_page]
    _ = ((ids.filterMap s.record).drop start).take limit := by
        rw [filterMap_take_of_forall hrest, filterMap_drop_of_forall hids]
    _ = ((s.records.filter p).drop start).take limit := by rw [having_records]

end Scans

section Runs

theorem createEscrow_fits {env : Env contract} {depositor recipient token : Address} {amount : Int}
    {expiresAt id : Nat}
    (h : createEscrow env s depositor recipient token amount expiresAt = .ok (id, s')) : s'.nextId < 2^64 := by
  simp only [createEscrow, create, nextId, save, addToBuyerIndex, addToSellerIndex, bind_eq_ok,
    requireAuth_eq_ok, Tokens.transfer_eq_ok, orRefuse_eq_ok, fitsU_eq_some, pure_eq_ok, Prod.exists,
    Prod.mk.injEq, exists_unit, recordEvent_eq_ok] at h
  obtain ⟨_, _, _, ⟨_, _, _, _, ⟨_, _, _, rfl⟩, _, _, ⟨_, ⟨hfits, rfl⟩, rfl, rfl⟩, rfl, rfl⟩,
    _, ⟨_, rfl⟩, _, rfl⟩ := h
  exact hfits

/-- Only a new escrow takes an id. -/
theorem effect_next {env : Env contract} {call : Call} (h : Effect env s call s') :
    s'.nextId = s.nextId ∨ ∃ depositor recipient token amount expiresAt,
      call = .createEscrow depositor recipient token amount expiresAt := by
  cases h with
  | configure kind same tokens => exact .inl same.nextId
  | opened => exact .inr ⟨_, _, _, _, _, rfl⟩
  | closed => exact .inl rfl

/-- The next id is a machine integer. -/
theorem step_fits {i : Input contract} {o : Option Nat} (hs : s.nextId < 2^64)
    (hstep : (machine contract).step s i = .ok (o, s')) : s'.nextId < 2^64 := by
  cases i with
  | drift move =>
    rw [step_drift hstep]
    exact hs
  | invoke env call =>
    rcases effect_next (step_invoke hstep) with hsame | ⟨depositor, recipient, token, amount, expiresAt, rfl⟩
    · rw [hsame]
      exact hs
    · simp only [machine, execute, bind_eq_ok, pure_eq_ok, Prod.exists, Prod.mk.injEq] at hstep
      obtain ⟨_, _, hcreated, _, rfl⟩ := hstep
      exact createEscrow_fits hcreated

theorem run_fits (is : List (Input contract)) :
    ((machine contract).run (State.empty tokens) is).nextId < 2^64 := by
  apply @Machine.run_invariant _ _ _ _ _ fun s : State => s.nextId < 2^64
  · exact Nat.two_pow_pos 64
  · exact fun s i o s' hs hstep => step_fits hs hstep

/-- Over every run, a search without conditions lists every escrow once, in the order of the ids, and one
with conditions lists those of them that meet them. The listings by buyer and by seller, which read an
index, list the same as a scan of all records; their pages, and those of a search before its conditions,
are slices, so that pages one after the other show every record once. The active escrows are those that a
search for pending ones finds, and the statistics count what the searches find. -/
theorem listings_agree_with_the_records (h : ∀ token, 0 ≤ tokens.balance token contract)
    (is : List (Input contract)) :
    let s := (machine contract).run (State.empty tokens) is
    let all := searchEscrows s none none
    (all.map EscrowRecord.id = List.range s.nextId ∧ ∀ r, r ∈ all ↔ s.record r.id = some r) ∧
    (∀ token status start limit,
      search s token status start limit = ((all.drop start).take limit).filter (wanted token status)) ∧
    (∀ buyer, getEscrowsByBuyer s buyer = all.filter fun r => r.depositor = buyer) ∧
    (∀ seller, getEscrowsBySeller s seller = all.filter fun r => r.recipient = seller) ∧
    (∀ buyer start limit,
      getByBuyer s buyer start limit = ((getEscrowsByBuyer s buyer).drop start).take limit) ∧
    (∀ seller start limit,
      getBySeller s seller start limit = ((getEscrowsBySeller s seller).drop start).take limit) ∧
    getActiveEscrows s = searchEscrows s none (some .pending) ∧
    getStats s = .ok ⟨all.length, (getActiveEscrows s).length,
      (searchEscrows s none (some .completed)).length⟩ := by
  intro s all
  have hs : Books contract s := run_books h is
  have hfits : s.nextId < 2^64 := run_fits is
  have hlength : s.records.length = s.nextId := by
    rw [State.records, length_filterMap_of_forall hs.recorded, List.length_range]
  have hwhole : ∀ l : List EscrowRecord, l.length ≤ s.nextId → (l.drop 0).take u64Max = l := by
    intro l hl
    rw [List.drop_zero, List.take_of_length_le]
    unfold u64Max
    omega
  have hsearch : ∀ token status, searchEscrows s token status = s.records.filter (wanted token status) := by
    intro token status
    rw [searchEscrows, hs.search hfits, hwhole s.records hlength.le]
  have hall : all = s.records := (hsearch none none).trans (List.filter_eq_self.mpr fun _ _ => rfl)
  have hindex : ∀ p : EscrowRecord → Bool,
      collectByIds s (having s.record s.nextId p) 0 u64Max = s.records.filter p := by
    intro p
    rw [hs.collectByIds hfits, hwhole]
    exact (List.length_filter_le p s.records).trans hlength.le
  have hbuyer : ∀ buyer, getEscrowsByBuyer s buyer = s.records.filter fun r => r.depositor = buyer := by
    intro buyer
    rw [getEscrowsByBuyer, getByBuyer, hs.buyers, depositedBy, hindex]
  have hseller : ∀ seller, getEscrowsBySeller s seller = s.records.filter fun r => r.recipient = seller := by
    intro seller
    rw [getEscrowsBySeller, getBySeller, hs.sellers, destinedTo, hindex]
  have hstatus : ∀ status, searchEscrows s none (some status) = s.records.filter fun r => r.status = status :=
    fun status => hsearch none (some status)
  have htally : ∀ status, withStatus s status = (searchEscrows s none (some status)).length := by
    intro status
    have hrows : ∀ id ∈ having s.record s.nextId fun r => r.status = status, ∃ r, s.record id = some r :=
      fun id hid => hs.recorded id (List.mem_of_mem_filter hid)
    rw [hstatus, ← having_records, length_filterMap_of_forall hrows]
    rfl
  rw [hall]
  refine ⟨⟨hs.records_ids, hs.mem_records⟩, hs.search hfits, hbuyer, hseller, ?_, ?_,
    (hstatus .pending).symm, ?_⟩
  · intro buyer start limit
    rw [hbuyer, getByBuyer, hs.buyers, depositedBy, hs.collectByIds hfits]
  · intro seller start limit
    rw [hseller, getBySeller, hs.sellers, destinedTo, hs.collectByIds hfits]
  · rw [hs.getStats, hlength, htally, htally, hstatus .pending]
    rfl

theorem sampleEscrows_listed :
    let s := (machine ⟨0⟩).run (State.empty sampleTokens) sampleEscrows
    (getByBuyer s ⟨1⟩ 1 1).map EscrowRecord.id = [1] ∧
      getActiveEscrows s = searchEscrows s none (some .pending) :=
  ⟨by decide +kernel,
    (listings_agree_with_the_records (fun token => by simp [sampleTokens]) sampleEscrows).2.2.2.2.2.2.1⟩

end Runs

end ChainVerse.ChainverseCore
