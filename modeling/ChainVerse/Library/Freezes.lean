import ChainVerse.Library.Migrations

namespace ChainVerse.LibraryRights

variable {contract : Address} {crypto : Crypto} {s : State} {i : Input contract}

/-- The entry points that the documentation of the migration calls its write surface. -/
inductive Surface where
  | putPolicy
  | putWork
  | borrowWork
  | placeHold
  | createReserve
  | registerLicense
  | registerLicensedRendition
  | registerSeat
  | appendPolicy
  | attestMembership
  | checkoutWork
  | borrowFromReserve
  | renewLoan
  | registerWork
  | registerEdition
  | registerRendition
  | updateMetadata
  | updateContentHash
  deriving DecidableEq, Repr

def LendCall.surface : LendCall → Option Surface
  | .putPolicy .. => some .putPolicy
  | .putWork .. => some .putWork
  | .borrowWork .. => some .borrowWork
  | .placeHold .. => some .placeHold
  | .createReserve .. => some .createReserve
  | .checkoutWork .. => some .checkoutWork
  | .borrowFromReserve .. => some .borrowFromReserve
  | .renewLoan .. => some .renewLoan
  | _ => none

def CatalogCall.surface : CatalogCall → Surface
  | .registerWork .. => .registerWork
  | .registerEdition .. => .registerEdition
  | .registerRendition .. => .registerRendition
  | .updateMetadata .. => .updateMetadata
  | .updateContentHash .. => .updateContentHash

def ServeCall.surface : ServeCall → Option Surface
  | .registerLicense .. => some .registerLicense
  | .registerLicensedRendition .. => some .registerLicensedRendition
  | .registerSeat .. => some .registerSeat
  | .appendPolicy .. => some .appendPolicy
  | .attestMembership .. => some .attestMembership
  | _ => none

def Call.surface : Call → Option Surface
  | .govern _ => none
  | .lend call => call.surface
  | .catalog call => some call.surface
  | .serve call => call.surface

/-- The entry points that ask whether the contract is writable. -/
def Surface.gated : Surface → Bool
  | .putWork | .borrowWork | .placeHold | .createReserve | .borrowFromReserve | .registerLicense
  | .appendPolicy => true
  | _ => false

/-- The call is turned down, and the store stays as it was. -/
def Rejected (crypto : Crypto) (s : State) (i : Input contract) : Prop :=
  (∃ x, (machine contract crypto).step s i = .error x) ∧ (machine contract crypto).next s i = s

/-- An entry point is closed in every state in which a migration runs. -/
def Frozen (k : Surface) : Prop :=
  ∀ (contract : Address) (crypto : Crypto) (is : List (Input contract)) (i : Input contract),
    i.call.surface = some k → isMigrating ((machine contract crypto).run State.empty is) = true →
    Rejected crypto ((machine contract crypto).run State.empty is) i

/-- The state as it would be without a migration. -/
def thaw (s : State) : State := { s with migration := { s.migration with state := none } }

section Gates

theorem rejected_iff :
    Rejected crypto s i ↔ ∃ x, (machine contract crypto).step s i = .error x :=
  and_iff_left_of_imp fun ⟨_, h⟩ => Machine.next_error _ h

theorem rejected_of_not_ok (h : ∀ r, (machine contract crypto).step s i ≠ .ok r) :
    Rejected crypto s i := by
  rw [rejected_iff]
  cases hstep : (machine contract crypto).step s i with
  | ok r => exact absurd hstep (h r)
  | error x => exact ⟨x, rfl⟩

theorem ensureWritable_eq_ok {u : Unit} : ensureWritable s = .ok u ↔ isMigrating s = false := by
  rw [ensureWritable, refuseIf_eq_ok, Bool.not_eq_true]

theorem borrowWork_writable {env : Env contract} {caller borrower : Address} {workId : Bytes32}
    {l : Lending} (h : borrowWork env s caller workId borrower = .ok l) : isMigrating s = false := by
  simp only [borrowWork, bind_eq_ok, ensureWritable_eq_ok, exists_unit] at h
  exact h.2.2.1

/-- What a gated entry point accepts, it accepts while no migration runs. -/
theorem writable_of_gated {k : Surface} {r : Answer × State} (hk : i.call.surface = some k)
    (hgated : k.gated = true) (h : (machine contract crypto).step s i = .ok r) :
    isMigrating s = false := by
  obtain ⟨env, registries, call⟩ := i
  obtain ⟨o, s'⟩ := r
  cases call with
  | govern call => cases hk
  | lend call =>
    obtain ⟨l, hlend, _⟩ := step_lend rfl h
    cases call with
    | putWork =>
      simp only [lend, putWork, map_eq_ok, bind_eq_ok, ensureWritable_eq_ok, exists_unit] at hlend
      obtain ⟨_, ⟨_, _, hwritable, _⟩, _⟩ := hlend
      exact hwritable
    | borrowWork =>
      simp only [lend, map_eq_ok] at hlend
      obtain ⟨_, hborrow, _⟩ := hlend
      exact borrowWork_writable hborrow
    | placeHold =>
      simp only [lend, placeHold, map_eq_ok, bind_eq_ok, ensureWritable_eq_ok, exists_unit] at hlend
      obtain ⟨_, ⟨_, _, hwritable, _⟩, _⟩ := hlend
      exact hwritable
    | createReserve =>
      simp only [lend, createReserve, map_eq_ok, bind_eq_ok, ensureWritable_eq_ok, exists_unit]
        at hlend
      obtain ⟨_, ⟨_, _, hwritable, _⟩, _⟩ := hlend
      exact hwritable
    | borrowFromReserve =>
      simp only [lend, borrowFromReserve, map_eq_ok, bind_eq_ok, exists_unit] at hlend
      obtain ⟨_, ⟨_, _, _, _, _, _, _, _, _, _, hborrow, _⟩, _⟩ := hlend
      exact borrowWork_writable hborrow
    | putPolicy | checkoutWork | renewLoan =>
      cases hk
      cases hgated
    | returnWork | claimHold | returnToReserve | returnLoan => cases hk
  | catalog call =>
    cases hk
    cases call <;> cases hgated
  | serve call =>
    obtain ⟨v, hserve, _⟩ := step_serve rfl h
    cases call with
    | registerLicense =>
      simp only [serve, registerLicense, map_eq_ok, bind_eq_ok, ensureWritable_eq_ok, exists_unit]
        at hserve
      obtain ⟨_, ⟨_, _, hwritable, _⟩, _⟩ := hserve
      exact hwritable
    | appendPolicy =>
      simp only [serve, appendPolicy, map_eq_ok, bind_eq_ok, ensureWritable_eq_ok, exists_unit]
        at hserve
      obtain ⟨_, ⟨_, _, hwritable, _⟩, _⟩ := hserve
      exact hwritable
    | registerLicensedRendition | registerSeat | attestMembership =>
      cases hk
      cases hgated
    | _ => cases hk

theorem rejected_of_gated {k : Surface} (hk : i.call.surface = some k) (hgated : k.gated = true)
    (hmigrating : isMigrating s = true) : Rejected crypto s i := by
  apply rejected_of_not_ok
  intro r h
  rw [writable_of_gated hk hgated h] at hmigrating
  cases hmigrating

/-- Entry points without a gate do not look at the migration. -/
theorem rejected_thaw {k : Surface} (hk : i.call.surface = some k) (hopen : k.gated = false) :
    Rejected crypto (thaw s) i ↔ Rejected crypto s i := by
  rw [rejected_iff, rejected_iff]
  obtain ⟨env, registries, call⟩ := i
  cases call with
  | govern call => cases hk
  | lend call =>
    have hsame : lend env crypto registries (thaw s) call = lend env crypto registries s call := by
      cases call with
      | putPolicy | checkoutWork | renewLoan => rfl
      | putWork | borrowWork | placeHold | createReserve | borrowFromReserve =>
        cases hk
        cases hopen
      | returnWork | claimHold | returnToReserve | returnLoan => cases hk
    simp only [machine, execute, map_eq_error, hsame]
  | catalog call =>
    have hsame : writeCatalog env (thaw s) call = writeCatalog env s call := by cases call <;> rfl
    simp only [machine, execute, map_eq_error, hsame]
  | serve call =>
    have hsame : serve env crypto registries (thaw s) call = serve env crypto registries s call := by
      cases call with
      | registerLicensedRendition | registerSeat | attestMembership => rfl
      | registerLicense | appendPolicy =>
        cases hk
        cases hopen
      | _ => cases hk
    simp only [machine, execute, map_eq_error, hsame]

/-- While a migration runs, a call of the write surface is turned down if its entry point is gated, and
else just where it would be without the migration. -/
theorem rejected_migrating {k : Surface} (hk : i.call.surface = some k)
    (hmigrating : isMigrating s = true) :
    Rejected crypto s i ↔ k.gated = true ∨ Rejected crypto (thaw s) i := by
  cases hgated : k.gated with
  | true => exact iff_of_true (rejected_of_gated hk hgated hmigrating) (.inl rfl)
  | false =>
    rw [rejected_thaw hk hgated]
    exact ⟨.inr, fun h => h.resolve_left Bool.false_ne_true⟩

end Gates

section Samples

def sampleMetadata : MetadataCommitment := ⟨"ipfs://m", 1⟩

/-- A library with a work, its edition and rendition, and a loan, in which a migration begins. -/
def sampleMigrating : List (Input ⟨0⟩) :=
  [sampleBootstrap, ⟨.sample, sampleRegistries, .lend (.putPolicy ⟨3⟩ "p" 2 5)⟩,
    ⟨.sample, sampleRegistries, .lend (.putWork ⟨3⟩ 1 1 ⟨3⟩ "p")⟩,
    ⟨.sample, sampleRegistries, .catalog (.registerWork ⟨3⟩ 1 sampleMetadata ⟨3⟩)⟩,
    ⟨.sample, sampleRegistries, .catalog (.registerEdition ⟨3⟩ 1 2 sampleMetadata ⟨3⟩)⟩,
    ⟨.sample, sampleRegistries,
      .catalog (.registerRendition ⟨3⟩ 2 3 ⟨.sha256, 1⟩ sampleMetadata ⟨3⟩)⟩,
    ⟨.sample, sampleRegistries, .lend (.checkoutWork ⟨6⟩ 1 100 false 1 1000)⟩,
    ⟨.sample, sampleRegistries, .govern (.beginMigration ⟨1⟩ 3)⟩]

/-- A call of each entry point without a gate. -/
def sampleWrite : Surface → Call
  | .putPolicy => .lend (.putPolicy ⟨3⟩ "q" 1 1)
  | .checkoutWork => .lend (.checkoutWork ⟨8⟩ 1 100 false 1 1000)
  | .renewLoan => .lend (.renewLoan ⟨6⟩ sampleLoanId 50)
  | .registerWork => .catalog (.registerWork ⟨3⟩ 4 sampleMetadata ⟨3⟩)
  | .registerEdition => .catalog (.registerEdition ⟨3⟩ 1 4 sampleMetadata ⟨3⟩)
  | .registerRendition =>
    .catalog (.registerRendition ⟨3⟩ 2 4 ⟨.sha256, 1⟩ sampleMetadata ⟨3⟩)
  | .updateMetadata => .catalog (.updateMetadata ⟨3⟩ 1 sampleMetadata)
  | .updateContentHash => .catalog (.updateContentHash ⟨3⟩ 3 ⟨.sha256, 2⟩)
  | .registerLicensedRendition => .serve (.registerLicensedRendition ⟨3⟩ 1 1 "pdf")
  | .registerSeat => .serve (.registerSeat ⟨3⟩ 1 ⟨3⟩)
  | _ => .serve (.attestMembership ⟨3⟩ ⟨9⟩ 1 2 3 100)

theorem sampleMigrating_open {k : Surface} (hopen : k.gated = false) : ¬Frozen k := by
  intro hfrozen
  have hmigrating : isMigrating ((machine ⟨0⟩ sampleCrypto).run State.empty sampleMigrating) = true :=
    by decide +kernel
  have hk : (sampleWrite k).surface = some k := by
    cases k <;> first | rfl | cases hopen
  have haccepted : ∃ r, (machine ⟨0⟩ sampleCrypto).step
      ((machine ⟨0⟩ sampleCrypto).run State.empty sampleMigrating)
      ⟨.sample, sampleRegistries, sampleWrite k⟩ = .ok r := by
    cases k <;> decide +kernel
  obtain ⟨⟨x, hrejected⟩, _⟩ := hfrozen ⟨0⟩ sampleCrypto sampleMigrating
    ⟨.sample, sampleRegistries, sampleWrite k⟩ hk hmigrating
  obtain ⟨r, haccepted⟩ := haccepted
  rw [hrejected] at haccepted
  cases haccepted

end Samples

/-- The entry points of the write surface that are closed in every migration are those with a gate; a
call of the others is turned down in a migration just where it would be without one. In every run the
schema version rises by one with each migration that is finalized, after all its steps, and the log has
an entry for each of these. -/
theorem run_migrations (k : Surface) :
    (Frozen k ↔ k.gated = true) ∧
    ∀ (contract : Address) (crypto : Crypto) (is : List (Input contract)),
      let s := (machine contract crypto).run State.empty is
      let es := (machine contract crypto).journal State.empty is
      (∀ (i : Input contract), i.call.surface = some k → isMigrating s = true →
        (Rejected crypto s i ↔ k.gated = true ∨ Rejected crypto (thaw s) i)) ∧
      MigrationsLogged s es ∧ ∀ e ∈ es, VersionLine e := by
  constructor
  · constructor
    · intro hfrozen
      by_contra hopen
      exact sampleMigrating_open (Bool.eq_false_iff.mpr hopen) hfrozen
    · intro hgated contract crypto is i hk hmigrating
      exact rejected_of_gated hk hgated hmigrating
  · intro contract crypto is s es
    refine ⟨?_, (run_versioned is).2.toMigrationsLogged, run_versionLines is⟩
    intro i hk hmigrating
    exact rejected_migrating hk hmigrating

/-- A policy is put while the migration runs. -/
theorem sampleMigrating_putPolicy : ¬Frozen .putPolicy := sampleMigrating_open rfl

end ChainVerse.LibraryRights
