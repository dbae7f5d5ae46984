import ChainVerse.Framework.Accounts
import ChainVerse.Framework.Splits
import ChainVerse.Royalty.Contract

namespace ChainVerse.RoyaltySplits

variable {contract : Address} {env : Env contract} {s s' : State}

section Manifests

/-- What `createManifest` has checked of a manifest. -/
structure ValidManifest (manifest : SplitManifest) : Prop where
  nonempty : manifest.recipients ≠ []
  sameLength : manifest.recipients.length = manifest.bps.length
  whole : manifest.bps.sum = totalBps

theorem sumBps_spec {bps : List Nat} {total result : Nat} (h : sumBps total bps = .ok result) :
    result = total + bps.sum := by
  induction bps generalizing total with
  | nil =>
    rw [sumBps, pure_eq_ok] at h
    simpa using h.symm
  | cons share bps ih =>
    simp only [sumBps, bind_eq_ok, refuseIf_eq_ok, exists_unit, orRefuse_eq_ok, fitsU_eq_some] at h
    obtain ⟨_, next, ⟨_, rfl⟩, hrest⟩ := h
    rw [ih hrest, List.sum_cons, Nat.add_assoc]

theorem createManifest_effect {admin : Address} {manifestId : Bytes32} {recipients : List Address}
    {bps : List Nat} (h : createManifest env s admin manifestId recipients bps = .ok s') :
    ∃ manifest, ValidManifest manifest ∧
      s' = { s with manifest := Function.update s.manifest manifestId (some manifest) } := by
  simp only [createManifest, bind_eq_ok, refuseIf_eq_ok, exists_unit, not_not, pure_eq_ok] at h
  obtain ⟨_, _, hsome, _, hlength, total, htotal, hwhole, rfl⟩ := h
  refine ⟨_, ⟨?_, hlength, ?_⟩, rfl⟩
  · exact fun hnil => hsome (List.length_eq_zero_iff.mpr hnil)
  · rw [← hwhole, sumBps_spec htotal, Nat.zero_add]

end Manifests

section Shares

variable {amount : Int}

theorem shareOf_last {given share : Int} {bps : List Nat}
    (h : shareOf amount given [] bps = .ok share) : share = amount - given := by
  simp only [shareOf, orRefuse_eq_ok, fitsI128_eq_some] at h
  exact h.2.symm

theorem shareOf_cons (hamount : 0 ≤ amount) {given share : Int} {next : Address}
    {rest : List Address} {w : Nat} {bps : List Nat}
    (h : shareOf amount given (next :: rest) (w :: bps) = .ok share) :
    share = amount * w / totalBps := by
  simp only [shareOf, bind_eq_ok, orRefuse_eq_ok, fitsI128_eq_some, pure_eq_ok] at h
  obtain ⟨_, ⟨_, rfl⟩, rfl⟩ := h
  exact Int.tdiv_eq_ediv_of_nonneg (Int.mul_nonneg hamount (Int.natCast_nonneg w))

/-- The loop credits each recipient the share of its weight. -/
theorem creditShares_eq (hamount : 0 ≤ amount) {given : Int} {recipients : List Address}
    {bps : List Nat} {balance result : Address → Int}
    (hlength : recipients.length = bps.length)
    (h : creditShares amount given recipients bps balance = .ok result) :
    result = (recipients.zip (shares amount totalBps given bps)).foldl credit balance := by
  induction recipients generalizing given bps balance with
  | nil =>
    rw [creditShares, pure_eq_ok] at h
    exact h.symm
  | cons recipient rest ih =>
    simp only [creditShares, bind_eq_ok, orRefuse_eq_ok, fitsI128_eq_some] at h
    obtain ⟨share, hshare, _, ⟨_, rfl⟩, _, ⟨_, rfl⟩, hrest⟩ := h
    cases bps with
    | nil => cases hlength
    | cons w bps =>
      rw [List.length_cons, List.length_cons, Nat.succ_inj] at hlength
      have hresult := ih hlength hrest
      cases bps with
      | nil =>
        have hlast : rest = [] := List.length_eq_zero_iff.mp hlength
        subst hlast
        rw [hresult, shareOf_last hshare]
        rfl
      | cons v bps =>
        cases rest with
        | nil => cases hlength
        | cons next rest =>
          rw [hresult, shareOf_cons hamount hshare]
          rfl

theorem ValidManifest.bps_ne_nil {manifest : SplitManifest} (h : ValidManifest manifest) :
    manifest.bps ≠ [] := by
  intro hnil
  apply h.nonempty
  rw [← List.length_eq_zero_iff, h.sameLength, hnil, List.length_nil]

theorem ValidManifest.shares_nonneg {manifest : SplitManifest} (h : ValidManifest manifest)
    (hamount : 0 ≤ amount) : ∀ share ∈ shares amount totalBps 0 manifest.bps, 0 ≤ share := by
  have hgiven : 0 * (totalBps : Int) ≤ amount * 0 := by simp
  have hused : (0 : Int) + (manifest.bps.sum : Nat) ≤ totalBps := by
    rw [h.whole, Int.zero_add]
  exact ChainVerse.shares_nonneg hamount (by decide) hgiven hused

/-- A distribution credits non-negative shares that add up to the amount. -/
theorem creditShares_spec (hamount : 0 ≤ amount) {manifest : SplitManifest}
    {balance result : Address → Int} (hvalid : ValidManifest manifest) (hsound : Sound balance)
    (h : creditShares amount 0 manifest.recipients manifest.bps balance = .ok result) :
    Sound result ∧ holdings result = holdings balance + amount := by
  have hentries : ∀ entry ∈ manifest.recipients.zip (shares amount totalBps 0 manifest.bps),
      0 ≤ entry.2 := fun entry hentry =>
    hvalid.shares_nonneg hamount entry.2 (List.of_mem_zip hentry).2
  rw [creditShares_eq hamount hvalid.sameLength h]
  obtain ⟨hcredited, htotal⟩ := foldl_credit hsound hentries
  refine ⟨hcredited, ?_⟩
  rw [htotal, List.map_snd_zip, sum_shares hvalid.bps_ne_nil, Int.sub_zero]
  rw [length_shares, hvalid.sameLength]

-- 33 and the rest of 34 go to the recipient listed twice.
example : (creditShares 100 0 [⟨1⟩, ⟨2⟩, ⟨1⟩] [3333, 3333, 3334] fun _ => 0).toOption.map (· ⟨1⟩) =
    some 67 := by decide

end Shares

/-- The asset that a call is about. -/
def Call.asset : Call → Option Symbol
  | .distribute _ _ asset _ => some asset
  | .withdraw _ asset => some asset
  | _ => none

section Postings

/-- Writes the balances and the ledger of one asset. -/
def State.post (s : State) (asset : Symbol) (balance : Address → Int) (ledger : AssetLedger) :
    State :=
  { s with
    balance := Function.update s.balance asset balance
    assetLedger := Function.update s.assetLedger asset (some ledger) }

variable {asset other : Symbol} {balance : Address → Int} {ledger : AssetLedger}

@[simp] theorem State.post_balance_self : (s.post asset balance ledger).balance asset = balance :=
  Function.update_self _ _ _

@[simp] theorem State.post_ledger_self :
    getAssetLedger (s.post asset balance ledger) asset = ledger := by
  simp [getAssetLedger, State.post]

theorem State.post_balance_of_ne (h : other ≠ asset) :
    (s.post asset balance ledger).balance other = s.balance other := Function.update_of_ne h _ _

theorem State.post_ledger_of_ne (h : other ≠ asset) :
    getAssetLedger (s.post asset balance ledger) other = getAssetLedger s other := by
  simp [getAssetLedger, State.post, h]

/-- What an accepted call does: the two administrative calls leave the books alone, a distribution
credits the shares of a stored manifest, and a withdrawal pays a whole balance out. -/
inductive Posting (s : State) : Call → Option Int → State → Prop where
  | appoint {admin : Address} :
      Posting s (.initializeContract admin) none { s with admin := some admin }
  | create {admin : Address} {manifestId : Bytes32} {recipients : List Address} {bps : List Nat}
      {manifest : SplitManifest} (valid : ValidManifest manifest) :
      Posting s (.createManifest admin manifestId recipients bps) none
        { s with manifest := Function.update s.manifest manifestId (some manifest) }
  | distribute {admin : Address} {manifestId : Bytes32} {asset : Symbol} {amount : Int}
      {manifest : SplitManifest} {balance : Address → Int} (positive : 0 < amount)
      (stored : s.manifest manifestId = some manifest)
      (credited : creditShares amount 0 manifest.recipients manifest.bps (s.balance asset) =
        .ok balance)
      (fits : (getAssetLedger s asset).totalDistributed + amount < 2^127) :
      Posting s (.distribute admin manifestId asset amount) none
        (s.post asset balance ⟨(getAssetLedger s asset).totalDistributed + amount,
          (getAssetLedger s asset).totalWithdrawn⟩)
  | withdraw {recipient : Address} {asset : Symbol} (positive : 0 < s.balance asset recipient) :
      Posting s (.withdraw recipient asset) (some (s.balance asset recipient))
        (s.post asset (Function.update (s.balance asset) recipient 0)
          ⟨(getAssetLedger s asset).totalDistributed,
            (getAssetLedger s asset).totalWithdrawn + s.balance asset recipient⟩)

theorem execute_posting {call : Call} {o : Option Int} (h : execute env s call = .ok (o, s')) :
    Posting s call o s' := by
  cases call with
  | initializeContract admin =>
    simp only [execute, initializeContract, map_eq_ok, bind_eq_ok, pure_eq_ok, Prod.mk.injEq] at h
    obtain ⟨_, ⟨_, _, _, _, rfl⟩, rfl, rfl⟩ := h
    exact .appoint
  | createManifest admin manifestId recipients bps =>
    simp only [execute, map_eq_ok, Prod.mk.injEq] at h
    obtain ⟨_, hcreate, rfl, rfl⟩ := h
    obtain ⟨manifest, hvalid, rfl⟩ := createManifest_effect hcreate
    exact .create hvalid
  | distribute admin manifestId asset amount =>
    simp only [execute, distribute, getManifest, map_eq_ok, bind_eq_ok, refuseIf_eq_ok, exists_unit,
      not_le, orRefuse_eq_ok, fitsI128_eq_some, pure_eq_ok, Prod.mk.injEq] at h
    obtain ⟨_, ⟨_, hpositive, manifest, hstored, balance, hcredited, _, ⟨hfits, rfl⟩, rfl⟩, rfl,
      rfl⟩ := h
    exact .distribute hpositive hstored hcredited hfits.2
  | withdraw recipient asset =>
    simp only [execute, withdraw, bind_eq_ok, requireAuth_eq_ok, refuseIf_eq_ok, exists_unit,
      not_le, orRefuse_eq_ok, fitsI128_eq_some, pure_eq_ok] at h
    obtain ⟨_, ⟨_, hpositive, ledger, hledger, _, ⟨_, rfl⟩, rfl⟩, h⟩ := h
    obtain ⟨rfl, rfl⟩ := Prod.mk.inj h
    have hstored : getAssetLedger s asset = ledger := by
      rw [getAssetLedger, hledger, Option.getD_some]
    rw [← hstored]
    exact .withdraw hpositive

end Postings

section Books

/-- The books of an asset balance: what was distributed and not withdrawn is what the recipients
hold together. -/
structure Balanced (s : State) (asset : Symbol) : Prop where
  sound : Sound (s.balance asset)
  liability : (getAssetLedger s asset).totalDistributed - (getAssetLedger s asset).totalWithdrawn =
    holdings (s.balance asset)
  withdrawn : 0 ≤ (getAssetLedger s asset).totalWithdrawn
  represented : (getAssetLedger s asset).totalDistributed < 2^127

structure Reconciled (s : State) : Prop where
  manifests : ∀ id manifest, s.manifest id = some manifest → ValidManifest manifest
  books : ∀ asset, Balanced s asset

theorem reconciled_empty : Reconciled State.empty := by
  constructor
  · intro id manifest hstored
    cases hstored
  · intro asset
    have hzero : (0 : Int) < 2^127 := by decide
    exact ⟨sound_zero, holdings_zero.symm, le_rfl, hzero⟩

variable {asset : Symbol}

theorem Balanced.unmoved (h : Balanced s asset) (hbalance : s'.balance = s.balance)
    (hledger : s'.assetLedger = s.assetLedger) : Balanced s' asset := by
  have hbook : getAssetLedger s' asset = getAssetLedger s asset := by
    rw [getAssetLedger, hledger, getAssetLedger]
  obtain ⟨hsound, hliability, hwithdrawn, hrepresented⟩ := h
  refine ⟨?_, ?_, ?_, ?_⟩
  · rwa [hbalance]
  · rwa [hbook, hbalance]
  · rwa [hbook]
  · rwa [hbook]

theorem Balanced.post {balance : Address → Int} {ledger : AssetLedger} (hs : ∀ a, Balanced s a)
    (hsound : Sound balance)
    (hliability : ledger.totalDistributed - ledger.totalWithdrawn = holdings balance)
    (hwithdrawn : 0 ≤ ledger.totalWithdrawn) (hrepresented : ledger.totalDistributed < 2^127)
    (other : Symbol) : Balanced (s.post asset balance ledger) other := by
  by_cases h : other = asset
  · subst h
    refine ⟨?_, ?_, ?_, ?_⟩
    · rwa [State.post_balance_self]
    · rwa [State.post_ledger_self, State.post_balance_self]
    · rwa [State.post_ledger_self]
    · rwa [State.post_ledger_self]
  · obtain ⟨hsound', hliability', hwithdrawn', hrepresented'⟩ := hs other
    refine ⟨?_, ?_, ?_, ?_⟩
    · rwa [State.post_balance_of_ne h]
    · rwa [State.post_ledger_of_ne h, State.post_balance_of_ne h]
    · rwa [State.post_ledger_of_ne h]
    · rwa [State.post_ledger_of_ne h]

/-- Every call keeps the books balanced. -/
theorem Posting.reconciled {call : Call} {o : Option Int} (h : Posting s call o s')
    (hs : Reconciled s) : Reconciled s' := by
  cases h with
  | appoint => exact ⟨hs.manifests, fun asset => (hs.books asset).unmoved rfl rfl⟩
  | @create _ manifestId _ _ manifest hvalid =>
    refine ⟨?_, fun asset => (hs.books asset).unmoved rfl rfl⟩
    exact forall_update_row hs.manifests rfl hvalid
  | @distribute _ id asset amount manifest balance hpositive hstored hcredited hfits =>
    have hbook := hs.books asset
    obtain ⟨hsound, htotal⟩ := creditShares_spec hpositive.le (hs.manifests id manifest hstored)
      hbook.sound hcredited
    refine ⟨hs.manifests, Balanced.post hs.books hsound ?_ hbook.withdrawn hfits⟩
    have hliability := hbook.liability
    dsimp only
    omega
  | @withdraw recipient asset hpositive =>
    have hbook := hs.books asset
    have htotal := holdings_update hbook.sound recipient 0
    have hwithdrawn := hbook.withdrawn
    refine ⟨hs.manifests, Balanced.post hs.books (hbook.sound.update recipient le_rfl) ?_ ?_
      hbook.represented⟩
    · have hliability := hbook.liability
      dsimp only
      omega
    · dsimp only
      omega

theorem run_reconciled (is : List (Input contract)) :
    Reconciled ((machine contract).run State.empty is) :=
  Machine.run_invariant reconciled_empty
    (fun _ _ _ _ hs h => (execute_posting h).reconciled hs) is

/-- A call leaves the figures of every asset that it is not about. -/
theorem Posting.frame {call : Call} {o : Option Int} (h : Posting s call o s')
    (hother : call.asset ≠ some asset) :
    s'.balance asset = s.balance asset ∧ getAssetLedger s' asset = getAssetLedger s asset := by
  cases h with
  | appoint => exact ⟨rfl, rfl⟩
  | create => exact ⟨rfl, rfl⟩
  | @distribute _ _ posted =>
    have hne : asset ≠ posted := fun heq => hother (by rw [heq]; rfl)
    exact ⟨State.post_balance_of_ne hne, State.post_ledger_of_ne hne⟩
  | @withdraw _ posted =>
    have hne : asset ≠ posted := fun heq => hother (by rw [heq]; rfl)
    exact ⟨State.post_balance_of_ne hne, State.post_ledger_of_ne hne⟩

/-- What a journal line distributed of an asset. -/
def distributed (asset : Symbol) (e : Entry State (Input contract) (Option Int)) : Int :=
  match e.input.call with
  | .distribute _ _ posted amount => if posted = asset then amount else 0
  | _ => 0

/-- What a journal line paid out of an asset. -/
def paidOut (asset : Symbol) (e : Entry State (Input contract) (Option Int)) : Int :=
  match e.input.call with
  | .withdraw _ posted => if posted = asset then e.output.getD 0 else 0
  | _ => 0

theorem Posting.totals {call : Call} {o : Option Int} (h : Posting s call o s') (asset : Symbol) :
    (getAssetLedger s' asset).totalDistributed = (getAssetLedger s asset).totalDistributed +
        distributed asset (⟨s, ⟨env, call⟩, o, s'⟩ : Entry State (Input contract) (Option Int)) ∧
      (getAssetLedger s' asset).totalWithdrawn = (getAssetLedger s asset).totalWithdrawn +
        paidOut asset (⟨s, ⟨env, call⟩, o, s'⟩ : Entry State (Input contract) (Option Int)) := by
  by_cases habout : call.asset = some asset
  · cases h with
    | appoint => cases habout
    | create => cases habout
    | distribute =>
      obtain rfl := Option.some.inj habout
      simp [distributed, paidOut]
    | withdraw =>
      obtain rfl := Option.some.inj habout
      simp [distributed, paidOut]
  · have hledger := (h.frame habout).2
    rw [hledger]
    cases h with
    | appoint => simp [distributed, paidOut]
    | create => simp [distributed, paidOut]
    | @distribute _ _ posted =>
      have hne : posted ≠ asset := fun heq => habout (congrArg some heq)
      simp [distributed, paidOut, hne]
    | @withdraw _ posted =>
      have hne : posted ≠ asset := fun heq => habout (congrArg some heq)
      simp [distributed, paidOut, hne]

/-- The ledger of an asset counts what the accepted calls distributed and paid out. -/
theorem run_totals (is : List (Input contract)) (asset : Symbol) :
    let s := (machine contract).run State.empty is
    (getAssetLedger s asset).totalDistributed =
        (machine contract).tally (distributed asset) State.empty is ∧
      (getAssetLedger s asset).totalWithdrawn =
        (machine contract).tally (paidOut asset) State.empty is := by
  have hdistributed := @Machine.run_balance _ _ _ _ (machine contract) _ _ (distributed asset)
    (fun _ => True) (fun s => (getAssetLedger s asset).totalDistributed) State.empty trivial
    (fun _ _ _ _ _ _ => trivial) (fun _ _ _ _ _ h => ((execute_posting h).totals asset).1) is
  have hpaidOut := @Machine.run_balance _ _ _ _ (machine contract) _ _ (paidOut asset)
    (fun _ => True) (fun s => (getAssetLedger s asset).totalWithdrawn) State.empty trivial
    (fun _ _ _ _ _ _ => trivial) (fun _ _ _ _ _ h => ((execute_posting h).totals asset).2) is
  exact ⟨hdistributed.trans (Int.zero_add _), hpaidOut.trans (Int.zero_add _)⟩

/-- Where the books balance, a recipient that has signed is paid a positive balance out. -/
theorem Balanced.pays (h : Balanced s asset) {recipient : Address}
    (hsigned : env.signers recipient = true) (hpositive : 0 < s.balance asset recipient) :
    ∃ s', withdraw env s recipient asset = .ok (s.balance asset recipient, s') := by
  have hcovered := h.sound.le_holdings recipient
  have hliability := h.liability
  have hrepresented := h.represented
  have hwithdrawn := h.withdrawn
  cases hledger : s.assetLedger asset with
  | none =>
    have hnothing : getAssetLedger s asset = ⟨0, 0⟩ := by
      rw [getAssetLedger, hledger]
      rfl
    rw [hnothing] at hliability
    dsimp only at hliability
    omega
  | some ledger =>
    have hstored : getAssetLedger s asset = ledger := by
      rw [getAssetLedger, hledger]
      rfl
    rw [hstored] at hliability hrepresented hwithdrawn
    simp only [withdraw, bind_eq_ok, requireAuth_eq_ok, refuseIf_eq_ok, exists_unit, not_le,
      orRefuse_eq_ok, fitsI128_eq_some, pure_eq_ok]
    exact ⟨_, hsigned, hpositive, ledger, hledger, _, ⟨⟨by omega, by omega⟩, rfl⟩, rfl⟩

theorem Balanced.reports (h : Balanced s asset) :
    getOutstandingLiability s asset = .ok (holdings (s.balance asset)) := by
  have hpositive := h.sound.holdings_nonneg
  have hliability := h.liability
  have hwithdrawn := h.withdrawn
  have hrepresented := h.represented
  simp only [getOutstandingLiability, orRefuse_eq_ok, fitsI128_eq_some]
  exact ⟨⟨by omega, by omega⟩, hliability⟩

end Books

/-- Conservation in every reachable state: of each asset, what was distributed and not withdrawn is
what the recipients hold together; no balance is negative; a call leaves the other assets alone; the
liability is always reported, and a positive balance is always paid out to its holder. -/
theorem run_reconciles (is : List (Input contract)) :
    let s := (machine contract).run State.empty is
    (∀ asset,
      (getAssetLedger s asset).totalDistributed =
        (machine contract).tally (distributed asset) State.empty is ∧
      (getAssetLedger s asset).totalWithdrawn =
        (machine contract).tally (paidOut asset) State.empty is ∧
      {recipient | s.balance asset recipient ≠ 0}.Finite ∧
      (getAssetLedger s asset).totalDistributed - (getAssetLedger s asset).totalWithdrawn =
        ∑ᶠ recipient, s.balance asset recipient ∧
      0 ≤ (getAssetLedger s asset).totalWithdrawn ∧
      (getAssetLedger s asset).totalWithdrawn ≤ (getAssetLedger s asset).totalDistributed ∧
      (∀ recipient, 0 ≤ s.balance asset recipient) ∧
      getOutstandingLiability s asset = .ok (∑ᶠ recipient, s.balance asset recipient)) ∧
    (∀ (env : Env contract) call o s', execute env s call = .ok (o, s') →
      ∀ asset, call.asset ≠ some asset →
        s'.balance asset = s.balance asset ∧ getAssetLedger s' asset = getAssetLedger s asset) ∧
    ∀ (env : Env contract) recipient asset, env.signers recipient = true →
      0 < s.balance asset recipient →
      ∃ s', withdraw env s recipient asset = .ok (s.balance asset recipient, s') := by
  have hs := run_reconciled is
  refine ⟨?_, ?_, ?_⟩
  · intro asset
    have hbook := hs.books asset
    obtain ⟨hdistributed, hpaidOut⟩ := run_totals is asset
    have hholdings := hbook.sound.holdings_nonneg
    have hliability := hbook.liability
    exact ⟨hdistributed, hpaidOut, hbook.sound.finite, hliability, hbook.withdrawn, by omega,
      hbook.sound.nonneg, hbook.reports⟩
  · intro env call o s' h asset hother
    exact (execute_posting h).frame hother
  · intro env recipient asset hsigned hpositive
    exact (hs.books asset).pays hsigned hpositive

section Recipients

variable {contract : Address} {env : Env contract} {s s' : State} {amount : Int}
  {manifest : SplitManifest}

/-- The shares of an amount: they add up to it, all but the last are rounded down, and the last one
takes less than one unit of dust for each recipient. -/
structure ExactSplit (amount : Int) (manifest : SplitManifest) (given : List Int) : Prop where
  length : given.length = manifest.recipients.length
  nonneg : ∀ share ∈ given, 0 ≤ share
  sum : given.sum = amount
  floors : ∀ k w share, k + 1 < manifest.recipients.length → manifest.bps[k]? = some w →
    given[k]? = some share → share = amount * w / totalBps
  dust : ∀ w share, manifest.bps.getLast? = some w → given.getLast? = some share →
    amount * w / totalBps ≤ share ∧ share < amount * w / totalBps + manifest.recipients.length

theorem ValidManifest.exactSplit (h : ValidManifest manifest) (hamount : 0 ≤ amount) :
    ExactSplit amount manifest (shares amount totalBps 0 manifest.bps) where
  length := by rw [length_shares, h.sameLength]
  nonneg := h.shares_nonneg hamount
  sum := by rw [sum_shares h.bps_ne_nil, Int.sub_zero]
  floors := by
    intro k w share hk hw hshare
    rw [h.sameLength] at hk
    exact shares_getElem? hshare hw hk
  dust := by
    intro w share hw hshare
    obtain ⟨ws, hws⟩ := List.getLast?_eq_some_iff.mp hw
    have hsum : ((ws ++ [w]).sum : Nat) = (totalBps : Int) := by rw [← hws, h.whole]
    have hdust := shares_dust amount (by decide) hsum
    rw [hws, shares_concat, List.getLast?_concat, Option.some.injEq, Int.sub_zero] at hshare
    rw [h.sameLength, hws, List.length_append, List.length_singleton, ← hshare]
    have hfloor : amount * w / totalBps = floorShare amount totalBps w := by
      rw [floorShare, Int.mul_comm]
    rw [hfloor]
    exact hdust

/-- In every reachable state an accepted distribution credits the recipients of a stored manifest an
exact split of the amount, and a refused one changes nothing. -/
theorem run_splits (is : List (Input contract)) :
    let s := (machine contract).run State.empty is
    ∀ (env : Env contract) admin manifestId asset amount,
      (∀ s', distribute env s admin manifestId asset amount = .ok s' →
        ∃ manifest given, s.manifest manifestId = some manifest ∧ ExactSplit amount manifest given ∧
          s'.balance asset = (manifest.recipients.zip given).foldl credit (s.balance asset) ∧
          (∀ other, other ≠ asset → s'.balance other = s.balance other) ∧
          (getAssetLedger s' asset).totalDistributed =
            (getAssetLedger s asset).totalDistributed + amount) ∧
      ∀ e, distribute env s admin manifestId asset amount = .error e →
        (machine contract).run State.empty
          (is ++ [⟨env, .distribute admin manifestId asset amount⟩]) = s := by
  intro s env admin manifestId asset amount
  constructor
  · intro s' h
    have hposting : Posting s (.distribute admin manifestId asset amount) none s' := by
      have hexecute : execute env s (.distribute admin manifestId asset amount) = .ok (none, s') := by
        rw [execute, h]
        rfl
      exact execute_posting hexecute
    cases hposting with
    | @distribute _ _ _ _ manifest balance positive stored credited fits =>
      have hvalid := (run_reconciled is).manifests manifestId manifest stored
      refine ⟨manifest, _, stored, hvalid.exactSplit positive.le, ?_, ?_, ?_⟩
      · rw [State.post_balance_self, creditShares_eq positive.le hvalid.sameLength credited]
      · intro other hother
        exact State.post_balance_of_ne hother
      · rw [State.post_ledger_self]
  · intro e h
    have hrefused : (machine contract).step s ⟨env, .distribute admin manifestId asset amount⟩ =
        .error e := by
      simp only [machine, execute, h, map_eq_error]
    rw [Machine.run_append, Machine.run_cons, Machine.run_nil, Machine.next_error _ hrefused]

end Recipients

end ChainVerse.RoyaltySplits
