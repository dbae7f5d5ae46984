import ChainVerse.Framework.Histories
import ChainVerse.Framework.Listings
import ChainVerse.Framework.Tables
import ChainVerse.Library.Steps
import Mathlib.Logic.Relation
import Mathlib.Order.WellFounded

namespace ChainVerse.LibraryRights

section Entries

variable {contract : Address} {crypto : Crypto} {env : Env contract} {s s' : State} {c c' : Catalog}
variable {id : Bytes32} {entry next : CatalogEntry}

section Effects

/-- The parent and the child that a call brings together. -/
def CatalogCall.adopts : CatalogCall → Option (Bytes32 × Bytes32)
  | .registerEdition _ parentWorkId editionId _ _ => some (parentWorkId, editionId)
  | .registerRendition _ parentEditionId renditionId _ _ _ => some (parentEditionId, renditionId)
  | _ => none

/-- The snapshot holds what the entry holds. -/
structure Records (snapshot : VersionSnapshot) (entry : CatalogEntry) : Prop where
  version : snapshot.version = entry.version
  metadata : snapshot.metadata = entry.metadata
  content : snapshot.content = entry.content
  custodian : snapshot.custodian = entry.custodian

/-- The entry names a parent, which is there and of a kind. -/
def HasParent (c : Catalog) (entry : CatalogEntry) (kind : EntryKind) : Prop :=
  ∃ id parent, entry.parent = some id ∧ c.entry id = some parent ∧ parent.kind = kind

/-- Works have no parent, editions have a work and renditions an edition. -/
def Placed (c : Catalog) (entry : CatalogEntry) : Prop :=
  match entry.kind with
  | .work => entry.parent = none
  | .edition => HasParent c entry .work
  | .rendition => HasParent c entry .edition

/-- The child index after an entry has been registered under a parent, if it has one. -/
def Adopted (c c' : Catalog) (id : Bytes32) : Option Bytes32 → Prop
  | none => c'.childIndex = c.childIndex ∧ c'.childCount = c.childCount
  | some parent =>
    c'.childIndex = Function.update c.childIndex (parent, c.childCount parent) (some id) ∧
      c'.childCount = Function.update c.childCount parent (c.childCount parent + 1)

/-- An entry is written, and its snapshot is put at the end of its history. -/
structure Written (c c' : Catalog) (id : Bytes32) (entry : CatalogEntry) (snapshot : VersionSnapshot) :
    Prop where
  records : Records snapshot entry
  entries : c'.entry = Function.update c.entry id (some entry)
  snapshots : c'.entryVersion =
    Function.update c.entryVersion (id, c.entryVersionCount id + 1) (some snapshot)
  counts : c'.entryVersionCount =
    Function.update c.entryVersionCount id (c.entryVersionCount id + 1)

/-- Everything an accepted call can do to the catalog. -/
inductive Cataloguing (c : Catalog) : CatalogCall → Catalog → Prop where
  | register {call : CatalogCall} {c' : Catalog} (id : Bytes32) (entry : CatalogEntry)
      (snapshot : VersionSnapshot) (fresh : c.entry id = none) (first : entry.version = 1)
      (placed : Placed c entry) (adopts : call.adopts = entry.parent.map fun parent => (parent, id))
      (written : Written c c' id entry snapshot) (children : Adopted c c' id entry.parent) :
      Cataloguing c call c'
  | update {call : CatalogCall} {c' : Catalog} (id : Bytes32) (entry next : CatalogEntry)
      (snapshot : VersionSnapshot) (found : c.entry id = some entry) (kind : next.kind = entry.kind)
      (parent : next.parent = entry.parent) (raised : next.version = entry.version + 1)
      (adopts : call.adopts = none) (written : Written c c' id next snapshot)
      (children : Adopted c c' id none) : Cataloguing c call c'

end Effects

section Specs

variable {caller custodian : Address} {metadata : MetadataCommitment} {version : Nat}

theorem hasEntry_eq_false : hasEntry c id = false ↔ c.entry id = none := by simp [hasEntry]

theorem appendVersion_spec {snapshot : VersionSnapshot} (hrecords : Records snapshot entry)
    (h : appendVersion (writeEntry c id entry) id snapshot = .ok c') :
    Written c c' id entry snapshot ∧ c'.childIndex = c.childIndex ∧ c'.childCount = c.childCount := by
  simp only [appendVersion, writeEntry, bind_eq_ok, orRefuse_eq_ok, fitsU_eq_some, pure_eq_ok] at h
  obtain ⟨_, ⟨_, rfl⟩, rfl⟩ := h
  exact ⟨⟨hrecords, rfl, rfl, rfl⟩, rfl, rfl⟩

/-- The child is recorded beside what has been written. -/
theorem recordChild_spec {written : Catalog} {parent : Bytes32} {snapshot : VersionSnapshot}
    (hwritten : Written c written id entry snapshot ∧ written.childIndex = c.childIndex ∧
      written.childCount = c.childCount)
    (h : recordChild written parent id = .ok c') :
    Written c c' id entry snapshot ∧ Adopted c c' id (some parent) := by
  obtain ⟨⟨hrecords, hentries, hsnapshots, hcounts⟩, hindex, hcount⟩ := hwritten
  simp only [recordChild, bind_eq_ok, orRefuse_eq_ok, fitsU_eq_some, pure_eq_ok] at h
  obtain ⟨_, ⟨_, rfl⟩, rfl⟩ := h
  refine ⟨⟨hrecords, hentries, hsnapshots, hcounts⟩, ?_⟩
  simp only [Adopted, hindex, hcount, and_self]

theorem registerWork_spec
    (h : registerWork env s caller id metadata custodian = .ok (version, c')) :
    Cataloguing s.catalog (.registerWork caller id metadata custodian) c' := by
  simp only [registerWork, bind_eq_ok, refuseIf_eq_ok, exists_unit, pure_eq_ok, Prod.mk.injEq,
    Bool.not_eq_true, hasEntry_eq_false] at h
  obtain ⟨_, _, _, _, hfresh, c₁, hwrite, _, rfl⟩ := h
  obtain ⟨hwritten, hchildren⟩ := appendVersion_spec ⟨rfl, rfl, rfl, rfl⟩ hwrite
  refine .register id _ _ hfresh ?_ ?_ ?_ hwritten hchildren <;> rfl

theorem registerEdition_spec {parentWorkId : Bytes32}
    (h : registerEdition env s caller parentWorkId id metadata custodian = .ok (version, c')) :
    Cataloguing s.catalog (.registerEdition caller parentWorkId id metadata custodian) c' := by
  simp only [registerEdition, getEntry, bind_eq_ok, refuseIf_eq_ok, orRefuse_eq_ok, exists_unit,
    pure_eq_ok, Prod.mk.injEq, Bool.not_eq_true, hasEntry_eq_false, not_not] at h
  obtain ⟨_, _, _, _, hfresh, parent, hparent, hkind, c₁, hwrite, c₂, hrecord, _, rfl⟩ := h
  have hwritten := appendVersion_spec ⟨rfl, rfl, rfl, rfl⟩ hwrite
  obtain ⟨hboth, hchildren⟩ := recordChild_spec hwritten hrecord
  refine .register id _ _ hfresh rfl ?_ rfl hboth hchildren
  exact ⟨parentWorkId, parent, rfl, hparent, hkind⟩

theorem registerRendition_spec {parentEditionId : Bytes32} {content : ContentCommitment}
    (h : registerRendition env s caller parentEditionId id content metadata custodian =
      .ok (version, c')) :
    Cataloguing s.catalog
      (.registerRendition caller parentEditionId id content metadata custodian) c' := by
  simp only [registerRendition, getEntry, bind_eq_ok, refuseIf_eq_ok, orRefuse_eq_ok, exists_unit,
    pure_eq_ok, Prod.mk.injEq, Bool.not_eq_true, hasEntry_eq_false, not_not] at h
  obtain ⟨_, _, _, _, _, hfresh, parent, hparent, hkind, c₁, hwrite, c₂, hrecord, _, rfl⟩ := h
  have hwritten := appendVersion_spec ⟨rfl, rfl, rfl, rfl⟩ hwrite
  obtain ⟨hboth, hchildren⟩ := recordChild_spec hwritten hrecord
  refine .register id _ _ hfresh rfl ?_ rfl hboth hchildren
  exact ⟨parentEditionId, parent, rfl, hparent, hkind⟩

theorem updateMetadata_spec
    (h : updateMetadata env s caller id metadata = .ok (version, c')) :
    Cataloguing s.catalog (.updateMetadata caller id metadata) c' := by
  simp only [updateMetadata, getEntry, bind_eq_ok, orRefuse_eq_ok, fitsU_eq_some, exists_unit,
    pure_eq_ok, Prod.mk.injEq] at h
  obtain ⟨_, _, _, entry, hfound, _, ⟨_, rfl⟩, c₁, hwrite, _, rfl⟩ := h
  obtain ⟨hwritten, hchildren⟩ := appendVersion_spec ⟨rfl, rfl, rfl, rfl⟩ hwrite
  refine .update id entry _ _ hfound ?_ ?_ ?_ rfl hwritten hchildren <;> rfl

theorem updateContentHash_spec {content : ContentCommitment}
    (h : updateContentHash env s caller id content = .ok (version, c')) :
    Cataloguing s.catalog (.updateContentHash caller id content) c' := by
  simp only [updateContentHash, getEntry, bind_eq_ok, orRefuse_eq_ok, fitsU_eq_some, exists_unit,
    pure_eq_ok, Prod.mk.injEq] at h
  obtain ⟨_, _, _, entry, hfound, _, _, ⟨_, rfl⟩, c₁, hwrite, _, rfl⟩ := h
  obtain ⟨hwritten, hchildren⟩ := appendVersion_spec ⟨rfl, rfl, rfl, rfl⟩ hwrite
  refine .update id entry _ _ hfound ?_ ?_ ?_ rfl hwritten hchildren <;> rfl

theorem writeCatalog_spec {call : CatalogCall} {o : Answer}
    (h : writeCatalog env s call = .ok (o, c')) : Cataloguing s.catalog call c' := by
  cases call with
  | registerWork =>
    simp only [writeCatalog, map_eq_ok, withVersion, Prod.mk.injEq] at h
    obtain ⟨⟨version, c⟩, hcall, _, rfl⟩ := h
    exact registerWork_spec hcall
  | registerEdition =>
    simp only [writeCatalog, map_eq_ok, withVersion, Prod.mk.injEq] at h
    obtain ⟨⟨version, c⟩, hcall, _, rfl⟩ := h
    exact registerEdition_spec hcall
  | registerRendition =>
    simp only [writeCatalog, map_eq_ok, withVersion, Prod.mk.injEq] at h
    obtain ⟨⟨version, c⟩, hcall, _, rfl⟩ := h
    exact registerRendition_spec hcall
  | updateMetadata =>
    simp only [writeCatalog, map_eq_ok, withVersion, Prod.mk.injEq] at h
    obtain ⟨⟨version, c⟩, hcall, _, rfl⟩ := h
    exact updateMetadata_spec hcall
  | updateContentHash =>
    simp only [writeCatalog, map_eq_ok, withVersion, Prod.mk.injEq] at h
    obtain ⟨⟨version, c⟩, hcall, _, rfl⟩ := h
    exact updateContentHash_spec hcall

end Specs

end Entries

section Trees

variable {contract : Address} {crypto : Crypto} {s s' : State} {c c' : Catalog}
variable {e : Step contract} {es : List (Step contract)}

/-- The parent and the child that a line brings together. -/
def Step.adopts (e : Step contract) : Option (Bytes32 × Bytes32) :=
  match e.input.call with
  | .catalog call => call.adopts
  | _ => none

/-- The child that a line registers under a parent. -/
def Step.childOf (parentId : Bytes32) (e : Step contract) : Option Bytes32 :=
  match e.adopts with
  | some (parent, child) => if parent = parentId then some child else none
  | none => none

/-- The children registered under a parent, in the order of their registration. -/
def childrenIn (es : List (Step contract)) (parentId : Bytes32) : List Bytes32 :=
  es.filterMap (Step.childOf parentId)

def parentOf (c : Catalog) (id : Bytes32) : Option Bytes32 :=
  (c.entry id).bind CatalogEntry.parent

/-- The histories of the entries: a snapshot for each version, the last one of what is stored. -/
structure Histories (c : Catalog) : Prop where
  absent : ∀ id, c.entry id = none → c.entryVersionCount id = 0
  counted : ∀ id entry, c.entry id = some entry →
    c.entryVersionCount id = entry.version ∧ 0 < entry.version
  dense : ∀ id n, c.entryVersion (id, n) ≠ none ↔ 0 < n ∧ n ≤ c.entryVersionCount id
  numbered : ∀ id n snapshot, c.entryVersion (id, n) = some snapshot → snapshot.version = n
  last : ∀ id entry, c.entry id = some entry →
    ∃ snapshot, c.entryVersion (id, entry.version) = some snapshot ∧ Records snapshot entry

/-- The child index has the children of each parent as the lines have registered them. -/
structure ChildrenIndexed (c : Catalog) (es : List (Step contract)) : Prop where
  slots : ∀ parentId n, c.childIndex (parentId, n) = (childrenIn es parentId)[n]?
  total : ∀ parentId, c.childCount parentId = (childrenIn es parentId).length
  listed : Listed (childrenIn es) (parentOf c)

/-- A catalog and the lines that wrote it. -/
structure Rooted (c : Catalog) (es : List (Step contract)) : Prop where
  placed : ∀ id entry, c.entry id = some entry → Placed c entry
  histories : Histories c
  indexed : ChildrenIndexed c es

section Histories

variable {id : Bytes32} {entry : CatalogEntry} {snapshot : VersionSnapshot}

/-- The slot after the last version is free. -/
theorem Histories.next_free (hc : Histories c) (id : Bytes32) :
    c.entryVersion (id, c.entryVersionCount id + 1) = none := by
  by_contra hused
  have hwithin := ((hc.dense id _).mp hused).2
  omega

/-- A write of an entry at its next version goes on with its history. -/
theorem Written.histories (h : Written c c' id entry snapshot) (hc : Histories c)
    (hversion : entry.version = c.entryVersionCount id + 1) : Histories c' := by
  obtain ⟨hrecords, hentries, hsnapshots, hcounts⟩ := h
  refine ⟨?_, ?_, ?_, ?_, ?_⟩
  · intro x hx
    rw [hentries] at hx
    by_cases hxid : x = id
    · rw [hxid, Function.update_self] at hx
      cases hx
    · rw [Function.update_of_ne hxid] at hx
      rw [hcounts, Function.update_of_ne hxid]
      exact hc.absent x hx
  · intro x row hrow
    rw [hentries] at hrow
    rcases update_row_cases hrow with ⟨rfl, rfl⟩ | ⟨hne, hold⟩
    · rw [hcounts, Function.update_self, hversion]
      exact ⟨rfl, Nat.succ_pos _⟩
    · rw [hcounts, Function.update_of_ne hne]
      exact hc.counted x row hold
  · intro x n
    rw [hsnapshots, hcounts]
    by_cases hx : x = id
    · subst hx
      rw [Function.update_self]
      by_cases hn : n = c.entryVersionCount x + 1
      · rw [hn, Function.update_self]
        exact iff_of_true (Option.some_ne_none snapshot) ⟨Nat.succ_pos _, le_rfl⟩
      · have hslot : (x, n) ≠ (x, c.entryVersionCount x + 1) := fun heq => hn (Prod.mk.inj heq).2
        rw [Function.update_of_ne hslot, hc.dense]
        omega
    · have hslot : (x, n) ≠ (id, c.entryVersionCount id + 1) := fun heq => hx (Prod.mk.inj heq).1
      rw [Function.update_of_ne hslot, Function.update_of_ne hx]
      exact hc.dense x n
  · intro x n row hrow
    rw [hsnapshots] at hrow
    rcases update_row_cases hrow with ⟨hslot, rfl⟩ | ⟨_, hold⟩
    · rw [hrecords.version, hversion, (Prod.mk.inj hslot).2]
    · exact hc.numbered x n row hold
  · intro x row hrow
    rw [hentries] at hrow
    rcases update_row_cases hrow with ⟨rfl, rfl⟩ | ⟨_, hold⟩
    · refine ⟨snapshot, ?_, hrecords⟩
      rw [hsnapshots, hversion, Function.update_self]
    · obtain ⟨old, hstored, hold⟩ := hc.last x row hold
      refine ⟨old, ?_, hold⟩
      rw [hsnapshots]
      exact update_keeps_row (hc.next_free id) hstored

/-- Every snapshot that has been written stays. -/
theorem Written.keeps (h : Written c c' id entry snapshot) (hc : Histories c) {x : Bytes32} {n : Nat}
    {row : VersionSnapshot} (hrow : c.entryVersion (x, n) = some row) :
    c'.entryVersion (x, n) = some row := by
  rw [h.snapshots]
  exact update_keeps_row (hc.next_free id) hrow

end Histories

section Placement

variable {id : Bytes32} {entry next : CatalogEntry} {snapshot : VersionSnapshot}

/-- Entries that keep their kinds keep their places. -/
theorem Placed.mono (h : Placed c entry)
    (hkept : ∀ x row, c.entry x = some row → ∃ row', c'.entry x = some row' ∧ row'.kind = row.kind) :
    Placed c' entry := by
  have hparent : ∀ kind, HasParent c entry kind → HasParent c' entry kind := by
    intro kind h
    obtain ⟨x, parent, hx, hstored, hkind⟩ := h
    obtain ⟨row, hrow, hsame⟩ := hkept x parent hstored
    exact ⟨x, row, hx, hrow, hsame.trans hkind⟩
  unfold Placed at h ⊢
  cases hkind : entry.kind with
  | work => simpa only [hkind] using h
  | edition =>
    simp only [hkind] at h
    exact hparent _ h
  | rendition =>
    simp only [hkind] at h
    exact hparent _ h

theorem Placed.congr (h : Placed c entry) (hkind : next.kind = entry.kind)
    (hparent : next.parent = entry.parent) : Placed c next := by
  unfold Placed HasParent at *
  rwa [hkind, hparent]

/-- A write that keeps the kind of what it overwrites keeps every entry in its place. -/
theorem Written.placed (h : Written c c' id entry snapshot)
    (hc : ∀ x row, c.entry x = some row → Placed c row) (hentry : Placed c entry)
    (hkind : ∀ row, c.entry id = some row → entry.kind = row.kind) :
    ∀ x row, c'.entry x = some row → Placed c' row := by
  have hkept : ∀ x row, c.entry x = some row →
      ∃ row', c'.entry x = some row' ∧ row'.kind = row.kind := by
    intro x row hrow
    rw [h.entries]
    by_cases hx : x = id
    · subst hx
      exact ⟨entry, Function.update_self _ _ _, hkind row hrow⟩
    · exact ⟨row, (Function.update_of_ne hx _ _).trans hrow, rfl⟩
  intro x row hrow
  rw [h.entries] at hrow
  rcases update_row_cases hrow with ⟨rfl, rfl⟩ | ⟨_, hold⟩
  · exact hentry.mono hkept
  · exact (hc x row hold).mono hkept

end Placement

section Children

variable {id parentId : Bytes32} {entry : CatalogEntry} {snapshot : VersionSnapshot}

theorem childrenIn_snoc_none (h : e.adopts = none) : childrenIn (es ++ [e]) = childrenIn es := by
  funext parentId
  have hchild : e.childOf parentId = none := by rw [Step.childOf, h]
  rw [childrenIn, filterMap_snoc, hchild, Option.toList_none, List.append_nil, childrenIn]

theorem childrenIn_snoc_some (h : e.adopts = some (parentId, id)) :
    childrenIn (es ++ [e]) =
      Function.update (childrenIn es) parentId (childrenIn es parentId ++ [id]) := by
  funext x
  rw [childrenIn, filterMap_snoc, Step.childOf, h]
  by_cases hx : x = parentId
  · subst hx
    simp [childrenIn]
  · have hne : ¬parentId = x := fun heq => hx heq.symm
    simp [childrenIn, hx, hne]

theorem Written.parentOf_eq (h : Written c c' id entry snapshot) :
    parentOf c' = Function.update (parentOf c) id entry.parent := by
  funext x
  rw [parentOf, h.entries]
  by_cases hx : x = id
  · rw [hx, Function.update_self, Function.update_self, Option.bind_some]
  · rw [Function.update_of_ne hx, Function.update_of_ne hx, parentOf]

/-- What changes no parent leaves the child index as it is. -/
theorem ChildrenIndexed.keep (h : ChildrenIndexed c es) (hadopts : e.adopts = none)
    (hparents : parentOf c' = parentOf c) (hadopted : Adopted c c' id none) :
    ChildrenIndexed c' (es ++ [e]) := by
  obtain ⟨hindex, hcount⟩ := hadopted
  obtain ⟨hslots, htotal, hlisted⟩ := h
  refine ⟨?_, ?_, ?_⟩
  · rw [hindex, childrenIn_snoc_none hadopts]
    exact hslots
  · rw [hcount, childrenIn_snoc_none hadopts]
    exact htotal
  · rw [hparents, childrenIn_snoc_none hadopts]
    exact hlisted

/-- A new entry comes last among the children of its parent. -/
theorem ChildrenIndexed.adopt (h : ChildrenIndexed c es) (hadopts : e.adopts = some (parentId, id))
    (hfresh : parentOf c id = none)
    (hparents : parentOf c' = Function.update (parentOf c) id (some parentId))
    (hadopted : Adopted c c' id (some parentId)) : ChildrenIndexed c' (es ++ [e]) := by
  obtain ⟨hindex, hcount⟩ := hadopted
  obtain ⟨hslots, htotal, hlisted⟩ := h
  refine ⟨?_, ?_, ?_⟩
  · intro x n
    rw [hindex, childrenIn_snoc_some hadopts, htotal]
    by_cases hx : x = parentId
    · subst hx
      rw [Function.update_self]
      rcases Nat.lt_trichotomy n (childrenIn es x).length with hlt | rfl | hgt
      · have hslot : (x, n) ≠ (x, (childrenIn es x).length) := by
          intro heq
          exact absurd (Prod.mk.inj heq).2 (Nat.ne_of_lt hlt)
        rw [Function.update_of_ne hslot, List.getElem?_append_left hlt, hslots]
      · rw [Function.update_self, List.getElem?_concat_length]
      · have hslot : (x, n) ≠ (x, (childrenIn es x).length) := by
          intro heq
          exact absurd (Prod.mk.inj heq).2 (Nat.ne_of_gt hgt)
        have hend : (childrenIn es x ++ [id]).length ≤ n := by
          rw [List.length_append, List.length_singleton]
          exact hgt
        rw [Function.update_of_ne hslot, hslots, List.getElem?_eq_none hgt.le,
          List.getElem?_eq_none hend]
    · have hslot : (x, n) ≠ (parentId, (childrenIn es parentId).length) := by
        intro heq
        exact hx (Prod.mk.inj heq).1
      rw [Function.update_of_ne hslot, Function.update_of_ne hx, hslots]
  · intro x
    rw [hcount, childrenIn_snoc_some hadopts]
    by_cases hx : x = parentId
    · subst hx
      rw [Function.update_self, Function.update_self, List.length_append, List.length_singleton,
        htotal]
    · rw [Function.update_of_ne hx, Function.update_of_ne hx, htotal]
  · rw [hparents, childrenIn_snoc_some hadopts]
    exact hlisted.append hfresh parentId

end Children

section Runs

theorem Cataloguing.rooted {call : CatalogCall} (h : Cataloguing c call c') (hc : Rooted c es)
    (hcall : e.input.call = .catalog call) : Rooted c' (es ++ [e]) := by
  have hadopts : e.adopts = call.adopts := by rw [Step.adopts, hcall]
  cases h with
  | register id entry snapshot hfresh hfirst hplaced hadoption hwritten hchildren =>
    have hnumber : entry.version = c.entryVersionCount id + 1 := by
      rw [hfirst, hc.histories.absent id hfresh]
    have hkind : ∀ row, c.entry id = some row → entry.kind = row.kind := by
      intro row hrow
      rw [hfresh] at hrow
      cases hrow
    refine ⟨hwritten.placed hc.placed hplaced hkind, hwritten.histories hc.histories hnumber, ?_⟩
    have horphan : parentOf c id = none := by rw [parentOf, hfresh, Option.bind_none]
    have hparents := hwritten.parentOf_eq
    cases hparent : entry.parent with
    | none =>
      rw [hparent] at hadoption hchildren hparents
      rw [← horphan, Function.update_eq_self] at hparents
      exact hc.indexed.keep (hadopts.trans hadoption) hparents hchildren
    | some parentId =>
      rw [hparent] at hadoption hchildren hparents
      exact hc.indexed.adopt (hadopts.trans hadoption) horphan hparents hchildren
  | update id entry next snapshot hfound hkind hparent hraised hadoption hwritten hchildren =>
    have hnumber : next.version = c.entryVersionCount id + 1 := by
      rw [hraised, (hc.histories.counted id entry hfound).1]
    have hsame : ∀ row, c.entry id = some row → next.kind = row.kind := by
      intro row hrow
      rw [hfound] at hrow
      rw [hkind, Option.some.inj hrow]
    have hplaced : Placed c next := (hc.placed id entry hfound).congr hkind hparent
    have hparents : parentOf c' = parentOf c := by
      have hold : parentOf c id = next.parent := by
        rw [parentOf, hfound, Option.bind_some, hparent]
      rw [hwritten.parentOf_eq, ← hold, Function.update_eq_self]
    exact ⟨hwritten.placed hc.placed hplaced hsame, hwritten.histories hc.histories hnumber,
      hc.indexed.keep (hadopts.trans hadoption) hparents hchildren⟩

theorem Rooted.keep (hc : Rooted c es) (hadopts : e.adopts = none) : Rooted c (es ++ [e]) := by
  have hsame : Adopted c c 0 none := ⟨rfl, rfl⟩
  exact ⟨hc.placed, hc.histories, hc.indexed.keep hadopts rfl hsame⟩

theorem rooted_empty : Rooted Catalog.empty ([] : List (Step contract)) := by
  refine ⟨?_, ⟨?_, ?_, ?_, ?_, ?_⟩, ⟨?_, ?_, ?_⟩⟩
  · intro id entry hstored
    cases hstored
  · exact fun _ _ => rfl
  · intro id entry hstored
    cases hstored
  · intro id n
    refine iff_of_false (fun h => h rfl) ?_
    intro h
    exact absurd h.2 (Nat.not_le.mpr h.1)
  · intro id n snapshot hstored
    cases hstored
  · intro id entry hstored
    cases hstored
  · exact fun _ _ => rfl
  · exact fun _ => rfl
  · exact listed_empty

/-- What an accepted call does to the catalog and to its snapshots. -/
theorem step_rooted {i : Input contract} {o : Answer} (hs : Rooted s.catalog es)
    (h : (machine contract crypto).step s i = .ok (o, s')) :
    Rooted s'.catalog (es ++ [⟨s, i, o, s'⟩]) ∧
      ∀ id n snapshot, s.catalog.entryVersion (id, n) = some snapshot →
        s'.catalog.entryVersion (id, n) = some snapshot := by
  obtain ⟨env, registries, call⟩ := i
  cases call with
  | govern call =>
    obtain ⟨_, hsame, _⟩ := (govern_spec (step_govern rfl h)).frame
    rw [hsame]
    exact ⟨hs.keep rfl, fun _ _ _ hstored => hstored⟩
  | lend call =>
    obtain ⟨l, _, rfl⟩ := step_lend rfl h
    exact ⟨hs.keep rfl, fun _ _ _ hstored => hstored⟩
  | catalog call =>
    obtain ⟨c, hwrite, rfl⟩ := step_catalog rfl h
    have hline := writeCatalog_spec hwrite
    refine ⟨hline.rooted hs rfl, ?_⟩
    intro id n snapshot hstored
    cases hline with
    | register _ _ _ _ _ _ _ hwritten => exact hwritten.keeps hs.histories hstored
    | update _ _ _ _ _ _ _ _ _ hwritten => exact hwritten.keeps hs.histories hstored
  | serve call =>
    obtain ⟨v, _, rfl⟩ := step_serve rfl h
    exact ⟨hs.keep rfl, fun _ _ _ hstored => hstored⟩

theorem run_rooted (is : List (Input contract)) :
    Rooted ((machine contract crypto).run State.empty is).catalog
      ((machine contract crypto).journal State.empty is) := by
  refine Machine.run_journal_invariant (m := machine contract crypto)
    (P := fun s es => Rooted s.catalog es) rooted_empty ?_ is
  intro es s i o s' hs h
  exact (step_rooted hs h).1

/-- A snapshot stays as it is over every run. -/
theorem run_snapshot (is js : List (Input contract)) {id : Bytes32} {n : Nat}
    {snapshot : VersionSnapshot}
    (hstored : ((machine contract crypto).run State.empty is).catalog.entryVersion (id, n) =
      some snapshot) :
    ((machine contract crypto).run State.empty (is ++ js)).catalog.entryVersion (id, n) =
      some snapshot := by
  rw [Machine.run_append]
  refine @Machine.run_relation _ _ _ _ (machine contract crypto)
    (fun s => ∃ es : List (Step contract), Rooted s.catalog es)
    (fun s t => ∀ x m row, s.catalog.entryVersion (x, m) = some row →
      t.catalog.entryVersion (x, m) = some row) ?_ ?_ _ ⟨_, run_rooted is⟩ ?_ ?_ js id n snapshot hstored
  · exact fun _ _ _ _ h => h
  · exact fun _ _ _ hab hbc x m row h => hbc x m row (hab x m row h)
  · intro s i o s' hs h
    obtain ⟨es, hs⟩ := hs
    exact ⟨_, (step_rooted hs h).1⟩
  · intro s i o s' hs h
    obtain ⟨es, hs⟩ := hs
    exact (step_rooted hs h).2

end Runs

end Trees

section Pages

variable {contract : Address} {crypto : Crypto} {c : Catalog} {es : List (Step contract)}
variable {parentId : Bytes32} {ids : List Bytes32} {limit cursor : Nat} {limits : List Nat}

/-- What a reader collects who asks for pages with these limits, each at the cursor that the page before
returned, until one is the last; and whether it was. -/
def followChildren (c : Catalog) (parentId : Bytes32) : List Nat → Nat → Outcome (List Bytes32 × Bool)
  | [], _ => pure ([], false)
  | limit :: limits, cursor => do
    let page ← children c parentId cursor limit
    if page.done = true then pure (page.ids, true)
    else do
      let rest ← followChildren c parentId limits page.nextCursor
      pure (page.ids ++ rest.1, rest.2)

section Paging

/-- The loop takes what the slots hold from the cursor on, as far as there is room. -/
theorem collectChildren_eq (hslots : ∀ n, c.childIndex (parentId, n) = ids[n]?) (room : Nat)
    (hcursor : cursor ≤ ids.length) :
    collectChildren c parentId ids.length room cursor =
      ((ids.drop cursor).take room, min (cursor + room) ids.length) := by
  induction room generalizing cursor with
  | zero =>
    rw [collectChildren, List.take_zero, Nat.add_zero, Nat.min_eq_left hcursor]
  | succ room ih =>
    by_cases hmore : cursor < ids.length
    · have hslot : c.childIndex (parentId, cursor) = some ids[cursor] := by
        rw [hslots, List.getElem?_eq_getElem hmore]
      simp only [collectChildren, if_pos hmore, hslot]
      have hnext : cursor + 1 + room = cursor + (room + 1) := by omega
      rw [ih hmore, List.drop_eq_getElem_cons hmore, List.take_succ_cons, Nat.succ_eq_add_one, hnext]
    · have hend : cursor = ids.length := Nat.le_antisymm hcursor (Nat.le_of_not_lt hmore)
      rw [collectChildren, if_neg hmore, hend, List.drop_length, List.take_nil,
        Nat.min_eq_right (Nat.le_add_right _ _)]

theorem children_eq (hslots : ∀ n, c.childIndex (parentId, n) = ids[n]?)
    (htotal : c.childCount parentId = ids.length) (hlimit : 0 < limit ∧ limit ≤ childrenMaxPage)
    (hcursor : cursor ≤ ids.length) :
    children c parentId cursor limit = .ok
      { ids := (ids.drop cursor).take limit, nextCursor := min (cursor + limit) ids.length
        done := decide (ids.length ≤ cursor + limit) } := by
  have hbounds : ¬(limit = 0 ∨ childrenMaxPage < limit) := by omega
  have hdone : (ids.length ≤ min (cursor + limit) ids.length) ↔ ids.length ≤ cursor + limit := by omega
  simp only [children, refuseIf, if_neg hbounds, htotal, if_neg (Nat.not_lt.mpr hcursor), ok_bind,
    collectChildren_eq hslots limit hcursor, hdone]
  rfl

/-- Pages put one after another are the children from the cursor on, as many as the limits add up to. -/
theorem followChildren_eq (hslots : ∀ n, c.childIndex (parentId, n) = ids[n]?)
    (htotal : c.childCount parentId = ids.length)
    (hlimits : ∀ limit ∈ limits, 0 < limit ∧ limit ≤ childrenMaxPage) (hcursor : cursor ≤ ids.length) :
    followChildren c parentId limits cursor = .ok ((ids.drop cursor).take limits.sum,
      decide (limits ≠ [] ∧ ids.length ≤ cursor + limits.sum)) := by
  induction limits generalizing cursor with
  | nil => simp [followChildren, pure, Except.pure]
  | cons limit limits ih =>
    have hrest : ∀ l ∈ limits, 0 < l ∧ l ≤ childrenMaxPage := fun l hl =>
      hlimits l (List.mem_cons_of_mem limit hl)
    have hpage := children_eq hslots htotal (hlimits limit List.mem_cons_self) hcursor
    simp only [followChildren, hpage, ok_bind, decide_eq_true_iff, List.sum_cons]
    by_cases hdone : ids.length ≤ cursor + limit
    · have hall : ids.length - cursor ≤ limit := by omega
      have hlength : (ids.drop cursor).length ≤ limit := by rwa [List.length_drop]
      have hboth : ids.length ≤ cursor + (limit + limits.sum) := by omega
      rw [if_pos hdone, List.take_of_length_le hlength,
        List.take_of_length_le (hlength.trans (Nat.le_add_right _ _))]
      simp [hboth, pure, Except.pure]
    · have hnext : min (cursor + limit) ids.length = cursor + limit := by omega
      have hwithin : cursor + limit ≤ ids.length := by omega
      rw [if_neg hdone, hnext, ih hrest hwithin, ok_bind, List.take_add, List.drop_drop, Nat.add_assoc]
      cases limits with
      | nil =>
        have hopen : cursor + limit < ids.length := Nat.lt_of_not_le hdone
        simp [hopen, pure, Except.pure]
      | cons => simp [pure, Except.pure]

/-- Enough pages return every child and then report that they are done. -/
theorem followChildren_all (hslots : ∀ n, c.childIndex (parentId, n) = ids[n]?)
    (htotal : c.childCount parentId = ids.length)
    (hlimits : ∀ limit ∈ limits, 0 < limit ∧ limit ≤ childrenMaxPage)
    (henough : ids.length < limits.length) :
    followChildren c parentId limits 0 = .ok (ids, true) := by
  have hsum : limits.length ≤ limits.sum := by
    have hle := List.length_le_sum_of_one_le limits fun limit hlimit => (hlimits limit hlimit).1
    exact hle
  have hall : ids.length ≤ limits.sum := by omega
  have hsome : limits ≠ [] := List.ne_nil_of_length_pos (by omega)
  rw [followChildren_eq hslots htotal hlimits (Nat.zero_le _), List.drop_zero,
    List.take_of_length_le hall]
  simp [hsome, hall]

end Paging

section Chains

/-- An entry is a child of the entry that it names as its parent. -/
def ParentOf (c : Catalog) (parentId id : Bytes32) : Prop :=
  ∃ entry, c.entry id = some entry ∧ entry.parent = some parentId

def EntryKind.depth : EntryKind → Nat
  | .work => 0
  | .edition => 1
  | .rendition => 2

def depth (c : Catalog) (id : Bytes32) : Nat := ((c.entry id).map fun entry => entry.kind.depth).getD 0

/-- A parent lies one level higher than its child. -/
theorem ParentOf.depth_lt (hc : ∀ id entry, c.entry id = some entry → Placed c entry) {id : Bytes32}
    (h : ParentOf c parentId id) : depth c parentId < depth c id := by
  obtain ⟨entry, hstored, hparent⟩ := h
  have hplaced := hc id entry hstored
  have habove : ∀ kind, HasParent c entry kind → depth c parentId = kind.depth := by
    intro kind hkind
    obtain ⟨x, parent, hx, hfound, rfl⟩ := hkind
    rw [hparent] at hx
    obtain rfl := Option.some.inj hx
    simp [depth, hfound]
  unfold Placed at hplaced
  have hbelow : depth c id = entry.kind.depth := by simp [depth, hstored]
  cases hkind : entry.kind with
  | work =>
    simp only [hkind, hparent] at hplaced
    cases hplaced
  | edition =>
    simp only [hkind] at hplaced
    rw [habove _ hplaced, hbelow, hkind]
    decide
  | rendition =>
    simp only [hkind] at hplaced
    rw [habove _ hplaced, hbelow, hkind]
    decide

/-- Chains of parents end. -/
theorem parentOf_wellFounded (hc : ∀ id entry, c.entry id = some entry → Placed c entry) :
    WellFounded (ParentOf c) :=
  Subrelation.wf (fun h => h.depth_lt hc) (measure (depth c)).wf

theorem parentOf_acyclic (hc : ∀ id entry, c.entry id = some entry → Placed c entry) (id : Bytes32) :
    ¬Relation.TransGen (ParentOf c) id id := by
  intro hcycle
  exact (parentOf_wellFounded hc).transGen.irrefl.irrefl id hcycle

end Chains

/-- After every run the catalog is a forest of works, editions and renditions with dense histories that
never change, each child index has the children of its parent once each, and the pages that follow one
another return them in the order of their registration, to the last. -/
theorem run_catalog (is : List (Input contract)) :
    let s := (machine contract crypto).run State.empty is
    let es := (machine contract crypto).journal State.empty is
    let c := s.catalog
    (∀ id entry, c.entry id = some entry → Placed c entry) ∧ WellFounded (ParentOf c) ∧
    (∀ id, ¬Relation.TransGen (ParentOf c) id id) ∧
    (∀ id entry, c.entry id = some entry → versionCount c id = entry.version ∧
      (∀ n, c.entryVersion (id, n) ≠ none ↔ 1 ≤ n ∧ n ≤ entry.version) ∧
      ∃ snapshot, c.entryVersion (id, entry.version) = some snapshot ∧ Records snapshot entry) ∧
    (∀ js id n snapshot, c.entryVersion (id, n) = some snapshot →
      ((machine contract crypto).run State.empty (is ++ js)).catalog.entryVersion (id, n) =
        some snapshot) ∧
    ∀ parentId,
      (childrenIn es parentId).Nodup ∧
      (∀ id, id ∈ childrenIn es parentId ↔ ParentOf c parentId id) ∧
      (∀ n, c.childIndex (parentId, n) = (childrenIn es parentId)[n]?) ∧
      ∀ limits, (∀ limit ∈ limits, 1 ≤ limit ∧ limit ≤ childrenMaxPage) →
        followChildren c parentId limits 0 = .ok ((childrenIn es parentId).take limits.sum,
          decide (limits ≠ [] ∧ (childrenIn es parentId).length ≤ limits.sum)) ∧
        ((childrenIn es parentId).length < limits.length →
          followChildren c parentId limits 0 = .ok (childrenIn es parentId, true)) := by
  intro s es c
  have hc : Rooted c es := run_rooted is
  refine ⟨hc.placed, parentOf_wellFounded hc.placed, parentOf_acyclic hc.placed, ?_, ?_, ?_⟩
  · intro id entry hstored
    have hcount := (hc.histories.counted id entry hstored).1
    refine ⟨hcount, ?_, hc.histories.last id entry hstored⟩
    intro n
    rw [hc.histories.dense, hcount]
    exact Iff.rfl
  · intro js id n snapshot hstored
    exact run_snapshot is js hstored
  · intro parentId
    have hslots := hc.indexed.slots parentId
    have htotal := hc.indexed.total parentId
    refine ⟨hc.indexed.listed.nodup parentId, ?_, hslots, ?_⟩
    · intro id
      rw [hc.indexed.listed.mem, parentOf, Option.bind_eq_some_iff]
      exact Iff.rfl
    · intro limits hlimits
      refine ⟨?_, followChildren_all hslots htotal hlimits⟩
      rw [followChildren_eq hslots htotal hlimits (Nat.zero_le _), List.drop_zero, Nat.zero_add]

end Pages

end ChainVerse.LibraryRights
