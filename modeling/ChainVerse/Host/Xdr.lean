import ChainVerse.Host.Issuance

namespace ChainVerse

/-! Encodings whose end can be read off the encoding itself, so that values written one after the other
can be told apart. -/

section Codes

variable {A B : Type} {S : Type} {f : A → List S} {g : B → List S}

/-- What follows the encoding of a value does not blur which value it is. -/
def SelfDelimiting (f : A → List S) : Prop :=
  ∀ a b xs ys, f a ++ xs = f b ++ ys → a = b ∧ xs = ys

theorem SelfDelimiting.injective (h : SelfDelimiting f) : Function.Injective f := by
  intro a b hab
  have hsame : f a ++ [] = f b ++ [] := by rw [hab]
  exact (h a b [] [] hsame).1

/-- Encodings of one length are told apart by their values alone. -/
theorem SelfDelimiting.of_length {size : Nat} (hlength : ∀ a, (f a).length = size)
    (hinj : Function.Injective f) : SelfDelimiting f := by
  intro a b xs ys h
  obtain ⟨hvalue, hrest⟩ := List.append_inj h (by rw [hlength, hlength])
  exact ⟨hinj hvalue, hrest⟩

theorem map_inj_on {h : A → B} {xs ys : List A} (hinj : ∀ x ∈ xs, ∀ y ∈ ys, h x = h y → x = y)
    (hsame : xs.map h = ys.map h) : xs = ys := by
  induction xs generalizing ys with
  | nil => exact (List.map_eq_nil_iff.mp hsame.symm).symm
  | cons x xs ih =>
    cases ys with
    | nil => cases hsame
    | cons y ys =>
      obtain ⟨hfirst, hrest⟩ := List.cons.inj hsame
      rw [hinj x List.mem_cons_self y List.mem_cons_self hfirst, ih _ hrest]
      exact fun a ha b hb => hinj a (List.mem_cons_of_mem _ ha) b (List.mem_cons_of_mem _ hb)

/-- A value may be written behind a mark. -/
theorem SelfDelimiting.behind (h : SelfDelimiting f) (mark : List S) :
    SelfDelimiting fun a => mark ++ f a := by
  intro a b xs ys hsame
  rw [List.append_assoc, List.append_assoc] at hsame
  exact h a b xs ys (List.append_cancel_left hsame)

theorem SelfDelimiting.comp (h : SelfDelimiting f) {name : B → A} (hname : Function.Injective name) :
    SelfDelimiting fun b => f (name b) := by
  intro a b xs ys hsame
  obtain ⟨hnames, hrest⟩ := h _ _ xs ys hsame
  exact ⟨hname hnames, hrest⟩

/-- Two values are written one after the other. -/
theorem SelfDelimiting.append (hf : SelfDelimiting f) (hg : SelfDelimiting g) :
    SelfDelimiting fun p : A × B => f p.1 ++ g p.2 := by
  intro p q xs ys hsame
  rw [List.append_assoc, List.append_assoc] at hsame
  obtain ⟨hfirst, hrest⟩ := hf _ _ _ _ hsame
  obtain ⟨hsecond, hrest⟩ := hg _ _ _ _ hrest
  exact ⟨Prod.ext hfirst hsecond, hrest⟩

/-- A value is written behind its length. -/
theorem SelfDelimiting.measured {prelude : A → List S} {width : Nat}
    (hprelude : ∀ a, (prelude a).length = width)
    (hlength : ∀ a b, prelude a = prelude b → (f a).length = (f b).length)
    (hinj : ∀ a b, prelude a = prelude b → f a = f b → a = b) :
    SelfDelimiting fun a => prelude a ++ f a := by
  intro a b xs ys hsame
  rw [List.append_assoc, List.append_assoc] at hsame
  obtain ⟨hlengths, hrest⟩ := List.append_inj hsame (by rw [hprelude, hprelude])
  obtain ⟨hvalue, hrest⟩ := List.append_inj hrest (hlength a b hlengths)
  exact ⟨hinj a b hlengths hvalue, hrest⟩

end Codes

/-! The XDR encoding of host values. -/

section Values

def xdrU64 (n : U64) : List Byte := [0, 0, 0, 5] ++ beBytes 8 n.val

def xdrBytes32 (b : Bytes32) : List Byte := [0, 0, 0, 13, 0, 0, 0, 32] ++ bytes32 b

/-- Strings are padded to a multiple of four bytes. -/
def padding (length : Nat) : List Byte := List.replicate ((4 - length % 4) % 4) 0

def xdrSymbol (name : Symbol) : List Byte :=
  [0, 0, 0, 15] ++ (beBytes 4 name.length ++ (asciiBytes name ++ padding name.length))

/-- A vector of as many values as its header says. -/
def xdrVec (size : Nat) (values : List Byte) : List Byte :=
  [0, 0, 0, 16, 0, 0, 0, 1] ++ (beBytes 4 size ++ values)

/-- A variant without values is a vector of its name. -/
def xdrUnit (name : Symbol) : List Byte := xdrVec 1 (xdrSymbol name)

/-- What the host accepts as a symbol, as far as its encoding goes. -/
def IsSymbol (name : Symbol) : Prop := name.length ≤ 32 ∧ ∀ c ∈ name.toList, c.toNat < 128

instance (name : Symbol) : Decidable (IsSymbol name) :=
  decidable_of_iff (name.length ≤ 32 ∧ name.toList.all fun c => c.toNat < 128) (by simp [IsSymbol])

theorem xdrU64_selfDelimiting : SelfDelimiting xdrU64 := by
  apply SelfDelimiting.behind
  apply SelfDelimiting.of_length (fun n : U64 => length_beBytes 8 n.val)
  intro a b h
  exact Fin.ext (beBytes_inj a.isLt b.isLt h)

theorem xdrBytes32_selfDelimiting : SelfDelimiting xdrBytes32 := by
  apply SelfDelimiting.behind
  exact SelfDelimiting.of_length length_bytes32 fun _ _ => bytes32_inj

theorem asciiBytes_inj {x y : Symbol} (hx : IsSymbol x) (hy : IsSymbol y)
    (h : asciiBytes x = asciiBytes y) : x = y := by
  have hchars : ∀ c ∈ x.toList, ∀ d ∈ y.toList, BitVec.ofNat 8 c.toNat = BitVec.ofNat 8 d.toNat →
      c = d := by
    intro c hc d hd hsame
    have hcsmall := hx.2 c hc
    have hdsmall := hy.2 d hd
    have hnat := congrArg BitVec.toNat hsame
    rw [BitVec.toNat_ofNat, BitVec.toNat_ofNat] at hnat
    apply Char.ext
    apply UInt32.toNat_inj.mp
    change c.toNat = d.toNat
    omega
  exact String.toList_inj.mp (map_inj_on hchars h)

/-- Symbols are written behind their lengths. -/
theorem xdrSymbol_selfDelimiting : SelfDelimiting fun name : {name // IsSymbol name} => xdrSymbol name := by
  apply SelfDelimiting.behind
  have hlengths : ∀ x y : {name // IsSymbol name},
      beBytes 4 x.val.length = beBytes 4 y.val.length → x.val.length = y.val.length := by
    intro x y h
    have hx := x.property.1
    have hy := y.property.1
    exact beBytes_inj (by omega) (by omega) h
  have hascii : ∀ name : Symbol, (asciiBytes name).length = name.length := by
    intro name
    rw [asciiBytes, List.length_map, String.length_toList]
  apply SelfDelimiting.measured (fun x : {name // IsSymbol name} => length_beBytes 4 x.val.length)
  · intro x y h
    rw [List.length_append, List.length_append, hascii, hascii, hlengths x y h]
  · intro x y h hsame
    rw [hlengths x y h] at hsame
    exact Subtype.ext (asciiBytes_inj x.property y.property (List.append_cancel_right hsame))

/-- Variants are told apart by their names. -/
theorem xdrUnit_selfDelimiting {A : Type} {name : A → Symbol} (hsymbol : ∀ a, IsSymbol (name a))
    (hname : Function.Injective name) : SelfDelimiting fun a => xdrUnit (name a) := by
  have hnames : Function.Injective fun a => (⟨name a, hsymbol a⟩ : {name // IsSymbol name}) := by
    intro a b h
    exact hname (congrArg Subtype.val h)
  exact ((xdrSymbol_selfDelimiting.comp hnames).behind _).behind _

end Values

section Samples

def unary : Nat → List Byte
  | 0 => [0]
  | n + 1 => 1 :: unary n

/-- Accounts have keys of 32 bytes; what lies beyond them is told apart all the same. -/
def sampleXdr (account : Address) : List Byte :=
  if account.key < 2^256 then accountXdr account else 1 :: unary account.key

theorem unary_selfDelimiting : SelfDelimiting unary := by
  intro m n xs ys h
  induction m generalizing n with
  | zero =>
    cases n with
    | zero => exact ⟨rfl, List.append_cancel_left h⟩
    | succ n => exact absurd (List.cons.inj h).1 (by decide)
  | succ m ih =>
    cases n with
    | zero => exact absurd (List.cons.inj h).1 (by decide)
    | succ n =>
      obtain ⟨hsame, hrest⟩ := ih n (List.cons.inj h).2
      exact ⟨congrArg (· + 1) hsame, hrest⟩

theorem sampleXdr_selfDelimiting : SelfDelimiting sampleXdr := by
  intro a b xs ys h
  unfold sampleXdr at h
  by_cases ha : a.key < 2^256
  · by_cases hb : b.key < 2^256
    · rw [if_pos ha, if_pos hb] at h
      obtain ⟨haccount, hrest⟩ := List.append_inj h (by simp [accountXdr])
      have hkeys := beBytes_inj ha hb (List.append_cancel_left haccount)
      exact ⟨congrArg Address.mk hkeys, hrest⟩
    · rw [if_pos ha, if_neg hb] at h
      exact absurd (List.cons.inj h).1 (by decide)
  · by_cases hb : b.key < 2^256
    · rw [if_neg ha, if_pos hb] at h
      exact absurd (List.cons.inj h).1 (by decide)
    · rw [if_neg ha, if_neg hb] at h
      obtain ⟨hkeys, hrest⟩ := unary_selfDelimiting _ _ _ _ (List.cons.inj h).2
      exact ⟨congrArg Address.mk hkeys, hrest⟩

end Samples

end ChainVerse
