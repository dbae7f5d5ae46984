import ChainVerse.Host.Environment
import ChainVerse.Framework.Tables
import Mathlib.Data.BitVec
import Mathlib.Data.Fintype.EquivFin

namespace ChainVerse

section Integers

/-! Machine integers whose range a result rests on. -/

abbrev U32 := Fin (2^32)

abbrev U64 := Fin (2^64)

/-! The facts that numerals of these types rest on. -/

instance neZero_u32 : NeZero (2^32) := ⟨by decide⟩

instance neZero_u64 : NeZero (2^64) := ⟨by decide⟩

abbrev I128 := {x : Int // -2^127 ≤ x ∧ x < 2^127}

/-- `as u128` on an `i128`. -/
def asU128 (x : I128) : Nat := (x.val % 2^128).toNat

/-- `as i128` on a `u128`. -/
def asI128 (n : Nat) : Int := Int.bmod n (2^128)

/-- The ledger time. -/
def Env.now {contract : Address} (env : Env contract) : U64 := ⟨env.timestamp, env.timestamp_lt⟩

theorem asU128_of_nonneg {x : I128} (h : 0 ≤ x.val) : asU128 x = x.val.toNat := by
  have hfits := x.property.2
  rw [asU128, Int.emod_eq_of_lt h (by omega)]

theorem asI128_of_lt {n : Nat} (h : n < 2^127) : asI128 n = n := by
  apply Int.bmod_eq_of_le
  · omega
  · omega

end Integers

abbrev Byte := BitVec 8

/-- `to_be_bytes` of an integer of `size` bytes. -/
def beBytes (size n : Nat) : List Byte :=
  (List.range size).reverse.map fun i => BitVec.ofNat 8 (n / 256^i)

def bytes32 (b : Bytes32) : List Byte := beBytes 32 b.toNat

def asciiBytes (text : String) : List Byte := text.toList.map fun c => BitVec.ofNat 8 c.toNat

/-- `to_be_bytes` of an `i128`. -/
def i128Bytes (x : Int) : List Byte := beBytes 16 (x % 2^128).toNat

theorem finite_bytes32 (ids : Set Bytes32) : ids.Finite :=
  have : Finite Bytes32 := .of_equiv _ BitVec.equivFin.symm.toEquiv
  ids.toFinite

/-- Writing one row moves the number of ids whose rows have a property by that row alone. -/
theorem ncard_update_id {V : Type} (p : V → Bool) {table table' : Bytes32 → V} {id : Bytes32} {row : V}
    (h : table' = Function.update table id row) :
    {x | p (table' x) = true}.ncard + (if p (table id) = true then 1 else 0) =
      {x | p (table x) = true}.ncard + if p row = true then 1 else 0 := by
  rw [h]
  exact ncard_update_row (p := fun row => p row = true) (finite_bytes32 _) id row

section Encoding

variable {size a b : Nat}

@[simp] theorem length_beBytes (size n : Nat) : (beBytes size n).length = size := by
  simp [beBytes]

@[simp] theorem length_bytes32 (b : Bytes32) : (bytes32 b).length = 32 := length_beBytes 32 _

@[simp] theorem length_i128Bytes (x : Int) : (i128Bytes x).length = 16 := length_beBytes 16 _

/-- The last byte is the lowest one. -/
theorem beBytes_succ (size n : Nat) :
    beBytes (size + 1) n = beBytes size (n / 256) ++ [BitVec.ofNat 8 n] := by
  have hhigher : ∀ i, n / 256^(i + 1) = n / 256 / 256^i := by
    intro i
    rw [Nat.pow_succ', Nat.div_div_eq_div_mul]
  simp [beBytes, List.range_succ_eq_map, hhigher]

/-- An integer that fits its bytes is determined by them. -/
theorem beBytes_inj (ha : a < 256^size) (hb : b < 256^size) (h : beBytes size a = beBytes size b) :
    a = b := by
  induction size generalizing a b with
  | zero => omega
  | succ size ih =>
    rw [beBytes_succ, beBytes_succ] at h
    obtain ⟨hhigher, hlowest⟩ := List.append_inj' h rfl
    have hdiv : a / 256 = b / 256 := by
      apply ih _ _ hhigher
      · exact Nat.div_lt_of_lt_mul (by rwa [Nat.pow_succ'] at ha)
      · exact Nat.div_lt_of_lt_mul (by rwa [Nat.pow_succ'] at hb)
    have hmod : a % 256 = b % 256 := by
      have hbyte := congrArg BitVec.toNat (List.head_eq_of_cons_eq hlowest)
      simpa using hbyte
    omega

theorem bytes32_inj {x y : Bytes32} (h : bytes32 x = bytes32 y) : x = y := by
  apply BitVec.eq_of_toNat_eq
  exact beBytes_inj x.isLt y.isLt h

theorem i128Bytes_inj {x y : Int} (hx : -2^127 ≤ x ∧ x < 2^127) (hy : -2^127 ≤ y ∧ y < 2^127)
    (h : i128Bytes x = i128Bytes y) : x = y := by
  have hbytes := beBytes_inj (by omega) (by omega) h
  omega

end Encoding

end ChainVerse
