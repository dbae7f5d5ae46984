import ChainVerse.Host.Bytes
import Mathlib.Logic.Function.Basic

namespace ChainVerse

/-! Ids that are hashes of a counter and further bytes. As long as no two of the byte strings that
have been hashed collide, every new id is unused. -/

/-- The host functions that such ids are computed with. -/
structure Crypto where
  sha256 : List Byte → Bytes32
  /-- The XDR encoding of an address. -/
  addressXdr : Address → List Byte

section Issuance

/-- No two of the byte strings collide. -/
def CollisionFree (hash : List Byte → Bytes32) (hashed : List (List Byte)) : Prop :=
  ∀ p ∈ hashed, ∀ q ∈ hashed, hash p = hash q → p = q

variable {hash : List Byte → Bytes32} {hashed ps : List (List Byte)} {stored stored' : Bytes32 → Prop}
  {count : Nat} {p rest : List Byte}

instance : Decidable (CollisionFree hash hashed) := inferInstanceAs (Decidable (∀ p ∈ _, _))

theorem CollisionFree.left (h : CollisionFree hash (hashed ++ ps)) : CollisionFree hash hashed :=
  fun p hp q hq => h p (List.mem_append_left _ hp) q (List.mem_append_left _ hq)

/-- What an injective encoding keeps apart does not collide when the encoded strings do not. -/
theorem CollisionFree.of_map {f : List Byte → List Byte} (hf : Function.Injective f)
    (h : CollisionFree hash (hashed.map f)) : CollisionFree (hash ∘ f) hashed := by
  intro p hp q hq hsame
  exact hf (h (f p) (List.mem_map_of_mem hp) (f q) (List.mem_map_of_mem hq) hsame)

section Runs

variable {A : Type} {preimage : A → Option (List Byte)} {xs ys : List A}

theorem CollisionFree.filterMap_left (h : CollisionFree hash ((xs ++ ys).filterMap preimage)) :
    CollisionFree hash (xs.filterMap preimage) := by
  rw [List.filterMap_append] at h
  exact h.left

theorem filterMap_snoc {B : Type} {f : A → Option B} (x : A) :
    (xs ++ [x]).filterMap f = xs.filterMap f ++ (f x).toList := by
  cases h : f x <;> simp [h]

end Runs

/-- The stored ids are hashes of `hashed`, each of which starts with a value that the counter has
had. -/
structure Issued (hash : List Byte → Bytes32) (stored : Bytes32 → Prop) (count : Nat)
    (hashed : List (List Byte)) : Prop where
  fits : count < 2^64
  issued : ∀ id, stored id → ∃ p ∈ hashed, hash p = id
  counted : ∀ p ∈ hashed, ∃ n rest, n ≤ count ∧ p = beBytes 8 n ++ rest

theorem issued_empty : Issued hash (fun _ => False) 0 [] where
  fits := by decide
  issued _ h := h.elim
  counted _ h := absurd h List.not_mem_nil

theorem Issued.mono (h : Issued hash stored count hashed) (hstored : ∀ id, stored' id → stored id) :
    Issued hash stored' count hashed where
  fits := h.fits
  issued id hid := h.issued id (hstored id hid)
  counted := h.counted

/-- The hash of the next value of the counter is not in use. -/
theorem Issued.fresh (h : Issued hash stored count hashed) (hp : p = beBytes 8 (count + 1) ++ rest)
    (hfits : count + 1 < 2^64) (hfree : CollisionFree hash (hashed ++ [p])) :
    ¬ stored (hash p) := by
  intro hstored
  obtain ⟨q, hq, hsame⟩ := h.issued _ hstored
  have hpq : q = p :=
    hfree q (List.mem_append_left _ hq) p List.mem_concat_self hsame
  obtain ⟨n, rest', hn, hstart⟩ := h.counted q hq
  rw [hpq, hp] at hstart
  have hcounts := (List.append_inj hstart (by simp)).1
  have hcount := beBytes_inj (by omega) (by omega) hcounts
  omega

theorem Issued.push (h : Issued hash stored count hashed) (hp : p = beBytes 8 (count + 1) ++ rest)
    (hfits : count + 1 < 2^64) (hstored : ∀ id, stored' id → stored id ∨ id = hash p) :
    Issued hash stored' (count + 1) (hashed ++ [p]) where
  fits := hfits
  issued id hid := by
    rcases hstored id hid with hold | hnew
    · obtain ⟨q, hq, hhash⟩ := h.issued id hold
      exact ⟨q, List.mem_append_left _ hq, hhash⟩
    · exact ⟨p, List.mem_concat_self, hnew.symm⟩
  counted q hq := by
    rcases List.mem_append.mp hq with hold | hnew
    · obtain ⟨n, rest', hn, hstart⟩ := h.counted q hold
      exact ⟨n, rest', Nat.le_succ_of_le hn, hstart⟩
    · rw [List.mem_singleton.mp hnew]
      exact ⟨count + 1, rest, le_rfl, hp⟩

section Tables

variable {V : Type} {table : Bytes32 → Option V} {id : Bytes32} {v row : V}

/-- A row written over another one needs no new id. -/
theorem Issued.rewrite (h : Issued hash (fun x => table x ≠ none) count hashed)
    (hfound : table id = some row) :
    Issued hash (fun x => Function.update table id (some v) x ≠ none) count hashed := by
  refine h.mono fun x hx habsent => ?_
  have hne : x ≠ id := by
    intro heq
    rw [heq, hfound] at habsent
    cases habsent
  exact hx ((Function.update_of_ne hne _ _).trans habsent)

/-- A row is written under the hash of the next value of the counter. -/
theorem Issued.insert (h : Issued hash (fun x => table x ≠ none) count hashed)
    (hp : p = beBytes 8 (count + 1) ++ rest) (hfits : count + 1 < 2^64) (hid : id = hash p) :
    Issued hash (fun x => Function.update table id (some v) x ≠ none) (count + 1)
      (hashed ++ [p]) := by
  refine h.push hp hfits fun x hx => ?_
  by_cases heq : x = id
  · exact .inr (heq.trans hid)
  · exact .inl fun hnone => hx ((Function.update_of_ne heq _ _).trans hnone)

end Tables

/-- The XDR encoding of an account as a host value. -/
def accountXdr (account : Address) : List Byte :=
  [0, 0, 0, 18, 0, 0, 0, 0, 0, 0, 0, 0] ++ beBytes 32 account.key

end Issuance

end ChainVerse
