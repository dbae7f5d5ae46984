import Mathlib.Data.List.Induction

namespace ChainVerse

/-! Records that each carry their position and the hash of the record before. The hash of the last record
stands for all of them. -/

/-- What a chain reads of a record. -/
structure Links (R H : Type) where
  position : R → Nat
  previous : R → H
  hash : R → H

namespace Links

variable {R H : Type} (l : Links R H)

/-- The hash that the next record has to carry, where the first one carries `start`. -/
def head (start : H) : List R → H
  | [] => start
  | r :: rs => head (l.hash r) rs

/-- The records follow the hash `start` and the position `n`, each the one before it. -/
def Linked (start : H) (n : Nat) : List R → Prop
  | [] => True
  | r :: rs => l.position r = n + 1 ∧ l.previous r = start ∧ Linked (l.hash r) (n + 1) rs

variable {l} {start start' : H} {n : Nat} {r s : R} {rs ss : List R}

@[simp] theorem head_nil : l.head start [] = start := rfl

@[simp] theorem head_cons : l.head start (r :: rs) = l.head (l.hash r) rs := rfl

@[simp] theorem linked_nil : l.Linked start n [] := trivial

@[simp] theorem linked_cons : l.Linked start n (r :: rs) ↔
    l.position r = n + 1 ∧ l.previous r = start ∧ l.Linked (l.hash r) (n + 1) rs := Iff.rfl

theorem head_append : l.head start (rs ++ ss) = l.head (l.head start rs) ss := by
  induction rs generalizing start with
  | nil => rfl
  | cons r rs ih => exact ih

@[simp] theorem head_snoc : l.head start (rs ++ [r]) = l.hash r := by
  rw [head_append, head_cons, head_nil]

theorem linked_append : l.Linked start n (rs ++ ss) ↔
    l.Linked start n rs ∧ l.Linked (l.head start rs) (n + rs.length) ss := by
  induction rs generalizing start n with
  | nil => simp
  | cons r rs ih =>
    have hlength : n + (rs.length + 1) = n + 1 + rs.length := by omega
    rw [List.cons_append, linked_cons, linked_cons, ih, head_cons, List.length_cons, hlength,
      and_assoc, and_assoc]

theorem linked_snoc : l.Linked start n (rs ++ [r]) ↔
    l.Linked start n rs ∧ l.position r = n + rs.length + 1 ∧ l.previous r = l.head start rs := by
  simp [linked_append]

theorem Linked.split (h : l.Linked start n (rs ++ r :: ss)) :
    l.Linked start n rs ∧ l.position r = n + rs.length + 1 ∧ l.previous r = l.head start rs := by
  rw [List.append_cons, linked_append] at h
  exact linked_snoc.mp h.1

/-- Two chains of one length that end in the same hash are the same, unless two of their records
share a hash. -/
theorem Linked.eq_of_head (hrs : l.Linked start n rs) (hss : l.Linked start' n ss)
    (hlength : rs.length = ss.length) (hhead : l.head start rs = l.head start' ss)
    (hfree : ∀ r ∈ rs, ∀ s ∈ ss, l.hash r = l.hash s → r = s) : rs = ss := by
  -- The chains agree from their ends on: a common record determines the hash of the ones before.
  induction rs using List.reverseRecOn generalizing ss with
  | nil => exact (List.eq_nil_of_length_eq_zero hlength.symm).symm
  | append_singleton rs r ih =>
    rcases List.eq_nil_or_concat ss with rfl | ⟨ss, s, rfl⟩
    · simp at hlength
    · rw [List.concat_eq_append] at *
      rw [head_snoc, head_snoc] at hhead
      have hlast : r = s := hfree r List.mem_concat_self s List.mem_concat_self hhead
      subst hlast
      obtain ⟨hrs, _, hprevious⟩ := linked_snoc.mp hrs
      obtain ⟨hss, _, hprevious'⟩ := linked_snoc.mp hss
      have hrest : rs = ss := by
        apply ih hrs hss
        · simpa using hlength
        · rw [← hprevious, hprevious']
        · exact fun x hx y hy => hfree x (List.mem_append_left _ hx) y (List.mem_append_left _ hy)
      rw [hrest]

/-- Two chains that share the hash of a record are the same up to that record. -/
theorem Linked.eq_before {rs' ss' : List R} (hrs : l.Linked start n (rs ++ r :: rs'))
    (hss : l.Linked start' n (ss ++ s :: ss')) (hsame : l.hash r = l.hash s)
    (hfree : ∀ x ∈ rs ++ [r], ∀ y ∈ ss ++ [s], l.hash x = l.hash y → x = y) :
    rs = ss ∧ r = s := by
  have hlast : r = s := hfree r List.mem_concat_self s List.mem_concat_self hsame
  subst hlast
  obtain ⟨hrs, hposition, hprevious⟩ := hrs.split
  obtain ⟨hss, hposition', hprevious'⟩ := hss.split
  refine ⟨?_, rfl⟩
  apply hrs.eq_of_head hss
  · omega
  · rw [← hprevious, hprevious']
  · exact fun x hx y hy => hfree x (List.mem_append_left _ hx) y (List.mem_append_left _ hy)

end Links

end ChainVerse
