import ChainVerse.Framework.Spans
import Mathlib.Data.List.Chain

namespace ChainVerse

/-! Spans in the order of their starts, merged one after the other where they overlap or touch. -/

section Coalescing

variable {ρ τ : Type} [LinearOrder τ] (lo hi : ρ → τ) (join : ρ → ρ → ρ)

/-- A span is merged in: it extends the last one, is swallowed by it, or starts a new one. -/
def pushSpan (merged : List ρ) (span : ρ) : List ρ :=
  match merged.getLast? with
  | some last =>
    if lo span ≤ hi last then
      if hi last < hi span then merged.dropLast ++ [join last span] else merged
    else merged ++ [span]
  | none => merged ++ [span]

/-- The joined span starts with the first one and ends with the second one. -/
structure Joins (lo hi : ρ → τ) (join : ρ → ρ → ρ) : Prop where
  lo : ∀ r p, lo (join r p) = lo r
  hi : ∀ r p, hi (join r p) = hi p

/-- Spans in the order of their starts with a gap after each, empty ones included. -/
structure Merged (lo hi : ρ → τ) (merged : List ρ) : Prop where
  sorted : merged.Pairwise fun r p => lo r ≤ lo p
  gaps : merged.IsChain fun r p => hi r < lo p

variable {lo hi join} {merged spans : List ρ} {span last : ρ}

theorem pushSpan_nil (span : ρ) : pushSpan lo hi join [] span = [span] := rfl

theorem pushSpan_concat (merged : List ρ) (last span : ρ) :
    pushSpan lo hi join (merged ++ [last]) span =
      if lo span ≤ hi last then
        if hi last < hi span then merged ++ [join last span] else merged ++ [last]
      else merged ++ [last] ++ [span] := by
  unfold pushSpan
  rw [List.getLast?_concat, List.dropLast_concat]

section Gaps

theorem pushSpan_length (lo hi : ρ → τ) (join : ρ → ρ → ρ) (merged : List ρ) (span : ρ) :
    (pushSpan lo hi join merged span).length ≤ merged.length + 1 := by
  rcases List.eq_nil_or_concat' merged with rfl | ⟨init, last, rfl⟩
  · exact Nat.le_refl 1
  · rw [pushSpan_concat]
    split_ifs <;> simp

theorem foldl_pushSpan_length (lo hi : ρ → τ) (join : ρ → ρ → ρ) (merged spans : List ρ) :
    (spans.foldl (pushSpan lo hi join) merged).length ≤ merged.length + spans.length := by
  induction spans generalizing merged with
  | nil => exact Nat.le_refl _
  | cons span spans ih =>
    have hrest := ih (pushSpan lo hi join merged span)
    have hone := pushSpan_length lo hi join merged span
    rw [List.foldl_cons, List.length_cons]
    omega

/-- Merging leaves spans alone that have gaps between them. -/
theorem foldl_pushSpan_of_gaps (h : (merged ++ spans).IsChain fun r p => hi r < lo p) :
    spans.foldl (pushSpan lo hi join) merged = merged ++ spans := by
  induction spans generalizing merged with
  | nil => rw [List.foldl_nil, List.append_nil]
  | cons span spans ih =>
    have hpushed : pushSpan lo hi join merged span = merged ++ [span] := by
      rcases List.eq_nil_or_concat' merged with rfl | ⟨init, last, rfl⟩
      · rfl
      · rw [List.append_assoc, List.singleton_append, List.isChain_append_cons_cons] at h
        rw [pushSpan_concat, if_neg (not_le.mpr h.2.1)]
    rw [List.append_cons] at h
    rw [List.foldl_cons, hpushed, ih h, ← List.append_cons]

/-- A span that starts no earlier than the last one is merged in. -/
theorem Merged.push (hjoin : Joins lo hi join) (h : Merged lo hi merged)
    (hlater : ∀ r ∈ merged, lo r ≤ lo span) : Merged lo hi (pushSpan lo hi join merged span) ∧
      ∀ r ∈ pushSpan lo hi join merged span, lo r ≤ lo span := by
  obtain ⟨hsorted, hgaps⟩ := h
  rcases List.eq_nil_or_concat' merged with rfl | ⟨init, last, rfl⟩
  · rw [pushSpan_nil]
    exact ⟨⟨List.pairwise_singleton _ _, .singleton _⟩, by simp⟩
  · obtain ⟨hinit, _, hbefore⟩ := List.pairwise_append.mp hsorted
    obtain ⟨hinitGaps, _, hgap⟩ := List.isChain_append.mp hgaps
    rw [pushSpan_concat]
    split_ifs with htouch hlonger
    · refine ⟨⟨?_, ?_⟩, ?_⟩
      · refine List.pairwise_append.mpr ⟨hinit, List.pairwise_singleton _ _, fun r hr p hp => ?_⟩
        rw [List.mem_singleton.mp hp, hjoin.lo]
        exact hbefore r hr last (List.mem_singleton_self last)
      · refine hinitGaps.append (.singleton _) fun r hr p hp => ?_
        cases hp
        rw [hjoin.lo]
        exact hgap r hr last rfl
      · intro r hr
        rcases List.mem_append.mp hr with hr | hr
        · exact hlater r (List.mem_append_left _ hr)
        · rw [List.mem_singleton.mp hr, hjoin.lo]
          exact hlater last List.mem_concat_self
    · exact ⟨⟨hsorted, hgaps⟩, hlater⟩
    · refine ⟨⟨?_, ?_⟩, ?_⟩
      · refine List.pairwise_append.mpr ⟨hsorted, List.pairwise_singleton _ _, fun r hr p hp => ?_⟩
        rw [List.mem_singleton.mp hp]
        exact hlater r hr
      · refine hgaps.append (.singleton _) fun r hr p hp => ?_
        rw [List.getLast?_concat] at hr
        cases hr
        cases hp
        exact not_le.mp htouch
      · intro r hr
        rcases List.mem_append.mp hr with hr | hr
        · exact hlater r hr
        · rw [List.mem_singleton.mp hr]

theorem merged_foldl (hjoin : Joins lo hi join) (h : Merged lo hi merged)
    (hsorted : spans.Pairwise fun r p => lo r ≤ lo p)
    (hlater : ∀ r ∈ merged, ∀ p ∈ spans, lo r ≤ lo p) :
    Merged lo hi (spans.foldl (pushSpan lo hi join) merged) := by
  induction spans generalizing merged with
  | nil => exact h
  | cons span spans ih =>
    obtain ⟨hpushed, hstarts⟩ := h.push hjoin fun r hr => hlater r hr span List.mem_cons_self
    apply ih hpushed hsorted.of_cons
    exact fun r hr p hp => (hstarts r hr).trans (List.rel_of_pairwise_cons hsorted hp)

/-- Merging what has been merged changes nothing. -/
theorem Merged.foldl_eq (h : Merged lo hi spans) : spans.foldl (pushSpan lo hi join) [] = spans :=
  foldl_pushSpan_of_gaps h.gaps

end Gaps

section Points

/-- Merged spans that are not empty are separated. -/
theorem Merged.separated (h : Merged lo hi merged) (hnonempty : ∀ r ∈ merged, lo r < hi r) :
    Separated lo hi merged := by
  refine ⟨hnonempty, ?_⟩
  have hgaps := h.gaps
  clear h
  induction merged with
  | nil => exact .nil
  | cons r rs ih =>
    have hrest := ih (fun p hp => hnonempty p (List.mem_cons_of_mem r hp)) hgaps.tail
    refine List.pairwise_cons.mpr ⟨fun p hp => ?_, hrest⟩
    cases rs with
    | nil => cases hp
    | cons q qs =>
      have hfirst := hgaps.rel
      rcases List.mem_cons.mp hp with rfl | hp
      · exact hfirst
      · calc
          hi r < lo q := hfirst
          _ < hi q := hnonempty q (List.mem_cons_of_mem r List.mem_cons_self)
          _ < lo p := List.rel_of_pairwise_cons hrest hp

theorem mem_covered_singleton {r : ρ} {t : τ} : t ∈ covered lo hi [r] ↔ lo r ≤ t ∧ t < hi r := by
  simp [mem_covered]

/-- Merging a span in adds the points of that span. -/
theorem covered_pushSpan (hjoin : Joins lo hi join) (hnonempty : ∀ r ∈ merged, lo r < hi r)
    (hspan : lo span < hi span) (hlater : ∀ r ∈ merged, lo r ≤ lo span) :
    (∀ r ∈ pushSpan lo hi join merged span, lo r < hi r) ∧
      covered lo hi (pushSpan lo hi join merged span) =
        covered lo hi merged ∪ covered lo hi [span] := by
  rcases List.eq_nil_or_concat' merged with rfl | ⟨init, last, rfl⟩
  · rw [pushSpan_nil]
    refine ⟨fun r hr => ?_, by simp⟩
    rwa [List.mem_singleton.mp hr]
  · have hstart := hlater last (List.mem_append_right init (List.mem_singleton_self last))
    have hlast := hnonempty last (List.mem_append_right init (List.mem_singleton_self last))
    rw [pushSpan_concat]
    split_ifs with htouch hlonger
    · refine ⟨fun r hr => ?_, ?_⟩
      · rcases List.mem_append.mp hr with hr | hr
        · exact hnonempty r (List.mem_append_left _ hr)
        · rw [List.mem_singleton.mp hr, hjoin.lo, hjoin.hi]
          exact hlast.trans hlonger
      · rw [covered_append, covered_append, Set.union_assoc]
        congr 1
        ext t
        rw [Set.mem_union, mem_covered_singleton, mem_covered_singleton, mem_covered_singleton,
          hjoin.lo, hjoin.hi]
        constructor
        · intro ⟨hfrom, huntil⟩
          rcases lt_or_ge t (hi last) with hin | hout
          · exact .inl ⟨hfrom, hin⟩
          · exact .inr ⟨htouch.trans hout, huntil⟩
        · intro hin
          rcases hin with ⟨hfrom, huntil⟩ | ⟨hfrom, huntil⟩
          · exact ⟨hfrom, huntil.trans hlonger⟩
          · exact ⟨hstart.trans hfrom, huntil⟩
    · refine ⟨hnonempty, ?_⟩
      rw [covered_append, Set.union_assoc]
      congr 1
      ext t
      rw [Set.mem_union, mem_covered_singleton, mem_covered_singleton]
      constructor
      · exact fun hin => .inl hin
      · intro hin
        rcases hin with hin | ⟨hfrom, huntil⟩
        · exact hin
        · exact ⟨hstart.trans hfrom, huntil.trans_le (not_lt.mp hlonger)⟩
    · refine ⟨fun r hr => ?_, covered_append _ _⟩
      rcases List.mem_append.mp hr with hr | hr
      · exact hnonempty r hr
      · rwa [List.mem_singleton.mp hr]

theorem covered_foldl_pushSpan (hjoin : Joins lo hi join) (h : Merged lo hi merged)
    (hnonempty : ∀ r ∈ merged, lo r < hi r) (hspans : ∀ r ∈ spans, lo r < hi r)
    (hsorted : spans.Pairwise fun r p => lo r ≤ lo p)
    (hlater : ∀ r ∈ merged, ∀ p ∈ spans, lo r ≤ lo p) :
    (∀ r ∈ spans.foldl (pushSpan lo hi join) merged, lo r < hi r) ∧
      covered lo hi (spans.foldl (pushSpan lo hi join) merged) =
        covered lo hi merged ∪ covered lo hi spans := by
  induction spans generalizing merged with
  | nil => exact ⟨hnonempty, by simp⟩
  | cons span spans ih =>
    have hfirst : ∀ r ∈ merged, lo r ≤ lo span := fun r hr => hlater r hr span List.mem_cons_self
    obtain ⟨hpushed, hstarts⟩ := h.push hjoin hfirst
    obtain ⟨hpushedNonempty, hpoints⟩ :=
      covered_pushSpan hjoin hnonempty (hspans span List.mem_cons_self) hfirst
    obtain ⟨hfolded, hall⟩ := ih hpushed hpushedNonempty
      (fun r hr => hspans r (List.mem_cons_of_mem span hr)) hsorted.of_cons
      fun r hr p hp => (hstarts r hr).trans (List.rel_of_pairwise_cons hsorted hp)
    refine ⟨hfolded, ?_⟩
    rw [List.foldl_cons, hall, hpoints, Set.union_assoc, ← covered_append, List.singleton_append]

theorem merged_nil : Merged lo hi ([] : List ρ) := ⟨.nil, .nil⟩

/-- Spans in the order of their starts, merged, are separated and cover what they covered before. -/
theorem coalesce_spec (hjoin : Joins lo hi join) (hspans : ∀ r ∈ spans, lo r < hi r)
    (hsorted : spans.Pairwise fun r p => lo r ≤ lo p) :
    Separated lo hi (spans.foldl (pushSpan lo hi join) []) ∧
      covered lo hi (spans.foldl (pushSpan lo hi join) []) = covered lo hi spans := by
  have hnone : ∀ r ∈ ([] : List ρ), ∀ p ∈ spans, lo r ≤ lo p :=
    fun r hr => absurd hr List.not_mem_nil
  obtain ⟨hnonempty, hpoints⟩ := covered_foldl_pushSpan hjoin merged_nil
    (fun r hr => absurd hr List.not_mem_nil) hspans hsorted hnone
  refine ⟨(merged_foldl hjoin merged_nil hsorted hnone).separated hnonempty, ?_⟩
  rw [hpoints, covered_nil, Set.empty_union]

end Points

end Coalescing

end ChainVerse
