import FrontendAssets.Text.Basic

/-!
# `FrontendAssets.Text.Ranges`: character properties as lists of ranges

A property of characters is an ascending list of closed ranges of code points. The search stops at
the first range that begins beyond the code point, so the low code points cost little.

A list out of order would lose characters to the early stop without any sign of it, so each table
comes with a proof that it ascends. `inRanges_iff` then says that the search finds exactly the code
points that lie in one of the ranges, and the properties that are built on a table are stated
through it, with no search in them.
-/

set_option autoImplicit false

namespace FrontendAssets.Text

/-- Whether a code point lies in one of the ranges, which ascend. -/
def inRanges (n : Nat) : List (Nat × Nat) → Bool
  | [] => false
  | (first, last) :: ranges =>
    if n < first then false
    else if n ≤ last then true
    else inRanges n ranges

/-- Ranges ascend from a code point on if none of them is empty, the first one begins there or
later, and each other one begins beyond the end of the one before it. -/
def AscendsFrom (low : Nat) : List (Nat × Nat) → Prop
  | [] => True
  | (first, last) :: ranges => low ≤ first ∧ first ≤ last ∧ AscendsFrom (last + 1) ranges

/-- The check goes through the list once, so that a whole table can be decided. -/
instance decidableAscendsFrom :
    (low : Nat) → (ranges : List (Nat × Nat)) → Decidable (AscendsFrom low ranges)
  | _, [] => .isTrue trivial
  | low, (first, last) :: ranges =>
    have := decidableAscendsFrom (last + 1) ranges
    inferInstanceAs (Decidable (low ≤ first ∧ first ≤ last ∧ AscendsFrom (last + 1) ranges))

/-- No range of an ascending list begins before the point from which the list ascends. This is what
entitles the search to stop. -/
theorem AscendsFrom.le_first {low : Nat} {ranges : List (Nat × Nat)} (h : AscendsFrom low ranges) :
    ∀ r ∈ ranges, low ≤ r.1 := by
  induction ranges generalizing low with
  | nil => exact fun r hr => absurd hr List.not_mem_nil
  | cons r ranges ih =>
      obtain ⟨first, last⟩ := r
      obtain ⟨hlow, hrange, hrest⟩ := h
      intro s hs
      rcases List.mem_cons.mp hs with rfl | hs
      · exact hlow
      · have hbeyond := ih hrest s hs
        omega

/-- In an ascending list the search finds exactly the members of the ranges. -/
theorem inRanges_iff {low n : Nat} {ranges : List (Nat × Nat)} (h : AscendsFrom low ranges) :
    inRanges n ranges = true ↔ ∃ r ∈ ranges, r.1 ≤ n ∧ n ≤ r.2 := by
  induction ranges generalizing low with
  | nil => simp [inRanges]
  | cons r ranges ih =>
      obtain ⟨first, last⟩ := r
      obtain ⟨-, hrange, hrest⟩ := h
      simp only [List.mem_cons, exists_eq_or_imp, inRanges]
      split
      · -- The search stops, and it may: all that follows begins beyond this range.
        rename_i hbefore
        refine iff_of_false Bool.false_ne_true ?_
        rintro (⟨hfirst, -⟩ | ⟨s, hs, hfirst, -⟩)
        · omega
        · have hbeyond := hrest.le_first s hs
          omega
      · split
        · rename_i hfirst hlast
          exact iff_of_true rfl (Or.inl ⟨Nat.le_of_not_lt hfirst, hlast⟩)
        · rename_i hfirst hlast
          rw [ih hrest]
          exact (or_iff_right fun hhere => hlast hhere.2).symm

end FrontendAssets.Text
