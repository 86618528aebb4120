import FrontendAssets.Path.Basic
import FrontendAssets.Proofs.Text.Segments

/-!
# `FrontendAssets.Proofs.Path.Collapse`: what normalizing does to the segments of a path

`collapse` is the fold that `Path.normalize` makes over the segments. Collapsed segments are double
dots followed by plain names, and under a root there are no double dots (`isNormal_collapse`).
Segments of that shape stay as they are (`collapse_of_isNormal`), and plain names behind other
segments are kept (`collapse_append_plain`). Under a root a double dot behind other segments takes
back the last of their names (`collapse_concat_up`). Nothing is added or moved (`collapse_sublist`).
-/

set_option autoImplicit false

namespace FrontendAssets.Path

open Text (splitOn join)

/-- A segment that leads from a directory to something in it. Everything but the empty segment, the
single dot and the double dot is of this kind, three dots included. -/
def IsPlain (segment : Text) : Prop := isIdle segment = false ∧ segment ≠ up

/-- The segments that are left when idle ones are dropped and double dots take back the segment
before them. `Path.normalize` writes these behind the root. -/
def collapse (root : Root) (segments : List Text) : List Text :=
  (segments.foldl (follow root) []).reverse

variable {root : Root} {segment : Text} {segments names behind : List Text}

/-! ### One segment -/

/-- The three segments that are not plain, one by one. -/
theorem isPlain_iff : IsPlain segment ↔ segment ≠ [] ∧ segment ≠ ['.'] ∧ segment ≠ up := by
  unfold IsPlain isIdle
  rw [Bool.or_eq_false_iff, beq_eq_false_iff_ne, beq_eq_false_iff_ne, and_assoc]

/-- The two idle segments, one by one. -/
theorem isIdle_iff : isIdle segment = true ↔ segment = [] ∨ segment = ['.'] := by
  simp [isIdle]

/-- A double dot leads somewhere, so it is not dropped with the idle segments. -/
theorem isIdle_up : isIdle up = false := by decide

/-- An idle segment leaves the stack as it is. -/
theorem follow_of_isIdle (h : isIdle segment = true) (root : Root) (behind : List Text) :
    follow root behind segment = behind := by
  unfold follow
  rw [if_pos h]

/-- A plain name goes on top of the stack, whatever the root is and whatever stands there. -/
theorem follow_of_isPlain (h : IsPlain segment) (root : Root) (behind : List Text) :
    follow root behind segment = segment :: behind := by
  unfold follow
  rw [if_neg (by simp [h.1]), if_pos h.2]

/-- A double dot behind a plain name takes the name back. -/
theorem follow_up_of_isPlain {last : Text} (h : IsPlain last) (root : Root) (before : List Text) :
    follow root (last :: before) up = before := by
  rw [follow, if_neg (by simp [isIdle_up]), if_neg (by simp)]
  exact if_neg h.2

/-- A double dot at the top of a rooted path does nothing. -/
theorem follow_up_nil (h : root ≠ .relative) : follow root [] up = [] := by
  rw [follow, if_neg (by simp [isIdle_up]), if_neg (by simp)]
  exact if_neg h

/-- A double dot with nothing but double dots before it stays. Only relative paths have such a
stack. -/
theorem follow_up_replicate (climbs : Nat) :
    follow .relative (List.replicate climbs up) up = List.replicate (climbs + 1) up := by
  unfold follow
  rw [if_neg (by simp [isIdle_up]), if_neg (by simp)]
  cases climbs with
  | zero => rfl
  | succ climbs => rfl

/-! ### Many segments -/

/-- Dropping the idle segments first makes no difference to the fold. -/
theorem foldl_follow_filter (root : Root) (segments behind : List Text) :
    (segments.filter fun s => !isIdle s).foldl (follow root) behind
      = segments.foldl (follow root) behind := by
  induction segments generalizing behind with
  | nil => rfl
  | cons s rest ih =>
      by_cases hs : isIdle s = true
      · rw [List.filter_cons_of_neg (by simp [hs]), List.foldl_cons, follow_of_isIdle hs, ih]
      · rw [List.filter_cons_of_pos (by simp [hs]), List.foldl_cons, List.foldl_cons, ih]

/-- The same for collapsed segments. It is how the segments of a written path, idle ones and all,
are compared with those of a path that was read. -/
theorem collapse_filter (root : Root) (segments : List Text) :
    collapse root (segments.filter fun s => !isIdle s) = collapse root segments := by
  rw [collapse, foldl_follow_filter, collapse]

/-- The empty segment in front of a rooted path is one that may be left out. -/
theorem collapse_cons_of_isIdle (h : isIdle segment = true) (root : Root) (segments : List Text) :
    collapse root (segment :: segments) = collapse root segments := by
  rw [collapse, List.foldl_cons, follow_of_isIdle h, collapse]

/-- Plain names are kept in order. On the stack their order is reversed. -/
theorem foldl_follow_plain (h : ∀ n ∈ names, IsPlain n) (root : Root) (behind : List Text) :
    names.foldl (follow root) behind = names.reverse ++ behind := by
  induction names generalizing behind with
  | nil => rfl
  | cons n rest ih =>
      have hrest : ∀ m ∈ rest, IsPlain m := fun m hm => h m (List.mem_cons_of_mem _ hm)
      rw [List.foldl_cons, follow_of_isPlain (h n (List.mem_cons_self ..)), ih hrest]
      simp

/-- Plain names behind other segments are kept behind whatever those come to. -/
theorem collapse_append_plain (h : ∀ n ∈ names, IsPlain n) (root : Root) (segments : List Text) :
    collapse root (segments ++ names) = collapse root segments ++ names := by
  rw [collapse, List.foldl_append, foldl_follow_plain h, List.reverse_append, List.reverse_reverse,
    collapse]

/-- Double dots at the start of a relative path stay, all of them. -/
theorem foldl_follow_replicate_up (climbs : Nat) :
    (List.replicate climbs up).foldl (follow .relative) [] = List.replicate climbs up := by
  induction climbs with
  | zero => rfl
  | succ climbs ih =>
      rw [List.replicate_succ', List.foldl_append, ih, List.foldl_cons, List.foldl_nil,
        follow_up_replicate, List.replicate_succ']

/-- One more segment at the end is one more step on the stack. Inductions that go from the front to
the end of a path use it. -/
theorem collapse_concat (root : Root) (segments : List Text) (segment : Text) :
    collapse root (segments ++ [segment])
      = (follow root (collapse root segments).reverse segment).reverse := by
  rw [collapse, List.foldl_append, List.foldl_cons, List.foldl_nil, collapse, List.reverse_reverse]

/-- What stands behind does not matter to what is left of the segments before it. -/
theorem collapse_append_congr {other : List Text} (h : collapse root segments = collapse root other)
    (behind : List Text) :
    collapse root (segments ++ behind) = collapse root (other ++ behind) := by
  have hstack : segments.foldl (follow root) [] = other.foldl (follow root) [] :=
    List.reverse_inj.mp h
  rw [collapse, List.foldl_append, hstack, ← List.foldl_append, collapse]

/-- An idle segment at the end, such as a slash there leaves, changes nothing. -/
theorem collapse_concat_of_isIdle (h : isIdle segment = true) (root : Root)
    (segments : List Text) : collapse root (segments ++ [segment]) = collapse root segments := by
  rw [collapse_concat, follow_of_isIdle h, List.reverse_reverse]

/-! ### The shape of a normal form -/

/-- Some double dots, none of them under a root, and then plain names. This is the shape that the
fold keeps, and it determines the fold (`collapse_of_isNormal`). -/
def IsNormal (root : Root) (segments : List Text) : Prop :=
  ∃ (climbs : Nat) (names : List Text), segments = List.replicate climbs up ++ names
    ∧ (∀ n ∈ names, IsPlain n) ∧ (root ≠ .relative → climbs = 0)

/-- No segments at all are in normal form, under any root. -/
theorem isNormal_nil (root : Root) : IsNormal root [] :=
  ⟨0, [], rfl, by simp, fun _ => rfl⟩

/-- One more segment keeps the shape. The stack of `follow` is the list in reverse order. Only a
double dot takes an argument: what it does depends on what is on top, which the shape tells. -/
theorem isNormal_follow (h : IsNormal root behind.reverse) (segment : Text) :
    IsNormal root (follow root behind segment).reverse := by
  obtain ⟨climbs, names, hshape, hplain, hroot⟩ := h
  by_cases hidle : isIdle segment = true
  · rw [follow_of_isIdle hidle]
    exact ⟨climbs, names, hshape, hplain, hroot⟩
  by_cases hup : segment = up
  · subst hup
    -- On top of the stack is the last plain name, or a double dot if there are no names.
    have hbehind : behind = names.reverse ++ List.replicate climbs up := by
      rw [← List.reverse_reverse behind, hshape, List.reverse_append, List.reverse_replicate]
    cases hr : names.reverse with
    | nil =>
        rw [hr, List.nil_append] at hbehind
        subst hbehind
        by_cases hrel : root = .relative
        · subst hrel
          rw [follow_up_replicate, List.reverse_replicate]
          exact ⟨climbs + 1, [], by simp, by simp, fun hne => absurd rfl hne⟩
        · -- Under a root there are no double dots, so the stack is empty.
          rw [hroot hrel, List.replicate_zero, follow_up_nil hrel]
          exact isNormal_nil root
    | cons last before =>
        have hnames : names = before.reverse ++ [last] := by
          rw [← List.reverse_reverse names, hr, List.reverse_cons]
        rw [hr, List.cons_append] at hbehind
        rw [hbehind, follow_up_of_isPlain (hplain last (by simp [hnames])), List.reverse_append,
          List.reverse_replicate]
        exact ⟨climbs, before.reverse, rfl, fun n hn => hplain n (by simp [hnames, hn]), hroot⟩
  · have hseg : IsPlain segment := ⟨by simpa using hidle, hup⟩
    rw [follow_of_isPlain hseg, List.reverse_cons, hshape, List.append_assoc]
    refine ⟨climbs, names ++ [segment], rfl, ?_, hroot⟩
    intro n hn
    rcases List.mem_append.mp hn with hn | hn
    · exact hplain n hn
    · exact List.mem_singleton.mp hn ▸ hseg

/-- Any number of segments keeps the shape, by induction on them. -/
theorem isNormal_foldl_follow (segments : List Text) (h : IsNormal root behind.reverse) :
    IsNormal root (segments.foldl (follow root) behind).reverse := by
  induction segments generalizing behind with
  | nil => exact h
  | cons s rest ih => exact ih (isNormal_follow h s)

/-- Collapsed segments are double dots followed by plain names; under a root, plain names only. -/
theorem isNormal_collapse (root : Root) (segments : List Text) :
    IsNormal root (collapse root segments) :=
  isNormal_foldl_follow segments (by simpa using isNormal_nil root)

/-- Collapsing leaves a normal form alone, so normalizing twice is normalizing once. -/
theorem collapse_of_isNormal (h : IsNormal root segments) : collapse root segments = segments := by
  obtain ⟨climbs, names, rfl, hplain, hroot⟩ := h
  rw [collapse_append_plain hplain]
  congr 1
  by_cases hrel : root = .relative
  · subst hrel
    rw [collapse, foldl_follow_replicate_up, List.reverse_replicate]
  · rw [hroot hrel]
    rfl

/-- Plain names are their own normal form. -/
theorem collapse_of_plain (h : ∀ n ∈ names, IsPlain n) (root : Root) :
    collapse root names = names :=
  collapse_of_isNormal ⟨0, names, rfl, h, fun _ => rfl⟩

/-- Behind something other than a double dot there are only plain names. -/
theorem IsNormal.isPlain_of_mem {front back : List Text} (h : IsNormal root (front ++ back))
    (hhead : back.head? ≠ some up) (hs : segment ∈ back) : IsPlain segment := by
  obtain ⟨climbs, names, hshape, hplain, -⟩ := h
  -- `back` begins among the double dots or among the names.
  rcases List.append_eq_append_iff.mp hshape with ⟨between, hups, hback⟩ | ⟨between, -, hnames⟩
  · cases between with
    | nil => exact hplain segment (by simpa [hback] using hs)
    | cons first more =>
        have hfirst : first = up := List.eq_of_mem_replicate (n := climbs) (by simp [hups])
        exact absurd (by simp [hback, hfirst]) hhead
  · exact hplain segment (by simp [hnames, hs])

/-- Before a double dot there are only double dots, and the path is relative. What stands behind it
begins with double dots as well, if it has any. -/
theorem IsNormal.eq_of_append_up {front back : List Text}
    (h : IsNormal root (front ++ up :: back)) :
    root = .relative ∧ front = List.replicate front.length up
      ∧ ∃ (climbs : Nat) (names : List Text), back = List.replicate climbs up ++ names
        ∧ ∀ n ∈ names, IsPlain n := by
  obtain ⟨climbs, names, hshape, hplain, hroot⟩ := h
  -- A double dot is no name, so the one behind `front` is among the double dots in front.
  rcases List.append_eq_append_iff.mp hshape with ⟨between, hups, hback⟩ | ⟨between, -, hnames⟩
  · cases between with
    | nil =>
        -- The double dot would be the first of the names.
        exact absurd rfl (hplain up (by simp [← (show up :: back = names from hback)])).2
    | cons first more =>
        have hback : back = more ++ names := (List.cons.inj hback).2
        have hall : ∀ s ∈ front ++ first :: more, s = up := fun s hs =>
          List.eq_of_mem_replicate (hups ▸ hs)
        refine ⟨?_, ?_, more.length, names, ?_, hplain⟩
        · apply Decidable.byContradiction
          intro hrel
          rw [hroot hrel] at hups
          simp at hups
        · exact List.eq_replicate_of_mem fun s hs => hall s (by simp [hs])
        · rw [hback, ← List.eq_replicate_of_mem fun s hs => hall s (by simp [hs])]
  · exact absurd rfl (hplain up (by simp [hnames])).2

/-- Under a root every collapsed segment is a plain name. -/
theorem isPlain_of_mem_collapse (hroot : root ≠ .relative) (h : segment ∈ collapse root segments) :
    IsPlain segment := by
  obtain ⟨climbs, names, hshape, hplain, hzero⟩ := isNormal_collapse root segments
  rw [hshape, hzero hroot] at h
  exact hplain segment (by simpa using h)

/-- Under a root a double dot takes back the last name, if there is one. -/
theorem collapse_concat_up (hroot : root ≠ .relative) (segments : List Text) :
    collapse root (segments ++ [up]) = (collapse root segments).dropLast := by
  rw [collapse_concat]
  rcases List.eq_nil_or_concat (collapse root segments) with hnil | ⟨names, last, hconcat⟩
  · rw [hnil, List.reverse_nil, follow_up_nil hroot]
    rfl
  · rw [List.concat_eq_append] at hconcat
    have hmem : last ∈ collapse root segments := by simp [hconcat]
    have hlast : IsPlain last := isPlain_of_mem_collapse hroot hmem
    rw [hconcat, List.reverse_append, List.reverse_singleton, List.singleton_append,
      follow_up_of_isPlain hlast, List.reverse_reverse, List.dropLast_concat]

/-- No collapsed segment is idle: idle ones lead nowhere and are left out. -/
theorem isIdle_of_mem_collapse (h : segment ∈ collapse root segments) : isIdle segment = false := by
  obtain ⟨climbs, names, hshape, hplain, -⟩ := isNormal_collapse root segments
  rw [hshape, List.mem_append] at h
  rcases h with h | h
  · rw [List.eq_of_mem_replicate h]
    exact isIdle_up
  · exact (hplain segment h).1

/-- One segment is put on the stack at most, and the others stay in their order or go. -/
theorem follow_sublist (root : Root) (behind : List Text) (segment : Text) :
    (follow root behind segment).Sublist (segment :: behind) := by
  by_cases hidle : isIdle segment = true
  · rw [follow_of_isIdle hidle]
    exact List.sublist_cons_self _ _
  · by_cases hup : segment = up
    · subst hup
      unfold follow
      rw [if_neg hidle, if_neg (by simp)]
      -- A double dot takes a name back, or is kept where there is none to take.
      cases behind with
      | nil =>
          by_cases hrel : root = .relative <;> simp [hrel]
      | cons last before =>
          by_cases hlast : last = up
          · simp [hlast]
          · simp only [hlast, ↓reduceIte]
            exact (List.sublist_cons_self _ _).trans (List.sublist_cons_self _ _)
    · have hplain : IsPlain segment := ⟨by simpa using hidle, hup⟩
      simp only [follow_of_isPlain hplain, List.Sublist.refl]

/-- The same for the whole fold, whose stack is in reverse order. -/
theorem foldl_follow_sublist (root : Root) (segments behind : List Text) :
    (segments.foldl (follow root) behind).Sublist (segments.reverse ++ behind) := by
  induction segments generalizing behind with
  | nil => exact List.Sublist.refl _
  | cons s rest ih =>
      rw [List.foldl_cons, List.reverse_cons, List.append_assoc]
      exact (ih (follow root behind s)).trans ((follow_sublist root behind s).append_left _)

/-- Collapsing leaves some of the segments, in their order. -/
theorem collapse_sublist (root : Root) (segments : List Text) :
    (collapse root segments).Sublist segments := by
  have hsub := foldl_follow_sublist root segments []
  rw [List.append_nil] at hsub
  simpa [collapse] using hsub.reverse

/-- Collapsing makes up no segments. -/
theorem mem_of_mem_collapse (h : segment ∈ collapse root segments) : segment ∈ segments :=
  (collapse_sublist root segments).mem h

end FrontendAssets.Path
