import FrontendAssets.Proofs.Request.CleanNames
import FrontendAssets.Proofs.Url.LastSegment

/-!
# `FrontendAssets.Proofs.Url.Lengths`: no stage makes a path longer

A clean path has no more characters than what stands behind the scheme of its target
(`length_cleanPath_le`). Each stage on the way has a bound of its own. Decoding takes at least one
character for each that it gives, since a character that bytes owe is counted before it comes
(`length_decodeFrom_le`). Resolving may put the slash of the root in front, which removing dot
segments takes off again, so the bound is on what stands behind that slash
(`exists_fromRoot_resolvePath_length_le`).
-/

set_option autoImplicit false

namespace FrontendAssets

open Text (cut join splitOn)

/-! ### Decoding -/

namespace Utf8

variable {owed : Owed}

/-- A byte where a character begins gives one character, now or later. It is counted as owed as long
as it is not there. -/
theorem length_begin_le (b : UInt8) :
    (begin b).1.length + (begin b).2.broken.length ≤ 1 := by
  -- What a byte begins depends on its range only, and the bound is the same in each.
  unfold begin
  simp only []
  repeat' split
  all_goals exact Nat.le_refl 1

/-- One item gives at most one character more than was owed. -/
theorem length_step_le (owed : Owed) (item : Item) :
    (step owed item).1.length + (step owed item).2.broken.length ≤ owed.broken.length + 1 := by
  cases item with
  | char c => simp [step, Owed.broken]
  | byte b =>
      cases owed with
      | nothing => exact Nat.le_add_left_of_le (length_begin_le b)
      | more value low high further =>
          have hbegin := length_begin_le b
          unfold step
          simp only []
          split
          · cases further <;> simp [Owed.broken]
          · -- The beginning is broken off, and the byte begins afresh.
            show (replacement :: (begin b).1).length + (begin b).2.broken.length ≤ 1 + 1
            rw [List.length_cons]
            omega

/-- So a row of items gives at most one character for each, and what was owed before it. -/
theorem length_decodeFrom_le (owed : Owed) (items : List Item) :
    (decodeFrom owed items).length ≤ owed.broken.length + items.length := by
  induction items generalizing owed with
  | nil => exact Nat.le_refl _
  | cons item items ih =>
      have hstep := length_step_le owed item
      have hrest := ih (step owed item).2
      rw [decodeFrom, List.length_append, List.length_cons]
      omega

end Utf8

namespace Percent

/-- Three characters or one are read as one item, so there are no more items than characters. -/
theorem length_items_le (t : Text) : (items t).length ≤ t.length := by
  fun_induction items t with
  | case1 => exact Nat.le_refl _
  | case2 high low rest b hb ih =>
      simp only [List.length_cons]
      omega
  | case3 high low rest hb ih => exact Nat.succ_le_succ ih
  | case4 c rest hshort ih => exact Nat.succ_le_succ ih

/-- Decoding makes no text longer. -/
theorem length_decode_le (t : Text) : (decode t).length ≤ t.length := by
  -- Nothing is owed before the first item.
  have hdecode := Utf8.length_decodeFrom_le .nothing (items t)
  have hitems := length_items_le t
  simp only [Utf8.Owed.broken, List.length_nil] at hdecode
  show (Utf8.decodeFrom .nothing (items t)).length ≤ _
  omega

/-- A slash in front is read apart from what stands behind it. -/
theorem decode_cons_slash (t : Text) : decode ('/' :: t) = '/' :: decode t :=
  decode_append_slash [] t

end Percent

namespace Reference

variable {t path : Text} {p : Reference} {segments : List Text}

/-! ### Resolving -/

/-- Resolving keeps some of the segments in order. The list is reversed on both sides, as segments
are put in front while resolving. -/
theorem foldl_resolveSegment_sublist (segments resolved : List Text) :
    (segments.foldl resolveSegment resolved).Sublist (segments.reverse ++ resolved) := by
  induction segments generalizing resolved with
  | nil => exact List.Sublist.refl _
  | cons s rest ih =>
      have hstep : (resolveSegment resolved s).Sublist (s :: resolved) := by
        unfold resolveSegment
        split
        · exact (List.drop_sublist 1 resolved).trans (List.sublist_cons_self s resolved)
        · split
          · exact List.sublist_cons_self s resolved
          · exact List.Sublist.refl _
      rw [List.foldl_cons, List.reverse_cons, List.append_assoc, List.singleton_append]
      exact (ih _).trans (hstep.append_left _)

/-- Under the root stand the segments of a path, the empty ones in front perhaps left out. They are
given as a front and a last one here, since the last one is never left out. -/
theorem exists_segmentsAtRoot_cons (path : Text) :
    ∃ front last, segmentsAtRoot path = [] :: front ++ [last]
      ∧ (join '/' (front ++ [last])).length ≤ path.length := by
  obtain ⟨before, hsplit⟩ := Text.exists_splitOn_eq_concat '/' path
  have hpath : join '/' (before ++ [Text.afterLast '/' path]) = path := by
    rw [← hsplit, Text.join_splitOn]
  unfold segmentsAtRoot
  split
  · -- The slash in front of the path is that of the root.
    rename_i hhead
    obtain ⟨rest, rfl⟩ := List.head?_eq_some_iff.mp hhead
    obtain ⟨front, hfront⟩ := Text.exists_splitOn_eq_concat '/' rest
    refine ⟨front, Text.afterLast '/' rest, ?_, ?_⟩
    · show splitOn '/' ('/' :: rest) = _
      rw [Text.splitOn_cons_self, hfront, List.cons_append]
    · rw [← hfront, Text.join_splitOn, List.length_cons]
      exact Nat.le_succ _
  · refine ⟨before.filter fun s => !s.isEmpty, Text.afterLast '/' path, ?_, ?_⟩
    · simp [hsplit]
    · have hsub : (before.filter fun s => !s.isEmpty).Sublist before := List.filter_sublist
      calc (join '/' ((before.filter fun s => !s.isEmpty) ++ [Text.afterLast '/' path])).length
        _ ≤ (join '/' (before ++ [Text.afterLast '/' path])).length :=
            Text.length_join_le (hsub.append_right _)
        _ = path.length := by rw [hpath]

/-- What resolving leaves of the segments: some of them, and a last one that is no longer than it
was. -/
theorem exists_resolvePath_eq {front : List Text} {last : Text}
    (h : segmentsAtRoot path = front ++ [last]) :
    ∃ kept final, kept.Sublist front ∧ final.length ≤ last.length
      ∧ resolvePath path = join '/' (kept ++ [final]) := by
  have hsub : (front.foldl resolveSegment []).reverse.Sublist front := by
    have hfold := (foldl_resolveSegment_sublist front []).reverse
    rwa [List.append_nil, List.reverse_reverse] at hfold
  unfold resolvePath
  simp only [h, List.foldl_append, List.foldl_cons, List.foldl_nil, List.getLast?_concat,
    Option.some.injEq]
  generalize front.foldl resolveSegment [] = resolved at hsub
  unfold resolveSegment
  by_cases hup : last = ['.', '.']
  · -- The segment before a double dot is taken back.
    refine ⟨(resolved.drop 1).reverse, [], ?_, Nat.zero_le _, ?_⟩
    · exact (List.drop_sublist 1 resolved).reverse.trans hsub
    · simp [hup]
  · by_cases hdot : last = ['.']
    · exact ⟨resolved.reverse, [], hsub, Nat.zero_le _, by simp [hdot]⟩
    · exact ⟨resolved.reverse, last, hsub, Nat.le_refl _, by simp [hup, hdot]⟩

/-- A text behind the root is a slash and no more than the text. -/
theorem exists_fromRoot_eq (t : Text) :
    ∃ rest, fromRoot t = '/' :: rest ∧ rest.length ≤ t.length := by
  unfold fromRoot
  split
  · rename_i hhead
    obtain ⟨rest, rfl⟩ := List.head?_eq_some_iff.mp hhead
    exact ⟨rest, rfl, Nat.le_succ _⟩
  · exact ⟨t, rfl, Nat.le_refl _⟩

/-- Behind the slash of the root a resolved path is no longer than it was. The slash is set apart
because it may be new: a relative path has none. -/
theorem exists_fromRoot_resolvePath_length_le (path : Text) :
    ∃ rest, fromRoot (resolvePath path) = '/' :: rest ∧ rest.length ≤ path.length := by
  obtain ⟨front, last, hsegments, hlength⟩ := exists_segmentsAtRoot_cons path
  obtain ⟨kept, final, hkept, hfinal, hresolved⟩ := exists_resolvePath_eq hsegments
  -- Segments from the front, and the final one instead of the last one, are no longer than these.
  have hbound : ∀ some : List Text, some.Sublist front →
      (join '/' (some ++ [final])).length ≤ path.length := by
    intro some hsome
    have hle : (join '/' (some ++ [last])).length ≤ (join '/' (front ++ [last])).length :=
      Text.length_join_le (hsome.append_right [last])
    rw [length_join_concat] at hle ⊢
    omega
  rw [hresolved]
  cases hkept with
  | cons _ hsub =>
      -- A double dot has taken the root itself back.
      obtain ⟨rest, hrest, hle⟩ := exists_fromRoot_eq (join '/' (kept ++ [final]))
      exact ⟨rest, hrest, Nat.le_trans hle (hbound kept hsub)⟩
  | @cons_cons kept _ _ hsub =>
      refine ⟨join '/' (kept ++ [final]), ?_, hbound kept hsub⟩
      rw [List.cons_append, fromRoot_join (by simp)]

/-! ### Parameters -/

/-- Putting parameters back behind what is left of a path gives no more than the path had, as the
semicolon comes back only where one was taken off. -/
theorem length_withParameters_cutParameters_le (h : t.length ≤ (cutParameters path).1.length) :
    (withParameters t (cutParameters path).2).length ≤ path.length := by
  have hwhole := congrArg List.length (Text.through_append_after '/' path)
  rw [List.length_append] at hwhole
  unfold cutParameters at h ⊢
  generalize Text.afterLast '/' path = last at *
  -- The semicolon is put back where there was one, and counts for as much as it did.
  by_cases hsemicolon : ';' ∈ last
  · obtain ⟨segment, parameters, rfl, hsegment⟩ := List.eq_append_cons_of_mem hsemicolon
    rw [Text.cut_append_cons hsegment] at h ⊢
    have hbound := length_withParameters_le t parameters
    simp only [List.length_append, List.length_cons, Option.getD_some] at *
    omega
  · rw [Text.cut_of_not_mem hsemicolon] at h ⊢
    simp only [List.length_append, Option.getD_none, withParameters, ↓reduceIte] at *
    omega

/-- The path at the root of a site is no longer than it was, the slash of the root aside. Another
scheme or another site keeps the path, so there is no such slash to set aside there. -/
theorem length_pathAtOrigin_le (p : Reference) :
    p.pathAtOrigin.length ≤ p.path.length
      ∨ ∃ rest, p.pathAtOrigin = '/' :: rest ∧ rest.length ≤ p.path.length := by
  have hwith : ∀ t : Text, t.length ≤ (cutParameters p.path).1.length →
      (withParameters t (cutParameters p.path).2).length ≤ p.path.length :=
    fun _ ht => length_withParameters_cutParameters_le ht
  unfold pathAtOrigin
  generalize cutParameters p.path = parted at hwith ⊢
  obtain ⟨path, parameters⟩ := parted
  dsimp only at hwith ⊢
  -- The four ways of a path: another scheme, another site, the root alone, and a path to resolve.
  split
  · exact Or.inl (Nat.le_refl _)
  · split
    · exact Or.inl (hwith path (Nat.le_refl _))
    · split
      · exact Or.inr ⟨[], rfl, Nat.zero_le _⟩
      · obtain ⟨rest, hrest, hle⟩ := exists_fromRoot_resolvePath_length_le path
        refine Or.inr ⟨withParameters rest parameters, ?_, hwith rest hle⟩
        rw [hrest]
        exact withParameters_append ['/'] rest parameters

/-! ### Taking apart -/

/-- A path is found behind the scheme, and the cuts for authority, fragment and query only take from
it. -/
theorem length_path_le (h : parse t = .ok p) :
    p.path.length ≤ (cutScheme (visible t)).2.length := by
  rw [(path_of_parse_eq_ok h).1]
  exact Nat.le_trans (Text.length_cut_le _ _)
    (Nat.le_trans (Text.length_cut_le _ _) (cutAuthority_suffix _).length_le)

end Reference

namespace Request

/-- A clean path is no longer than what stands behind the scheme of its target. So a bound on the
length of a target is one on the name that is looked up for it. -/
theorem length_cleanPath_le (target : Text) :
    (cleanPath target).value.length
      ≤ (Reference.cutScheme (Reference.visible (Text.exchange '\\' '/' target))).2.length := by
  unfold cleanPath
  split
  · exact Nat.zero_le _
  · rename_i parts hparse
    refine Nat.le_trans ?_ (Reference.length_path_le hparse)
    show (removeDotSegments (Percent.decode parts.pathAtOrigin)).length ≤ _
    have hclean := length_removeDotSegments_le (Percent.decode parts.pathAtOrigin)
    rcases Reference.length_pathAtOrigin_le parts with hle | ⟨rest, hrest, hle⟩
    · have hdecode := Percent.length_decode_le parts.pathAtOrigin
      omega
    · have hdecode := Percent.length_decode_le rest
      rw [hrest, Percent.decode_cons_slash]
      -- The slash of the root is a separator for the clean-up and adds no segment.
      have hslash : removeDotSegments ('/' :: Percent.decode rest)
        = removeDotSegments (Percent.decode rest) := rfl
      have hrest := length_removeDotSegments_le (Percent.decode rest)
      rw [hslash]
      omega

end Request

end FrontendAssets
