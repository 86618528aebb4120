import FrontendAssets.Proofs.Request.CleanNames
import FrontendAssets.Proofs.Url.LastSegment

/-!
# `FrontendAssets.Proofs.Request.Target`: targets and their clean paths

A target is the path of an address, with its query behind it. The query is still there when the
target is taken apart a second time, where it is cut off: behind a plain front the clean path does
not depend on it (`cleanPath_withQuery`), and in front of it the last segment of the path stands at
the end of the clean path (`afterLast_cleanPath`).
-/

set_option autoImplicit false

namespace FrontendAssets

open Reference (IsFront IsStable withQuery)
open Text (afterLast exchange)

variable {front first rest last path query url : Text}

/-- Nothing that ends a path, or is dropped, gets into a text by exchanging backslashes. -/
theorem Reference.of_mem_exchange {t : Text} (h : ∀ c ∈ t, isBreak c = false ∧ c ≠ '#') :
    ∀ c ∈ exchange '\\' '/' t, isBreak c = false ∧ c ≠ '#' := by
  intro c hc
  obtain ⟨d, hd, rfl⟩ := List.mem_map.mp hc
  split
  · decide
  · exact h d hd

namespace Request

/-- The target of an address that can be taken apart: its path without the slash in front, and its
query. -/
theorem target_of_parse_eq_ok {parts : Reference} (h : Reference.parse url = .ok parts) :
    target url
      = { value :=
            withQuery ((Text.dropStart? ['/'] parts.path).getD parts.path) parts.query } := by
  unfold target
  rw [h]
  rfl

/-- A query leaves the clean path alone, whatever it holds. -/
theorem cleanPath_withQuery (hfirst : IsFront first) (hquestion : '?' ∉ first ++ '/' :: rest)
    (hhash : '#' ∉ first ++ '/' :: rest) (hquery : '#' ∉ query) :
    cleanPath (withQuery (first ++ '/' :: rest) query) = cleanPath (first ++ '/' :: rest) := by
  have hpath : exchange '\\' '/' (first ++ '/' :: rest)
      = first ++ '/' :: exchange '\\' '/' rest := by
    rw [Text.exchange_append_cons, Text.exchange_of_not_mem hfirst.backslash_not_mem]
  have hquestion' := Text.not_mem_exchange_of_ne '\\' (show '?' ≠ '/' by decide) hquestion
  have hhash' := Text.not_mem_exchange_of_ne '\\' (show '#' ≠ '/' by decide) hhash
  rw [hpath] at hquestion' hhash'
  -- Both are taken apart into the same path, and what is resolved is the path alone.
  have hwith := Reference.parse_of_front hfirst hquestion' hhash'
    (Text.not_mem_exchange_of_ne '\\' (show '#' ≠ '/' by decide) hquery)
  have hwithout := Reference.parse_front hfirst hquestion' hhash'
  unfold cleanPath
  rw [Reference.exchange_withQuery, hpath, hwith, hwithout]
  rfl

/-! ### Queries behind visible paths -/

/-- The target of a visible path behind a slash is the path, with what is left of the query behind
it. -/
theorem exists_target_withQuery_eq (hpath : ∀ c ∈ path, 0x20 < c.toNat ∧ c ≠ '?' ∧ c ≠ '#')
    (hhead : path.head? ≠ some '/') (query : Text) :
    ∃ kept : Text, (∀ c ∈ kept, Reference.isBreak c = false ∧ c ≠ '#')
      ∧ (target (withQuery ('/' :: path) query)).value = withQuery path kept := by
  obtain ⟨tail, hvisible, htail⟩ : ∃ tail : Text,
      Reference.visible (withQuery ('/' :: path) query) = '/' :: (path ++ tail)
        ∧ (tail = [] ∨ tail.head? = some '?') := by
    refine ⟨Reference.dropBreaks (withQuery [] query), ?_, ?_⟩
    · have hvisible : ∀ c ∈ '/' :: path, 0x20 < c.toNat :=
        List.forall_mem_cons.mpr ⟨by decide, fun c hc => (hpath c hc).1⟩
      rw [Reference.withQuery_eq_append,
        Reference.visible_append (List.cons_ne_nil _ _) hvisible]
      rfl
    · unfold withQuery
      split
      · exact Or.inl rfl
      · exact Or.inr (congrArg List.head? (Reference.dropBreaks_cons (by decide) query))
  have hno : ∀ c : Char, c = '?' ∨ c = '#' → c ∉ '/' :: path := by
    intro c hc hm
    rcases List.mem_cons.mp hm with rfl | hm
    · exact absurd hc (by decide)
    · rcases hc with rfl | rfl
      · exact (hpath _ hm).2.1 rfl
      · exact (hpath _ hm).2.2 rfl
  have hauthority : (path ++ tail).head? ≠ some '/' := by
    cases path with
    | nil =>
        rcases htail with rfl | htail
        · simp
        · rw [List.nil_append, htail]
          decide
    | cons c more => exact hhead
  -- Whatever stands behind the path, it is cut off at the question mark.
  have hcut : (Text.cut '?' (Text.cut '#' tail).1).1 = [] := by
    rcases htail with rfl | htail
    · rfl
    · obtain ⟨rest, rfl⟩ := List.head?_eq_some_iff.mp htail
      rfl
  have hparse := Reference.parse_of_cuts hvisible
    (@Reference.cutScheme_of_slash [] List.not_mem_nil _)
    (Reference.cutAuthority_cons_slash hauthority)
    (Text.cut_append_of_not_mem (hno '#' (Or.inr rfl)) tail)
    (Text.cut_append_of_not_mem (hno '?' (Or.inl rfl)) _) Reference.check_nil
  rw [hcut, List.append_nil] at hparse
  refine ⟨_, fun c hc => Reference.of_mem_path_or_query hparse (Or.inr hc), ?_⟩
  rw [target_of_parse_eq_ok hparse, Text.dropStart?_cons_self]
  rfl

section Visible

variable (hfirst : first ≠ []) (hslash : '/' ∉ first) (hrest : rest.head? ≠ some '/')
  (hpath : ∀ c ∈ first ++ '/' :: rest, (0x20 < c.toNat ∧ c ≠ '?' ∧ c ≠ '#') ∧ c ≠ '\\')

include hfirst hslash hrest hpath

/-- A visible path is taken apart in the same way with any query. What counts for a scheme at its
front is found before the query is reached, so it is the same for all of them. -/
theorem exists_parse_withQuery_eq :
    ∃ scheme kept : Text, ∀ query : Text, (∀ c ∈ query, Reference.isBreak c = false ∧ c ≠ '#') →
      Reference.parse (withQuery (first ++ '/' :: rest) query)
        = .ok ⟨scheme, [], kept ++ '/' :: rest, query, []⟩ := by
  obtain ⟨scheme, kept, hkept, hscheme⟩ := Reference.exists_cutScheme_eq first
  refine ⟨scheme, kept, fun query hquery => ?_⟩
  have hsuffix : kept ++ '/' :: rest <:+ first ++ '/' :: rest := by
    obtain ⟨before, rfl⟩ := hkept
    exact ⟨before, (List.append_assoc _ _ _).symm⟩
  have hno : ∀ c ∈ kept ++ '/' :: rest, c ≠ '?' ∧ c ≠ '#' :=
    fun c hc => (hpath c (hsuffix.mem hc)).1.2
  have hbreaks : ∀ c ∈ withQuery [] query, Reference.isBreak c = false ∧ c ≠ '#' := by
    intro c hc
    rcases Reference.mem_withQuery hc with hm | rfl | hm
    · cases hm
    · decide
    · exact hquery c hm
  have hvisible : Reference.visible (withQuery (first ++ '/' :: rest) query)
      = first ++ '/' :: withQuery rest query := by
    rw [Reference.withQuery_eq_append,
      Reference.visible_append (by simp) fun c hc => (hpath c hc).1.1,
      Reference.dropBreaks_of_isBreak fun c hc => (hbreaks c hc).1,
      ← Reference.withQuery_eq_append, Reference.withQuery_append_cons]
  -- Two slashes in front could only be the one that is left in front of the rest, and one in the
  -- rest.
  have hauthority : Reference.cutAuthority (kept ++ '/' :: withQuery rest query)
      = ([], kept ++ '/' :: withQuery rest query) := by
    cases kept with
    | nil =>
        apply Reference.cutAuthority_cons_slash
        cases rest with
        | nil => exact Reference.head?_withQuery_ne List.not_mem_nil query
        | cons c more =>
            rw [Reference.withQuery_eq_append]
            exact hrest
    | cons c more =>
        apply Reference.cutAuthority_of_head?
        intro hhead
        have hc : c = '/' := Option.some.inj hhead
        exact hslash (hkept.mem (hc ▸ List.mem_cons_self ..))
  have hhash : '#' ∉ kept ++ '/' :: withQuery rest query := by
    rw [← Reference.withQuery_append_cons, Reference.withQuery_eq_append]
    intro hm
    rcases List.mem_append.mp hm with hm | hm
    · exact (hno _ hm).2 rfl
    · exact (hbreaks _ hm).2 rfl
  obtain ⟨found, hcut, hfound⟩ :=
    Reference.exists_cut_withQuery_eq (fun hm => (hno _ hm).1 rfl) query
  rw [Reference.withQuery_append_cons] at hcut
  rw [Reference.parse_of_cuts hvisible (hscheme _) hauthority (Text.cut_of_not_mem hhash) hcut
    Reference.check_nil, hfound]
  rfl

/-- A query leaves the clean path alone behind a visible one, also if something counts for a scheme
at the front of it. -/
theorem cleanPath_withQuery_of_visible
    (hquery : ∀ c ∈ query, Reference.isBreak c = false ∧ c ≠ '#') :
    cleanPath (withQuery (first ++ '/' :: rest) query) = cleanPath (first ++ '/' :: rest) := by
  obtain ⟨scheme, kept, hparse⟩ := exists_parse_withQuery_eq hfirst hslash hrest hpath
  have hback : '\\' ∉ first ++ '/' :: rest := fun hm => (hpath _ hm).2 rfl
  have hwithout : Reference.parse (first ++ '/' :: rest)
      = .ok ⟨scheme, [], kept ++ '/' :: rest, [], []⟩ := hparse [] (List.forall_mem_nil _)
  -- What is taken apart differs in the query alone, and the query is not looked at.
  unfold cleanPath
  rw [Reference.exchange_withQuery, Text.exchange_of_not_mem hback,
    hparse _ (Reference.of_mem_exchange hquery), hwithout]
  rfl

end Visible

/-! ### The last segment -/

/-- Without a path there is no clean path. -/
theorem removeDotSegments_pathAtOrigin_of_nil {parts : Reference} (h : parts.path = []) :
    removeDotSegments (Percent.decode parts.pathAtOrigin) = [] := by
  -- Another scheme or another site leaves nothing, and the site itself leaves its root.
  have hcases : parts.pathAtOrigin = [] ∨ parts.pathAtOrigin = ['/'] := by
    unfold Reference.pathAtOrigin
    rw [h]
    split
    · exact Or.inl rfl
    · show (if parts.authority ≠ [] then [] else ['/']) = [] ∨ _ = ['/']
      split
      · exact Or.inl rfl
      · exact Or.inr rfl
  rcases hcases with h | h
  · rw [h]
    decide
  · rw [h]
    decide

/-- The last segment of a target decides the last name of its clean path, if there is one. It has to
be stable, so that resolving keeps it, and a clean name when it is decoded, so that the removal of
dot segments does. -/
theorem afterLast_cleanPath (hpath : ∀ c ∈ path, Reference.isBreak c = false ∧ c ≠ '#')
    (hquery : ∀ c ∈ query, Reference.isBreak c = false ∧ c ≠ '#') (hquestion : '?' ∉ path)
    (hfront : exchange '\\' '/' path = front ++ '/' :: last) (hslash : '/' ∉ last)
    (hstable : IsStable last) (hname : IsCleanName (Percent.decode last)) :
    (cleanPath (withQuery path query)).value = []
      ∨ afterLast '/' (cleanPath (withQuery path query)).value = Percent.decode last := by
  have htarget : exchange '\\' '/' (withQuery path query)
      = front ++ '/' :: withQuery last (exchange '\\' '/' query) := by
    rw [Reference.exchange_withQuery, hfront, Reference.withQuery_append_cons]
  have hkept : ∀ c ∈ exchange '\\' '/' (withQuery path query),
      Reference.isBreak c = false ∧ c ≠ '#' := by
    apply Reference.of_mem_exchange
    intro c hc
    rcases Reference.mem_withQuery hc with hm | rfl | hm
    · exact hpath c hm
    · decide
    · exact hquery c hm
  have hquestion' : '?' ∉ front ++ '/' :: last := by
    rw [← hfront]
    exact Text.not_mem_exchange_of_ne '\\' (by decide) hquestion
  -- The target is one piece behind a last slash, with the query at its end.
  rw [htarget] at hkept
  unfold cleanPath
  rw [htarget]
  split
  · exact Or.inl rfl
  · rename_i parts hparse
    rcases Reference.path_eq_nil_or_afterLast_eq hparse hkept hquestion' hslash with hnil | hlast
    · exact Or.inl (removeDotSegments_pathAtOrigin_of_nil hnil)
    · right
      -- From here on each stage leaves the last segment in its place.
      have horigin : afterLast '/' parts.pathAtOrigin = last := by
        rw [← hlast] at hstable
        rw [Reference.afterLast_pathAtOrigin hstable, hlast]
      have hdecoded : afterLast '/' (Percent.decode parts.pathAtOrigin) = Percent.decode last := by
        rw [← horigin] at hname
        rw [Percent.afterLast_decode hname.slash_not_mem, horigin]
      rw [← hdecoded] at hname ⊢
      exact afterLast_removeDotSegments hname

end Request

end FrontendAssets
