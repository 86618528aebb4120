import FrontendAssets.Proofs.Checks
import FrontendAssets.Proofs.Url.Decorated
import FrontendAssets.Proofs.Url.Origin

/-!
# `FrontendAssets.Proofs.Url.LastSegment`: what becomes of the last segment

Taking an address apart, resolving its path at the root of a site and decoding the result all keep
the last segment of the path in its place, whatever they do to the rest. A scheme and an authority
are cut off in front of it (`path_eq_nil_or_afterLast_eq`); where the authority takes everything, no
path is left. Resolving keeps a last segment that is stable (`afterLast_pathAtOrigin`), and decoding
goes segment by segment, since no escape reaches over a slash (`decode_append_slash`).

This is asked of paths with any front. A front that counts for a scheme or an authority is not
plain, so what `IsFront` gives is not to be had here.
-/

set_option autoImplicit false

namespace FrontendAssets

open Text (afterLast cut join)

/-! ### Decoding -/

namespace Percent

/-- A slash is no digit of an escape, neither the first nor the second. -/
theorem byte?_slash (d : Char) : byte? d '/' = none ∧ byte? '/' d = none := by
  have hslash : Text.hexValue? '/' = none := by decide
  unfold byte?
  rw [hslash]
  refine ⟨?_, rfl⟩
  cases Text.hexValue? d <;> rfl

/-- No escape reaches over a slash. The induction follows the reading of escapes, so that the slash
may stand in the place of either digit. -/
theorem items_append_slash (s t : Text) :
    items (s ++ '/' :: t) = items s ++ .char '/' :: items t := by
  fun_induction items s with
  | case1 => exact items_cons_of_ne (by decide) t
  | case2 high low rest b hb ih => simp only [List.cons_append, items, hb, ih]
  | case3 high low rest hb ih =>
      simp only [List.cons_append, items, hb]
      rw [← ih]
      rfl
  | case4 c rest hshort ih =>
      -- Only a percent sign could reach for what stands behind it.
      by_cases hc : c = '%'
      · subst hc
        -- At most one character stands between the percent sign and the slash.
        cases rest with
        | nil =>
            cases t with
            | nil => rfl
            | cons d more => simp [items, (byte?_slash d).2]
        | cons d more =>
            cases more with
            | nil =>
                simp only [List.cons_append, List.nil_append, items, (byte?_slash d).1] at ih ⊢
                rw [ih]
            | cons e more => exact absurd rfl (hshort d e more rfl)
      · rw [List.cons_append, items_cons_of_ne hc, ih]
        rfl

/-- A character that is read as such ends what bytes before it have begun, so what stands behind it
is decoded from the start. -/
theorem decodeFrom_append_char (owed : Utf8.Owed) (before after : List Utf8.Item) (c : Char) :
    Utf8.decodeFrom owed (before ++ .char c :: after)
      = Utf8.decodeFrom owed before ++ c :: Utf8.decodeItems after := by
  induction before generalizing owed with
  | nil => simp [Utf8.decodeFrom, Utf8.step, Utf8.decodeItems]
  | cons item before ih => simp [Utf8.decodeFrom, ih]

/-- What stands before a slash is decoded apart from what stands behind it. The slash stands for
itself in both. -/
theorem decode_append_slash (s t : Text) :
    decode (s ++ '/' :: t) = decode s ++ '/' :: decode t := by
  unfold decode
  rw [items_append_slash]
  exact decodeFrom_append_char .nothing _ _ '/'

/-- A last segment that holds no escaped slash is decoded where it stands. -/
theorem afterLast_decode {t : Text} (h : '/' ∉ decode (afterLast '/' t)) :
    afterLast '/' (decode t) = decode (afterLast '/' t) := by
  by_cases hslash : '/' ∈ t
  · obtain ⟨front, hfront⟩ := Text.exists_eq_append_afterLast hslash
    conv => lhs; rw [hfront, decode_append_slash]
    exact Text.afterLast_append_cons h _
  · rw [Text.afterLast_of_not_mem hslash] at h ⊢
    exact Text.afterLast_of_not_mem h

end Percent

namespace Reference

variable {front tail last piece query t : Text} {p : Reference}

/-! ### Taking apart -/

/-- The path and the query of an address, by the places where it is cut. -/
theorem path_of_parse_eq_ok (h : parse t = .ok p) :
    let before := (cut '#' (cutAuthority (cutScheme (visible t)).2).2).1
    p.path = (cut '?' before).1 ∧ p.query = (cut '?' before).2.getD [] := by
  obtain ⟨-, -, hp⟩ := Checks.bind_eq_ok_iff.mp h
  obtain rfl := Except.ok.inj hp
  exact ⟨rfl, rfl⟩

/-- What is left behind a scheme is an end of the text. -/
theorem cutScheme_suffix (t : Text) : (cutScheme t).2 <:+ t := by
  unfold cutScheme
  split
  · rename_i first more rest hcut
    split
    · obtain ⟨before, hbefore⟩ := Text.exists_eq_of_cut (congrArg Prod.snd hcut)
      exact ⟨before ++ [':'], by simp [hbefore]⟩
    · exact List.suffix_rfl
  · exact List.suffix_rfl

/-- What is left behind an authority is an end of the text, too. -/
theorem cutAuthority_suffix (t : Text) : (cutAuthority t).2 <:+ t := by
  unfold cutAuthority
  split
  · exact (List.dropWhile_suffix _).trans ⟨['/', '/'], rfl⟩
  · exact List.suffix_rfl

/-- The characters of paths and queries: no breaks, and no sign that ends the one or the other. -/
theorem of_mem_path_or_query (h : parse t = .ok p) {c : Char} (hc : c ∈ p.path ∨ c ∈ p.query) :
    isBreak c = false ∧ c ≠ '#' := by
  obtain ⟨hpath, hquery⟩ := path_of_parse_eq_ok h
  rw [hpath, hquery] at hc
  have hbefore : c ∈ (cut '#' (cutAuthority (cutScheme (visible t)).2).2).1 := by
    rcases hc with hc | hc
    · exact (Text.mem_of_mem_cut hc).1
    · exact Text.mem_of_mem_cut_getD hc
  obtain ⟨hafter, hne⟩ := Text.mem_of_mem_cut hbefore
  have hvisible := (cutScheme_suffix _).mem ((cutAuthority_suffix _).mem hafter)
  exact ⟨by simpa using (List.mem_filter.mp hvisible).2, hne⟩

/-- A path holds no question mark, as it is cut off where the first one stands. -/
theorem question_not_mem_path (h : parse t = .ok p) : '?' ∉ p.path := by
  rw [(path_of_parse_eq_ok h).1]
  exact fun hm => (Text.mem_of_mem_cut hm).2 rfl

/-! ### What stands behind a slash -/

/-- Characters are left out in front of a slash and not behind it. -/
theorem dropWhile_append_slash {q : Char → Bool} (hq : q '/' = false) (front tail : Text) :
    (front ++ '/' :: tail).dropWhile q = front.dropWhile q ++ '/' :: tail := by
  rw [List.dropWhile_append]
  split
  · rename_i hnil
    rw [List.isEmpty_iff.mp hnil, List.dropWhile_cons_of_neg (by simp [hq])]
    rfl
  · rfl

/-- Blanks are left out in front of a slash and not behind it, so text without breaks keeps all that
follows its first slash. -/
theorem visible_append_slash (h : ∀ c ∈ front ++ '/' :: tail, isBreak c = false) :
    visible (front ++ '/' :: tail) = front.dropWhile isLeadingBlank ++ '/' :: tail := by
  rw [visible, List.filter_eq_self.mpr, dropWhile_append_slash (by decide)]
  intro c hc
  simp [h c ((List.dropWhile_suffix _).mem hc)]

/-- A scheme ends in front of the first slash, whatever stands behind the slash. The statement is
uniform in the tail, so that what is found for a path holds for the path with its query, too. -/
theorem exists_cutScheme_eq (front : Text) :
    ∃ scheme kept, kept <:+ front
      ∧ ∀ tail, cutScheme (front ++ '/' :: tail) = (scheme, kept ++ '/' :: tail) := by
  by_cases hcolon : ':' ∈ front
  · obtain ⟨before, after, rfl, hbefore⟩ := List.eq_append_cons_of_mem hcolon
    -- What stands in front of the first colon is a scheme, or the text stays whole.
    by_cases hscheme : IsScheme before
    · refine ⟨Text.lower before, after, ⟨before ++ [':'], by simp⟩, fun tail => ?_⟩
      rw [List.append_assoc, List.cons_append]
      exact cutScheme_of_isScheme hscheme _
    · refine ⟨[], before ++ ':' :: after, List.suffix_rfl, fun tail => ?_⟩
      rw [List.append_assoc, List.cons_append]
      exact cutScheme_of_not_isScheme hbefore hscheme _
  · exact ⟨[], front, List.suffix_rfl, fun tail => cutScheme_of_slash hcolon tail⟩

/-- An authority ends in front of a slash, unless it begins there: then it takes what follows, up to
the first sign that ends it. -/
theorem exists_cutAuthority_eq (htail : tail.head? ≠ some '/') (front : Text) :
    (∃ kept, kept <:+ front ∧ (cutAuthority (front ++ '/' :: tail)).2 = kept ++ '/' :: tail)
      ∨ (cutAuthority (front ++ '/' :: tail)).2 = tail.dropWhile fun c => !endsAuthority c := by
  unfold cutAuthority
  split
  · rename_i rest heq
    -- Of the two slashes that announce an authority, the one before the tail is the first, the
    -- second, or none, and the first it cannot be.
    cases front with
    | nil =>
        obtain ⟨-, rfl⟩ := List.cons.inj heq
        exact absurd rfl htail
    | cons first more =>
        obtain ⟨rfl, hmore⟩ := List.cons.inj heq
        cases more with
        | nil =>
            obtain ⟨-, rfl⟩ := List.cons.inj hmore
            exact Or.inr rfl
        | cons second front =>
            obtain ⟨-, rfl⟩ := List.cons.inj hmore
            refine Or.inl ⟨front.dropWhile _, ?_, dropWhile_append_slash (by decide) front tail⟩
            exact (List.dropWhile_suffix _).trans ⟨['/', second], rfl⟩
  · exact Or.inl ⟨front, List.suffix_rfl, rfl⟩

/-- A query is cut off where it begins, whole: no breaks are dropped here. -/
theorem exists_cut_withQuery_eq (h : '?' ∉ t) (query : Text) :
    ∃ found : Option Text, cut '?' (withQuery t query) = (t, found) ∧ found.getD [] = query := by
  unfold withQuery
  split
  · rename_i hquery
    rw [Text.cut_of_not_mem h, hquery]
    exact ⟨none, rfl, rfl⟩
  · rw [Text.cut_append_cons h]
    exact ⟨some query, rfl, rfl⟩

/-- A piece without slashes does not begin with one, nor does it with a query behind it, which
begins with its own sign where the piece is empty. -/
theorem head?_withQuery_ne (h : '/' ∉ piece) (query : Text) :
    (withQuery piece query).head? ≠ some '/' := by
  intro he
  unfold withQuery at he
  -- An empty piece leaves the query in front, and that begins with a question mark.
  cases piece with
  | nil =>
      split at he
      · cases he
      · exact absurd he (by simp)
  | cons c more =>
      have hc : c = '/' := by
        split at he
        · exact Option.some.inj he
        · exact Option.some.inj he
      exact h (by simp [hc])

/-- An authority that takes the last segment leaves no path: behind it stand the query or
nothing. -/
theorem cut_dropWhile_withQuery (hslash : '/' ∉ piece) (hhash : '#' ∉ piece)
    (hquestion : '?' ∉ piece) (query : Text) :
    (cut '?' ((withQuery piece query).dropWhile fun c => !endsAuthority c)).1 = [] := by
  have hpiece : ∀ c ∈ piece, (!endsAuthority c) = true := by
    intro c hc
    have hne : c ≠ '/' ∧ c ≠ '?' ∧ c ≠ '#' := by
      refine ⟨?_, ?_, ?_⟩ <;> rintro rfl <;> contradiction
    simp [endsAuthority, hne]
  unfold withQuery
  split
  · rw [Text.dropWhile_eq_nil_iff.mpr hpiece]
    rfl
  · rw [List.dropWhile_append_of_pos hpiece, List.dropWhile_cons_of_neg (by decide)]
    rfl

/-- A sign that is not found in a text is not found when less stands in front. -/
theorem not_mem_append_of_suffix {kept : Text} {c : Char} (h : kept <:+ front)
    (hc : c ∉ front ++ tail) : c ∉ kept ++ tail := by
  obtain ⟨before, rfl⟩ := h
  rw [List.append_assoc] at hc
  exact fun hm => hc (List.mem_append_right before hm)

/-- Taking apart an address with a slash in front of its last piece keeps this piece at the end of
the path, if there is a path at all. -/
theorem path_eq_nil_or_afterLast_eq
    (hparse : parse (front ++ '/' :: withQuery piece query) = .ok p)
    (hkept : ∀ c ∈ front ++ '/' :: withQuery piece query, isBreak c = false ∧ c ≠ '#')
    (hquestion : '?' ∉ front ++ '/' :: piece) (hslash : '/' ∉ piece) :
    p.path = [] ∨ afterLast '/' p.path = piece := by
  have hhash : '#' ∉ front ++ '/' :: withQuery piece query := fun hm => (hkept _ hm).2 rfl
  obtain ⟨scheme, behind, hbehind, hscheme⟩ :=
    exists_cutScheme_eq (front.dropWhile isLeadingBlank)
  have hfront : behind <:+ front := hbehind.trans (List.dropWhile_suffix _)
  rw [(path_of_parse_eq_ok hparse).1, visible_append_slash fun c hc => (hkept c hc).1, hscheme]
  rcases exists_cutAuthority_eq (head?_withQuery_ne hslash query) behind with
    ⟨left, hleft, hauthority⟩ | hauthority
  · -- What is left of the front holds neither of the signs that end a path.
    have hhash' := not_mem_append_of_suffix (hleft.trans hfront) hhash
    have hquestion' := not_mem_append_of_suffix (hleft.trans hfront) hquestion
    obtain ⟨found, hcut, -⟩ := exists_cut_withQuery_eq hquestion' query
    rw [hauthority, Text.cut_of_not_mem hhash', ← withQuery_append_cons, hcut]
    exact Or.inr (Text.afterLast_append_cons hslash left)
  · -- The authority goes on to the query, or to the end.
    have hhash' : '#' ∉ withQuery piece query := fun hm =>
      hhash (List.mem_append_right _ (List.mem_cons_of_mem _ hm))
    have hpiece : '#' ∉ piece := by
      intro hm
      apply hhash'
      unfold withQuery
      split
      · exact hm
      · exact List.mem_append_left _ hm
    have hquestion' : '?' ∉ piece := fun hm =>
      hquestion (List.mem_append_right _ (List.mem_cons_of_mem _ hm))
    rw [hauthority, Text.cut_of_not_mem fun hm => hhash' ((List.dropWhile_suffix _).mem hm)]
    exact Or.inl (cut_dropWhile_withQuery hslash hpiece hquestion' query)

/-! ### Resolving -/

/-- The last of the segments to resolve is that of the path; empty ones are left out before it
only. -/
theorem exists_segmentsAtRoot_eq (path : Text) :
    ∃ before, segmentsAtRoot path = before ++ [afterLast '/' path] := by
  obtain ⟨before, hsplit⟩ := Text.exists_splitOn_eq_concat '/' path
  unfold segmentsAtRoot
  simp only [hsplit]
  split
  · exact ⟨before, rfl⟩
  · exact ⟨[] :: before.filter (fun s => !s.isEmpty), by simp⟩

/-- A last segment that is no dot segment stays in its place behind a slash. -/
theorem exists_fromRoot_resolvePath_eq {path segment : Text} (hpath : afterLast '/' path = segment)
    (hdot : segment ≠ ['.']) (hup : segment ≠ ['.', '.']) :
    ∃ before, fromRoot (resolvePath path) = before ++ '/' :: segment := by
  obtain ⟨before, hsegments⟩ := exists_segmentsAtRoot_eq path
  have hslash : '/' ∉ segment := hpath ▸ Text.not_mem_afterLast '/' path
  rw [hpath] at hsegments
  -- Whatever is resolved before it, the last segment comes out behind it.
  have hfold : ((before ++ [segment]).foldl resolveSegment []).reverse
      = (before.foldl resolveSegment []).reverse ++ [segment] := by
    rw [List.foldl_append, List.foldl_cons, List.foldl_nil, resolveSegment, if_neg hup, if_neg hdot,
      List.reverse_cons]
  unfold resolvePath
  simp only [hsegments, hfold, List.getLast?_concat, Option.some.injEq, hdot, hup, or_self,
    if_false]
  generalize (before.foldl resolveSegment []).reverse = resolved
  by_cases hresolved : resolved = []
  · subst hresolved
    refine ⟨[], ?_⟩
    show fromRoot segment = _
    exact if_neg fun he => hslash (List.mem_of_mem_head? he)
  · rw [Text.join_append hresolved (by simp)]
    unfold fromRoot
    split
    · exact ⟨join '/' resolved, rfl⟩
    · exact ⟨'/' :: join '/' resolved, rfl⟩

/-- A last segment that is stable stays the last one at the root of a site, on all four ways a path
can go there. -/
theorem afterLast_pathAtOrigin (h : IsStable (afterLast '/' p.path)) :
    afterLast '/' p.pathAtOrigin = afterLast '/' p.path := by
  obtain ⟨hdot, hup, hparameters⟩ := h
  have hrestored := withParameters_cut hparameters
  have hwhole := Text.through_append_after '/' p.path
  have hslash := Text.not_mem_afterLast '/' p.path
  have hcut : cutParameters p.path
      = (Text.throughLast '/' p.path ++ (cut ';' (afterLast '/' p.path)).1,
        (cut ';' (afterLast '/' p.path)).2.getD []) := rfl
  unfold pathAtOrigin
  simp only [hcut]
  generalize afterLast '/' p.path = last at *
  have hsegment : '/' ∉ (cut ';' last).1 := fun hm => hslash (Text.mem_of_mem_cut hm).1
  have hlast := Text.afterLast_throughLast_append hsegment p.path
  split
  · -- Another scheme keeps the path as it is.
    rw [← hwhole, Text.afterLast_throughLast_append hslash]
  · split
    · -- Another site keeps the path, and the parameters with it.
      rw [withParameters_append, hrestored, Text.afterLast_throughLast_append hslash]
    · split
      · -- The root itself stands for a path without a segment and parameters.
        rename_i hempty
        obtain ⟨hpath, hnone⟩ := hempty
        rw [(List.append_eq_nil_iff.mp hpath).2, hnone] at hrestored
        exact hrestored
      · obtain ⟨before, hresolved⟩ := exists_fromRoot_resolvePath_eq hlast hdot hup
        rw [hresolved, List.append_cons, withParameters_append, hrestored, ← List.append_cons]
        exact Text.afterLast_append_cons hslash before

end Reference

end FrontendAssets
