import FrontendAssets.Text.Basic

/-!
# `FrontendAssets.Proofs.Text.Segments`: pieces of a text and the characters in them

What `Text.splitOn` and `Text.join` do to single characters and to texts put together. A separator
in front adds an empty piece (`splitOn_cons_self`), a separator in between keeps the pieces of both
sides (`splitOn_append_cons`), and a joined text holds nothing but the separator and the characters
of its pieces (`mem_join`). `cut_append_cons` says where a text is cut. The last section says what
exchanging one character for another leaves behind.
-/

set_option autoImplicit false

namespace FrontendAssets.Text

variable {separator c : Char} {t piece : Text} {pieces : List Text}

/-! ### Splitting -/

/-- There is always a first piece and a last one. -/
theorem splitOn_ne_nil (separator : Char) (t : Text) : splitOn separator t ≠ [] :=
  splitWhere_ne_nil _ t

/-- A separator in front adds an empty piece. Paths that begin with a slash are told from others by
it. -/
theorem splitOn_cons_self (separator : Char) (t : Text) :
    splitOn separator (separator :: t) = [] :: splitOn separator t := by
  simp [splitOn, splitWhere]

/-- Splitting distributes over an occurrence of the separator. Nothing is asked of the two texts,
since each is split into what it would give alone. -/
theorem splitOn_append_cons (separator : Char) (s t : Text) :
    splitOn separator (s ++ separator :: t) = splitOn separator s ++ splitOn separator t :=
  splitWhere_append_cons (by simp) s t

/-- A text without the separator is one piece. -/
theorem splitOn_of_not_mem (h : separator ∉ t) : splitOn separator t = [t] := by
  apply splitWhere_eq_singleton
  intro d hd
  have hne : d ≠ separator := fun he => h (he ▸ hd)
  simpa using hne

/-- No piece holds the separator. Names that come out of a path are free of slashes for this reason
alone. -/
theorem not_mem_of_mem_splitOn (h : piece ∈ splitOn separator t) : separator ∉ piece := by
  intro hc
  have hno := separates_of_mem_splitWhere h hc
  simp at hno

/-- A piece in front of the first separator is the first piece, and the rest is split by itself. -/
theorem splitOn_cons_append (h : separator ∉ piece) (t : Text) :
    splitOn separator (piece ++ separator :: t) = piece :: splitOn separator t := by
  rw [splitOn_append_cons, splitOn_of_not_mem h, List.singleton_append]

/-! ### Cutting -/

/-- A character that a text lacks, in the form that the tests of `takeWhile` and `dropWhile`
have. -/
theorem ne_of_not_mem (h : c ∉ t) : ∀ d ∈ t, (d != c) = true := by
  intro d hd
  have hne : d ≠ c := fun he => h (he ▸ hd)
  simpa using hne

/-- A text without the character is not cut: all of it is in front, and there is nothing behind. -/
theorem cut_of_not_mem (h : c ∉ t) : cut c t = (t, none) := by
  have hdrop : t.dropWhile (· != c) = [] := dropWhile_eq_nil_iff.mpr (ne_of_not_mem h)
  have htake : t.takeWhile (· != c) = t := by
    conv => rhs; rw [← List.takeWhile_append_dropWhile (p := (· != c)) (l := t)]
    rw [hdrop, List.append_nil]
  rw [cut, htake, hdrop]
  rfl

/-- A text is cut at the first occurrence of the character. Further occurrences stay in the second
part. -/
theorem cut_append_cons {s : Text} (h : c ∉ s) (t : Text) : cut c (s ++ c :: t) = (s, some t) := by
  have hall := ne_of_not_mem h
  rw [cut, List.takeWhile_append_of_pos hall, List.dropWhile_append_of_pos hall]
  simp

/-- Text without the character stays in front of the cut, wherever the rest is cut. This is the step
of a proof that goes along a text piece by piece. -/
theorem cut_append_of_not_mem {s : Text} (h : c ∉ s) (t : Text) :
    cut c (s ++ t) = (s ++ (cut c t).1, (cut c t).2) := by
  have hall := ne_of_not_mem h
  rw [cut, List.takeWhile_append_of_pos hall, List.dropWhile_append_of_pos hall, cut]

/-- What stands in front of a cut: text without the character. -/
theorem mem_of_mem_cut {d : Char} (h : d ∈ (cut c t).1) : d ∈ t ∧ d ≠ c :=
  ⟨(List.takeWhile_prefix _).mem h, by simpa using List.all_eq_true.mp List.all_takeWhile d h⟩

/-- What stands in front of a cut is no longer than the text. -/
theorem length_cut_le (c : Char) (t : Text) : (cut c t).1.length ≤ t.length :=
  (List.takeWhile_prefix _).length_le

/-- A text is what stands in front of a cut, the character, and what stands behind. The character is
the separator itself, since it is where the search stopped. -/
theorem eq_append_of_cut {rest : Text} (h : (cut c t).2 = some rest) :
    t = (cut c t).1 ++ c :: rest := by
  -- The rest begins behind the first `c`, so what is left from there on is this `c` and the rest.
  have hdrop : t.dropWhile (· != c) = c :: rest := by
    have hhead := List.head?_dropWhile_not (· != c) t
    cases hmore : t.dropWhile (· != c) with
    | nil =>
        rw [cut, hmore] at h
        cases h
    | cons d more =>
        rw [hmore] at hhead
        have hd : d = c := by simpa using hhead
        rw [cut, hmore] at h
        rw [hd, ← Option.some.inj h]
  conv => lhs; rw [← List.takeWhile_append_dropWhile (p := (· != c)) (l := t), hdrop]
  rfl

/-- The same for callers that need no more than that there is a front. -/
theorem exists_eq_of_cut {rest : Text} (h : (cut c t).2 = some rest) :
    ∃ front, t = front ++ c :: rest :=
  ⟨_, eq_append_of_cut h⟩

/-- What stands behind a cut, if there is one, comes from the text. -/
theorem mem_of_mem_cut_getD {d : Char} (h : d ∈ (cut c t).2.getD []) : d ∈ t := by
  cases hcut : (cut c t).2 with
  | none =>
      rw [hcut] at h
      cases h
  | some rest =>
      obtain ⟨front, rfl⟩ := exists_eq_of_cut hcut
      rw [hcut] at h
      exact List.mem_append_right _ (List.mem_cons_of_mem _ h)

/-- A text loses what it starts with. -/
theorem dropStart?_append (s t : Text) : dropStart? s (s ++ t) = some t := by
  rw [dropStart?, if_pos (List.isPrefixOf_iff_prefix.mpr (List.prefix_append s t)), List.drop_left]

/-- A text that has lost a beginning began with it. -/
theorem eq_append_of_dropStart? {s rest : Text} (h : dropStart? s t = some rest) :
    t = s ++ rest := by
  unfold dropStart? at h
  split at h
  · rename_i hstart
    obtain ⟨more, rfl⟩ := List.isPrefixOf_iff_prefix.mp hstart
    rw [List.drop_left] at h
    rw [Option.some.inj h]
  · cases h

/-- Nothing is lost exactly if the text does not start so. -/
theorem dropStart?_eq_none_iff {s : Text} : dropStart? s t = none ↔ s.isPrefixOf t = false := by
  unfold dropStart?
  cases s.isPrefixOf t <;> simp

/-- The same in terms of prefixes as a relation, which is how other facts about beginnings are
stated. -/
theorem dropStart?_of_not_isPrefix {s : Text} (h : ¬ s <+: t) : dropStart? s t = none := by
  rw [dropStart?, if_neg fun hstart => h (List.isPrefixOf_iff_prefix.mp hstart)]

/-- A beginning of one character is the head of the text. -/
theorem dropStart?_cons_self (c : Char) (t : Text) : dropStart? [c] (c :: t) = some t :=
  dropStart?_append [c] t

/-- A text with another head, or with none, loses nothing. -/
theorem dropStart?_of_head? (h : t.head? ≠ some c) : dropStart? [c] t = none := by
  apply dropStart?_of_not_isPrefix
  rintro ⟨rest, rfl⟩
  exact h rfl

/-! ### Joining -/

/-- Joining two lists of pieces puts one separator between them. Neither list may be empty, or there
would be a separator too many. -/
theorem join_append {front back : List Text} (hf : front ≠ []) (hb : back ≠ []) :
    join separator (front ++ back) = join separator front ++ separator :: join separator back := by
  induction front with
  | nil => exact absurd rfl hf
  | cons first more ih =>
      cases more with
      | nil =>
          -- Here the new separator stands.
          obtain ⟨next, rest, rfl⟩ := List.exists_cons_of_ne_nil hb
          rfl
      | cons second more =>
          have hrest := ih (by simp)
          simp only [List.cons_append, join] at hrest ⊢
          rw [hrest, List.append_assoc, List.cons_append]

/-- One piece in front of others. -/
theorem join_cons (first : Text) (h : pieces ≠ []) :
    join separator (first :: pieces) = first ++ separator :: join separator pieces := by
  have hfirst : [first] ≠ [] := by simp
  exact join_append hfirst h

/-- A joined text holds the separator and the characters of its pieces, and nothing else. The
separator need not occur, as with a single piece. -/
theorem mem_join (h : c ∈ join separator pieces) : c = separator ∨ ∃ piece ∈ pieces, c ∈ piece := by
  induction pieces with
  | nil => simp [join] at h
  | cons first more ih =>
      -- Only where another piece follows is there a separator.
      by_cases hm : more = []
      · subst hm
        exact Or.inr ⟨first, by simp, h⟩
      · rw [join_cons first hm, List.mem_append, List.mem_cons] at h
        rcases h with h | h | h
        · exact Or.inr ⟨first, by simp, h⟩
        · exact Or.inl h
        · rcases ih h with h | ⟨piece, hp, hc⟩
          · exact Or.inl h
          · exact Or.inr ⟨piece, List.mem_cons_of_mem _ hp, hc⟩

/-- Every character of a piece is in the joined text. -/
theorem mem_join_of_mem (hp : piece ∈ pieces) (hc : c ∈ piece) : c ∈ join separator pieces := by
  induction pieces with
  | nil => simp at hp
  | cons first more ih =>
      by_cases hm : more = []
      · subst hm
        rw [List.mem_singleton] at hp
        exact hp ▸ hc
      · rw [join_cons first hm, List.mem_append, List.mem_cons]
        rcases List.mem_cons.mp hp with rfl | hp
        · exact Or.inl hc
        · exact Or.inr (Or.inr (ih hp))

/-- The characters of a piece are those of the text. -/
theorem mem_of_mem_splitOn (hp : piece ∈ splitOn separator t) (hc : c ∈ piece) : c ∈ t := by
  have h : c ∈ join separator (splitOn separator t) := mem_join_of_mem hp hc
  rwa [join_splitOn] at h

/-- Non-empty pieces leave a non-empty text. A single empty piece would leave an empty one, which is
why the pieces have to be non-empty here. -/
theorem join_eq_nil_iff (h : ∀ piece ∈ pieces, piece ≠ []) :
    join separator pieces = [] ↔ pieces = [] := by
  cases pieces with
  | nil => simp [join]
  | cons first more =>
      have hfirst : first ≠ [] := h first (by simp)
      by_cases hm : more = []
      · subst hm
        simpa [join] using hfirst
      · rw [join_cons first hm]
        simp

/-- A first piece that is neither empty nor holds the separator begins the joined text. So a path of
names is a relative one. -/
theorem head?_join_cons_ne {first : Text} (hne : first ≠ []) (hsep : separator ∉ first)
    (more : List Text) : (join separator (first :: more)).head? ≠ some separator := by
  obtain ⟨d, rest, rfl⟩ := List.exists_cons_of_ne_nil hne
  have hd : d ≠ separator := fun he => hsep (by simp [he])
  by_cases hm : more = []
  · subst hm
    simpa [join] using hd
  · rw [join_cons _ hm]
    simpa using hd

/-- The same for all pieces at once, none of them being there included. -/
theorem head?_join_ne (hne : ∀ piece ∈ pieces, piece ≠ [])
    (hsep : ∀ piece ∈ pieces, separator ∉ piece) :
    (join separator pieces).head? ≠ some separator := by
  cases pieces with
  | nil => simp [join]
  | cons first more => exact head?_join_cons_ne (hne first (by simp)) (hsep first (by simp)) more

/-- Text behind the last piece is text of the last piece. -/
theorem join_concat_append (front : List Text) (last t : Text) :
    join separator (front ++ [last]) ++ t = join separator (front ++ [last ++ t]) := by
  by_cases hf : front = []
  · subst hf
    rfl
  · rw [join_append hf (by simp), join_append hf (by simp), List.append_assoc]
    rfl

/-- Without some of the pieces a joined text is no longer than with them. The induction is on how
the fewer pieces lie among all of them. -/
theorem length_join_le {fewer : List Text} (h : fewer.Sublist pieces) :
    (join separator fewer).length ≤ (join separator pieces).length := by
  induction h with
  | slnil => exact Nat.le_refl _
  -- The piece is left out, and with it perhaps a separator.
  | @cons fewer pieces piece _ ih =>
      refine Nat.le_trans ih ?_
      by_cases hp : pieces = []
      · simp [hp, join]
      · rw [join_cons piece hp]
        simp only [List.length_append, List.length_cons]
        omega
  -- The piece is kept. If it is the only one that is, the separator behind it is the one that is
  -- lost.
  | @cons_cons fewer pieces piece hsub ih =>
      by_cases hf : fewer = []
      · subst hf
        by_cases hp : pieces = []
        · simp [hp]
        · rw [join_cons piece hp]
          simp [join]
      · have hp : pieces ≠ [] := fun he => hf (List.sublist_nil.mp (he ▸ hsub))
        rw [join_cons piece hf, join_cons piece hp]
        simp only [List.length_append, List.length_cons]
        omega

/-! ### The last piece -/

/-- Without the separator all of the text comes after the last one. -/
theorem afterLast_of_not_mem (h : c ∉ t) : afterLast c t = t := by
  have hall : ∀ d ∈ t.reverse, (d != c) = true := fun d hd =>
    ne_of_not_mem h d (List.mem_reverse.mp hd)
  rw [afterLast, ← List.append_nil t.reverse, List.takeWhile_append_of_pos hall]
  simp

/-- Behind the last separator there is none, and so what has none behind a separator is the last
piece. -/
theorem afterLast_append_cons (h : c ∉ t) (s : Text) : afterLast c (s ++ c :: t) = t := by
  have hall : ∀ d ∈ t.reverse, (d != c) = true := fun d hd =>
    ne_of_not_mem h d (List.mem_reverse.mp hd)
  rw [afterLast, List.reverse_append, List.reverse_cons, List.append_assoc,
    List.takeWhile_append_of_pos hall]
  simp

/-- What stands in front of a separator does not move the last one. Unlike in the lemma before, the
rest may hold separators of its own. -/
theorem afterLast_append_cons_self (c : Char) (s t : Text) :
    afterLast c (s ++ c :: t) = afterLast c t := by
  have hnone : (c :: s.reverse).takeWhile (· != c) = [] := by simp
  unfold afterLast
  rw [List.reverse_append, List.reverse_cons, List.append_assoc, List.singleton_append,
    List.takeWhile_append, hnone, List.append_nil]
  split
  · rename_i hall
    -- Then the separator is nowhere in the text, which is kept as a whole.
    exact congrArg List.reverse ((List.takeWhile_prefix _).eq_of_length hall).symm
  · rfl

/-- A separator in front of a text does not move the last one either. -/
theorem afterLast_cons_self (c : Char) (t : Text) : afterLast c (c :: t) = afterLast c t :=
  afterLast_append_cons_self c [] t

/-- The text after the last separator is the last piece. -/
theorem afterLast_join_concat {last : Text} (h : separator ∉ last) (front : List Text) :
    afterLast separator (join separator (front ++ [last])) = last := by
  by_cases hf : front = []
  · subst hf
    exact afterLast_of_not_mem h
  · rw [join_append hf (by simp)]
    exact afterLast_append_cons h _

/-- Behind the last separator another last piece can be put. This is what resolving a relative
reference does with the path of a page. -/
theorem throughLast_join_concat_append {last : Text} (h : separator ∉ last) (front : List Text)
    (t : Text) :
    throughLast separator (join separator (front ++ [last])) ++ t
      = join separator (front ++ [t]) := by
  -- What goes through the last separator is the text without its last piece.
  have hparts := through_append_after separator (join separator (front ++ [last]))
  rw [afterLast_join_concat h] at hparts
  have hwhole : join separator (front ++ [[]]) ++ last = join separator (front ++ [last]) :=
    join_concat_append front [] last
  have hthrough : throughLast separator (join separator (front ++ [last]))
      = join separator (front ++ [[]]) := List.append_cancel_right (hparts.trans hwhole.symm)
  rw [hthrough, join_concat_append, List.nil_append]

/-- The last piece is what stands after the last separator. It ties the two ways to get at the last
segment of a path, by splitting and by searching from the end. -/
theorem exists_splitOn_eq_concat (separator : Char) (t : Text) :
    ∃ front, splitOn separator t = front ++ [afterLast separator t] := by
  obtain ⟨front, last, hsplit⟩ : ∃ front last, splitOn separator t = front ++ [last] :=
    ⟨_, _, (List.dropLast_concat_getLast (splitOn_ne_nil separator t)).symm⟩
  have hlast : separator ∉ last := not_mem_of_mem_splitOn (t := t) (by simp [hsplit])
  have hafter : afterLast separator t = last := by
    rw [← join_splitOn separator t, hsplit]
    exact afterLast_join_concat hlast front
  exact ⟨front, by rw [hafter, hsplit]⟩

/-- There is no separator after the last one. -/
theorem not_mem_afterLast (c : Char) (t : Text) : c ∉ afterLast c t := by
  obtain ⟨front, hsplit⟩ := exists_splitOn_eq_concat c t
  exact not_mem_of_mem_splitOn (t := t) (by simp [hsplit])

/-- Another last piece takes the place of the last one. -/
theorem afterLast_throughLast_append {piece : Text} (h : c ∉ piece) (t : Text) :
    afterLast c (throughLast c t ++ piece) = piece := by
  obtain ⟨front, hsplit⟩ := exists_splitOn_eq_concat c t
  have hthrough := throughLast_join_concat_append (not_mem_afterLast c t) front piece
  rw [← hsplit, join_splitOn] at hthrough
  rw [hthrough]
  exact afterLast_join_concat h front

/-- A text with a separator is cut in front of its last piece. -/
theorem exists_eq_append_afterLast (h : c ∈ t) : ∃ front, t = front ++ c :: afterLast c t := by
  obtain ⟨front, hsplit⟩ := exists_splitOn_eq_concat c t
  have hne : front ≠ [] := by
    rintro rfl
    have hwhole : t = afterLast c t := by
      conv => lhs; rw [← join_splitOn c t, hsplit]
      rfl
    exact not_mem_afterLast c t (hwhole ▸ h)
  refine ⟨join c front, ?_⟩
  conv => lhs; rw [← join_splitOn c t, hsplit, join_append hne (by simp)]
  rfl

/-! ### Exchanging -/

/-- Without the old character nothing changes. -/
theorem exchange_of_not_mem {old new : Char} (h : old ∉ t) : exchange old new t = t := by
  unfold exchange
  conv => rhs; rw [← List.map_id t]
  apply List.map_congr_left
  intro d hd
  have hne : d ≠ old := fun he => h (he ▸ hd)
  simp [hne]

/-- Exchanging works character by character, so it distributes over appending. -/
theorem exchange_append (old new : Char) (s t : Text) :
    exchange old new (s ++ t) = exchange old new s ++ exchange old new t :=
  List.map_append

/-- Exchanging brings no character in but the new one. -/
theorem not_mem_exchange_of_ne (old : Char) {new d : Char} (hne : d ≠ new) (h : d ∉ t) :
    d ∉ exchange old new t := by
  intro hm
  obtain ⟨e, he, heq⟩ := List.mem_map.mp hm
  by_cases hold : e = old
  · rw [if_pos hold] at heq
    exact hne heq.symm
  · rw [if_neg hold] at heq
    exact h (heq ▸ he)

/-- The new character stands for itself: it is kept, whether or not it is the old one too. -/
theorem exchange_append_cons (old new : Char) (s t : Text) :
    exchange old new (s ++ new :: t) = exchange old new s ++ new :: exchange old new t := by
  rw [exchange_append]
  show _ ++ (if new = old then new else new) :: _ = _
  rw [ite_self]
  rfl

/-- A last piece without the old character stays the last one as it is. The separator is the new
character here, as when backslashes become slashes, so new separators may well appear in front of
it. -/
theorem afterLast_exchange {old new : Char} (h : old ∉ afterLast new t) :
    afterLast new (exchange old new t) = afterLast new t := by
  by_cases hnew : new ∈ t
  · obtain ⟨front, hfront⟩ := exists_eq_append_afterLast hnew
    conv => lhs; rw [hfront, exchange_append_cons, exchange_of_not_mem h]
    exact afterLast_append_cons (not_mem_afterLast new t) _
  · rw [afterLast_of_not_mem hnew] at h
    rw [exchange_of_not_mem h]

/-- The old character is gone, unless it was exchanged for itself. -/
theorem not_mem_exchange {old new : Char} (h : new ≠ old) (t : Text) :
    old ∉ exchange old new t := by
  intro hm
  obtain ⟨d, -, hd⟩ := List.mem_map.mp hm
  by_cases hdo : d = old
  · exact h (by simpa [hdo] using hd)
  · rw [if_neg hdo] at hd
    exact hdo hd

end FrontendAssets.Text
