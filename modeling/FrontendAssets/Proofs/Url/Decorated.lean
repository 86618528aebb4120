import FrontendAssets.Proofs.Url.Reference

/-!
# `FrontendAssets.Proofs.Url.Decorated`: one path in several spellings

A path can be written as a relative address, with a slash in front, or behind a scheme and a host,
and a query and a fragment can follow it. As long as the front of the path is plain, all of these
are taken apart into the same path (`parse_of_front`, `parse_slash_of_front`, `parse_decorated`).
Nothing is asked of the rest: colons, double dots and backslashes come too late to count for a
scheme or an authority, and breaks are dropped in every spelling alike.

The query may hold anything but the sign that begins a fragment. It is what makes this more than a
matter of dropping a prefix, since a request keeps its query and is taken apart a second time.

A scheme and a host count in any letter case. Whoever looks for one of them compares the lowercase
with a word of letters, and `lower_of_inAnyCase` says that every spelling of the word is found so.
-/

set_option autoImplicit false

namespace FrontendAssets

open Text (cut)

namespace Reference

variable {c : Char} {t first rest query scheme host fragment : Text}

/-! ### Breaks -/

/-- The text without its tabs and line breaks. They are dropped from addresses wherever they stand,
before anything else is looked at. -/
def dropBreaks (t : Text) : Text := t.filter fun c => !isBreak c

/-- Breaks are dropped on both sides of any place where a text is cut. -/
theorem dropBreaks_append (s t : Text) : dropBreaks (s ++ t) = dropBreaks s ++ dropBreaks t :=
  List.filter_append _ _

/-- Dropping breaks brings no character in, so a sign that a text is free of is not found in it
later. -/
theorem not_mem_dropBreaks (h : c ∉ t) : c ∉ dropBreaks t := fun hm => h (List.mem_filter.mp hm).1

/-- A visible character in front stays there. -/
theorem dropBreaks_cons (h : 0x20 < c.toNat) (t : Text) :
    dropBreaks (c :: t) = c :: dropBreaks t :=
  List.filter_cons_of_pos (by simp [isBreak_of_lt h])

/-- Text without breaks is left alone. -/
theorem dropBreaks_of_isBreak (h : ∀ c ∈ t, isBreak c = false) : dropBreaks t = t := by
  rw [dropBreaks, List.filter_eq_self]
  intro c hc
  simp [h c hc]

/-- Visible text is left alone, since no break is visible. -/
theorem dropBreaks_of_lt (h : ∀ c ∈ t, 0x20 < c.toNat) : dropBreaks t = t :=
  dropBreaks_of_isBreak fun c hc => isBreak_of_lt (h c hc)

/-- A text that begins with a visible character loses its breaks only; blanks are left out at the
front of a text, and its front is this character. -/
theorem visible_cons (h : 0x20 < c.toNat) (t : Text) : visible (c :: t) = c :: dropBreaks t := by
  have hlead : isLeadingBlank c = false := by
    rw [isLeadingBlank, decide_eq_false_iff_not]
    omega
  rw [visible, List.dropWhile_cons_of_neg (by simp [hlead])]
  exact dropBreaks_cons h t

/-- Behind visible text breaks are dropped, and nothing else is. -/
theorem visible_append {s : Text} (hne : s ≠ []) (h : ∀ c ∈ s, 0x20 < c.toNat) (t : Text) :
    visible (s ++ t) = s ++ dropBreaks t := by
  obtain ⟨c, more, rfl⟩ := List.exists_cons_of_ne_nil hne
  have hmore : dropBreaks more = more :=
    dropBreaks_of_lt fun d hd => h d (List.mem_cons_of_mem _ hd)
  rw [List.cons_append, visible_cons (h c (List.mem_cons_self ..)), dropBreaks_append, hmore,
    List.cons_append]

/-! ### Queries -/

/-- A path with a query behind it, if there is one. An empty query leaves no trace, so a question
mark at the end of a target is not kept. -/
def withQuery (path query : Text) : Text := if query = [] then path else path ++ '?' :: query

/-- What stands in front of a path stands in front of it with its query, too. -/
theorem withQuery_append (s t query : Text) :
    withQuery (s ++ t) query = s ++ withQuery t query := by
  unfold withQuery
  split
  · rfl
  · exact List.append_assoc s t _

/-- The query is the same behind any path. -/
theorem withQuery_eq_append (t query : Text) : withQuery t query = t ++ withQuery [] query := by
  rw [← withQuery_append, List.append_nil]

/-- The same for a text with one character behind it, which is how segments and the slash between
them come. -/
theorem withQuery_append_cons (s : Text) (c : Char) (t query : Text) :
    withQuery (s ++ c :: t) query = s ++ c :: withQuery t query := by
  rw [List.append_cons, withQuery_append, ← List.append_cons]

/-- What stands in a path with its query: characters of the one, of the other, or the sign between
them. -/
theorem mem_withQuery (h : c ∈ withQuery t query) : c ∈ t ∨ c = '?' ∨ c ∈ query := by
  unfold withQuery at h
  split at h
  · exact Or.inl h
  · rcases List.mem_append.mp h with h | h
    · exact Or.inl h
    · exact Or.inr (List.mem_cons.mp h)

/-- Backslashes are exchanged in path and query each for itself. -/
theorem exchange_withQuery (t query : Text) :
    Text.exchange '\\' '/' (withQuery t query)
      = withQuery (Text.exchange '\\' '/' t) (Text.exchange '\\' '/' query) := by
  unfold withQuery
  cases query with
  | nil => rfl
  | cons c more => exact Text.exchange_append _ _ _ _

/-- A sign that neither of them holds is not found in both together, the question mark aside. -/
theorem not_mem_withQuery (hne : c ≠ '?') (ht : c ∉ t) (hquery : c ∉ query) :
    c ∉ withQuery t query := by
  intro hm
  rcases mem_withQuery hm with h | h | h
  · exact ht h
  · exact hne h
  · exact hquery h

/-- A query is cut off where it begins, and only its breaks are lost. Whether there was a query is
left to `found`; an empty one and none are the same from here on. -/
theorem cut_question (h : '?' ∉ t) (query : Text) :
    ∃ found : Option Text, cut '?' (dropBreaks (withQuery t query)) = (dropBreaks t, found)
      ∧ found.getD [] = dropBreaks query := by
  have hno : '?' ∉ dropBreaks t := not_mem_dropBreaks h
  unfold withQuery
  by_cases hquery : query = []
  · subst hquery
    rw [if_pos rfl, Text.cut_of_not_mem hno]
    exact ⟨none, rfl, rfl⟩
  · rw [if_neg hquery, dropBreaks_append, dropBreaks_cons (by decide), Text.cut_append_cons hno]
    exact ⟨some (dropBreaks query), rfl, rfl⟩

/-! ### Plain fronts -/

/-- A first segment of visible characters, none of which counts for anything at the front of an
address: no colon could end a scheme, and no slash or backslash could begin an authority. -/
structure IsFront (first : Text) : Prop where
  /-- There is a first character, for a path that begins with a slash is another matter. -/
  ne_nil : first ≠ []
  /-- Nothing in front is left out or dropped. -/
  lt_toNat : ∀ c ∈ first, 0x20 < c.toNat
  /-- No scheme ends in it. -/
  colon_not_mem : ':' ∉ first
  /-- It is one segment. -/
  slash_not_mem : '/' ∉ first
  /-- It stays one segment when backslashes are exchanged for slashes. -/
  backslash_not_mem : '\\' ∉ first

/-- A plain front announces no authority. -/
theorem IsFront.head?_append_ne (h : IsFront first) (t : Text) :
    (first ++ t).head? ≠ some '/' := by
  obtain ⟨c, more, rfl⟩ := List.exists_cons_of_ne_nil h.ne_nil
  intro he
  have hc : c = '/' := Option.some.inj he
  exact h.slash_not_mem (by simp [hc])

/-- Behind a plain front and its slash only breaks are dropped. -/
theorem IsFront.dropBreaks_append (h : IsFront first) (t : Text) :
    dropBreaks (first ++ '/' :: t) = first ++ '/' :: dropBreaks t := by
  rw [Reference.dropBreaks_append, dropBreaks_of_lt h.lt_toNat, dropBreaks_cons (by decide)]

/-- Nor is anything left out in front of a plain front. -/
theorem IsFront.visible_append (h : IsFront first) (t : Text) :
    visible (first ++ '/' :: t) = first ++ '/' :: dropBreaks t := by
  rw [Reference.visible_append h.ne_nil h.lt_toNat, dropBreaks_cons (by decide)]

section Spellings

variable (hfirst : IsFront first) (hquestion : '?' ∉ first ++ '/' :: rest)
  (hhash : '#' ∉ first ++ '/' :: rest)

include hfirst hquestion hhash

/-- A relative address, its query kept apart. The rest of the path is not asked to be plain: a colon
in it comes behind a slash, and two slashes in it do not stand in front. -/
theorem parse_of_front (hquery : '#' ∉ query) :
    parse (withQuery (first ++ '/' :: rest) query)
      = .ok { ofPath (first ++ '/' :: dropBreaks rest) with query := dropBreaks query } := by
  have hmore := withQuery_append_cons first '/' rest query
  have hnohash : '#' ∉ dropBreaks (withQuery (first ++ '/' :: rest) query) :=
    not_mem_dropBreaks (not_mem_withQuery (by decide) hhash hquery)
  obtain ⟨found, hcut, hfound⟩ := cut_question hquestion query
  rw [hmore, hfirst.dropBreaks_append] at hnohash hcut
  rw [hfirst.dropBreaks_append] at hcut
  have hparse := parse_of_cuts (hfirst.visible_append (withQuery rest query))
    (cutScheme_of_slash hfirst.colon_not_mem _)
    (cutAuthority_of_head? (hfirst.head?_append_ne _)) (Text.cut_of_not_mem hnohash) hcut check_nil
  rw [hmore, hparse, hfound]
  rfl

/-- A relative address without a query. -/
theorem parse_front :
    parse (first ++ '/' :: rest) = .ok (ofPath (first ++ '/' :: dropBreaks rest)) := by
  show parse (withQuery (first ++ '/' :: rest) []) = _
  exact parse_of_front hfirst hquestion hhash List.not_mem_nil

/-- The same path with a slash in front: the slash is part of the path, and there is no authority,
since the front that follows begins with no second one. -/
theorem parse_slash_of_front :
    parse ('/' :: (first ++ '/' :: rest))
      = .ok (ofPath ('/' :: (first ++ '/' :: dropBreaks rest))) := by
  have hvisible : visible ('/' :: (first ++ '/' :: rest))
      = '/' :: (first ++ '/' :: dropBreaks rest) := by
    rw [visible_cons (by decide), hfirst.dropBreaks_append]
  have hno : ∀ c : Char, c ≠ '/' → c ∉ first ++ '/' :: rest →
      c ∉ '/' :: (first ++ '/' :: dropBreaks rest) := by
    intro c hne hc
    rw [← hfirst.dropBreaks_append, List.mem_cons, not_or]
    exact ⟨hne, not_mem_dropBreaks hc⟩
  exact parse_of_cuts hvisible (@cutScheme_of_slash [] List.not_mem_nil _)
    (cutAuthority_cons_slash (hfirst.head?_append_ne _))
    (Text.cut_of_not_mem (hno '#' (by decide) hhash))
    (Text.cut_of_not_mem (hno '?' (by decide) hquestion)) check_nil

end Spellings

/-! ### Schemes and hosts -/

/-- A letter, and then letters, digits and the three marks of schemes. What stands before the first
colon of an address is a scheme exactly if it is of this form. -/
def IsScheme (scheme : Text) : Prop :=
  ∃ (letter : Char) (more : Text), scheme = letter :: more ∧ letter.isAlpha = true
    ∧ more.all isSchemeChar = true

/-- Letters, digits, dots and hyphens: hosts that need no brackets and no check. An empty host is
among them, as in the addresses of files. -/
def IsPlainHost (host : Text) : Prop :=
  ∀ c ∈ host, c.isAlphanum = true ∨ c = '.' ∨ c = '-'

/-- Everything that a scheme holds is visible and no colon. -/
theorem IsScheme.visible_of_mem (h : IsScheme scheme) :
    ∀ c ∈ scheme, 0x20 < c.toNat ∧ c ≠ ':' := by
  obtain ⟨letter, more, rfl, hletter, hmore⟩ := h
  have hscheme : ∀ c ∈ letter :: more, isSchemeChar c = true := by
    intro c hc
    rcases List.mem_cons.mp hc with rfl | hc
    · simp [isSchemeChar, Char.isAlphanum, hletter]
    · exact List.all_eq_true.mp hmore c hc
  intro c hc
  -- A plus sign aside, the characters of schemes need no escapes in a path either.
  have hkind : Percent.isUnreserved c = true ∨ c = '+' := by
    have hmarks := hscheme c hc
    simp only [isSchemeChar, Bool.or_eq_true, beq_iff_eq] at hmarks
    rcases hmarks with ((h | h) | h) | h
    · exact Or.inl (by simp [Percent.isUnreserved, h])
    · exact Or.inr h
    · exact Or.inl (by simp [Percent.isUnreserved, h])
    · exact Or.inl (by simp [Percent.isUnreserved, h])
  rcases hkind with h | rfl
  · have hpath := Percent.isPathChar_of_isUnreserved h
    exact ⟨Percent.lt_toNat_of_isPathChar hpath, Percent.ne_of_isPathChar hpath (by decide)⟩
  · decide

/-- A plain host needs no escapes, so it is visible and holds no delimiter. -/
theorem IsPlainHost.isUnreserved (h : IsPlainHost host) :
    ∀ c ∈ host, Percent.isUnreserved c = true := by
  intro c hc
  rcases h c hc with hletter | rfl | rfl
  · simp [Percent.isUnreserved, hletter]
  · decide
  · decide

/-- A plain host is an authority as it stands. -/
theorem IsPlainHost.check_eq (h : IsPlainHost host) : Authority.check host = .ok () := by
  apply Authority.check_of_plain
  intro c hc
  have hpath := Percent.isPathChar_of_isUnreserved (h.isUnreserved c hc)
  exact ⟨Percent.toNat_lt_of_isUnreserved (h.isUnreserved c hc),
    Percent.ne_of_isPathChar hpath (by decide), Percent.ne_of_isPathChar hpath (by decide)⟩

/-- A scheme is cut off with its colon, and comes out in lowercase. -/
theorem cutScheme_of_isScheme (h : IsScheme scheme) (t : Text) :
    cutScheme (scheme ++ ':' :: t) = (Text.lower scheme, t) := by
  have hcolon : ':' ∉ scheme := fun hm => (h.visible_of_mem _ hm).2 rfl
  obtain ⟨letter, more, rfl, hletter, hmore⟩ := h
  rw [cutScheme, Text.cut_append_cons hcolon]
  simp [hletter, hmore]

/-- What stands in front of the first colon is kept if it is no scheme. -/
theorem cutScheme_of_not_isScheme {before : Text} (hcolon : ':' ∉ before)
    (h : ¬ IsScheme before) (t : Text) :
    cutScheme (before ++ ':' :: t) = ([], before ++ ':' :: t) := by
  rw [cutScheme, Text.cut_append_cons hcolon]
  cases before with
  | nil => rfl
  | cons letter more =>
      -- The characters are tested, and what passes would be a scheme.
      have hno : (letter.isAlpha && more.all isSchemeChar) = false := by
        rw [← Bool.not_eq_true, Bool.and_eq_true]
        exact fun hpass => h ⟨letter, more, rfl, hpass⟩
      show (if (letter.isAlpha && more.all isSchemeChar) = true then _ else _) = _
      rw [hno, if_neg Bool.false_ne_true]

/-- An authority goes up to the next slash, as none of the signs that end one stands in a plain
host. -/
theorem cutAuthority_of_isPlainHost (h : IsPlainHost host) (t : Text) :
    cutAuthority ('/' :: '/' :: (host ++ '/' :: t)) = (host, '/' :: t) := by
  have hinside : ∀ c ∈ host, (!endsAuthority c) = true := by
    intro c hc
    have hpath := h.isUnreserved c hc
    -- The signs that end an authority would need escapes, and a host needs none.
    have hends : endsAuthority c = false := by
      rw [← Bool.not_eq_true]
      intro he
      simp only [endsAuthority, Bool.or_eq_true, beq_iff_eq] at he
      rcases he with (rfl | rfl) | rfl
      · exact absurd hpath (by decide)
      · exact absurd hpath (by decide)
      · exact absurd hpath (by decide)
    rw [hends]
    rfl
  rw [cutAuthority, List.takeWhile_append_of_pos hinside, List.dropWhile_append_of_pos hinside]
  simp [endsAuthority]

/-- An escaped rooted path behind a scheme and a plain host, which may be empty, is the path of the
address, however many slashes it begins with: the authority has been announced already. -/
theorem parse_of_host (hscheme : IsScheme scheme) (hhost : IsPlainHost host)
    (h : ∀ c ∈ t, Percent.isPathChar c = true) (hhead : t.head? = some '/') :
    parse (scheme ++ "://".toList ++ host ++ t)
      = .ok { ofPath t with scheme := Text.lower scheme, authority := host } := by
  have hurl : scheme ++ "://".toList ++ host ++ t = scheme ++ ':' :: '/' :: '/' :: (host ++ t) := by
    simp
  -- Scheme, host and path are visible each for its own reason.
  have hvisible : visible (scheme ++ ':' :: '/' :: '/' :: (host ++ t))
      = scheme ++ ':' :: '/' :: '/' :: (host ++ t) := by
    apply visible_eq
    intro c hc
    simp only [List.mem_append, List.mem_cons] at hc
    rcases hc with hc | rfl | rfl | rfl | hc | hc
    · exact (hscheme.visible_of_mem c hc).1
    · decide
    · decide
    · decide
    · exact Percent.lt_toNat_of_isPathChar
        (Percent.isPathChar_of_isUnreserved (hhost.isUnreserved c hc))
    · exact Percent.lt_toNat_of_isPathChar (h c hc)
  have hauthority : cutAuthority ('/' :: '/' :: (host ++ t)) = (host, t) := by
    obtain ⟨rest, rfl⟩ := List.head?_eq_some_iff.mp hhead
    exact cutAuthority_of_isPlainHost hhost rest
  rw [hurl]
  exact parse_of_cuts hvisible (cutScheme_of_isScheme hscheme _) hauthority
    (cut_path h (by decide)) (cut_path h (by decide)) hhost.check_eq

section Words

variable {word : Text} (hword : word.all Char.isAlpha = true)

include hword

/-- A word of letters is its own lowercase in any letter case. It is ASCII, so none of the special
rules for other letters comes in. -/
theorem lower_of_inAnyCase (h : Text.InAnyCase word t) : Text.lower t = word := by
  have hascii : ∀ c ∈ t, c.toNat < 0x80 := fun c hc =>
    Percent.toNat_lt_of_isAlphanum (by simp [Char.isAlphanum, h.isAlpha_of_mem hword c hc])
  rw [Text.lower_of_ascii hascii]
  exact h

/-- A word is a scheme in any letter case. -/
theorem isScheme_of_inAnyCase (hne : word ≠ []) (h : Text.InAnyCase word scheme) :
    IsScheme scheme := by
  have hletters := h.isAlpha_of_mem hword
  cases scheme with
  | nil => exact absurd h.symm hne
  | cons letter more =>
      refine ⟨letter, more, rfl, hletters letter (List.mem_cons_self ..), ?_⟩
      rw [List.all_eq_true]
      intro c hc
      simp [isSchemeChar, Char.isAlphanum, hletters c (List.mem_cons_of_mem _ hc)]

/-- And it is a host in any letter case. -/
theorem isPlainHost_of_inAnyCase (h : Text.InAnyCase word host) : IsPlainHost host := by
  intro c hc
  exact Or.inl (by simp [Char.isAlphanum, h.isAlpha_of_mem hword c hc])

end Words

/-- A path behind a scheme and a host, with a query and a fragment behind it. This is the fullest
spelling of a path that a front end asks for. -/
def decorated (scheme host path query fragment : Text) : Text :=
  scheme ++ "://".toList ++ host ++ '/' :: path ++ '?' :: query ++ '#' :: fragment

/-- Decoration is cut off in front and behind, whatever stands in query and fragment, and the path
that is left is the one between host and query, breaks dropped. -/
theorem parse_decorated (hscheme : IsScheme scheme) (hhost : IsPlainHost host)
    (hfirst : IsFront first) (hquestion : '?' ∉ first ++ '/' :: rest)
    (hhash : '#' ∉ first ++ '/' :: rest) (hquery : '#' ∉ query) (fragment : Text) :
    parse (decorated scheme host (first ++ '/' :: rest) query fragment)
      = .ok ⟨Text.lower scheme, host, '/' :: (first ++ '/' :: dropBreaks rest), dropBreaks query,
        dropBreaks fragment⟩ := by
  have hne : scheme ≠ [] := by
    obtain ⟨letter, more, rfl, -⟩ := hscheme
    exact List.cons_ne_nil letter more
  have hpath := hfirst.dropBreaks_append rest
  -- From here on it does not matter of what the path is made, only that it holds none of the signs.
  generalize first ++ '/' :: rest = path at *
  generalize first ++ '/' :: dropBreaks rest = kept at hpath ⊢
  have hvisible : visible (decorated scheme host path query fragment)
      = scheme ++ ':' :: '/' :: '/' :: (host ++ '/' :: (kept ++ '?' :: (dropBreaks query
        ++ '#' :: dropBreaks fragment))) := by
    have hhostVisible : dropBreaks host = host := dropBreaks_of_lt fun c hc =>
      Percent.lt_toNat_of_isPathChar (Percent.isPathChar_of_isUnreserved (hhost.isUnreserved c hc))
    have hsign : dropBreaks "://".toList = "://".toList := rfl
    unfold decorated
    rw [List.append_assoc, List.append_assoc, List.append_assoc, List.append_assoc,
      visible_append hne fun c hc => (hscheme.visible_of_mem c hc).1]
    simp only [dropBreaks_append, hsign, hhostVisible, hpath,
      dropBreaks_cons (show 0x20 < '/'.toNat by decide),
      dropBreaks_cons (show 0x20 < '?'.toNat by decide),
      dropBreaks_cons (show 0x20 < '#'.toNat by decide)]
    simp
  -- Each cut is made at the first sign of its kind, so none of it may stand in front of the place.
  have hnohash : '#' ∉ '/' :: (kept ++ '?' :: dropBreaks query) := by
    have hkept : '#' ∉ kept := hpath ▸ not_mem_dropBreaks hhash
    simp [hkept, not_mem_dropBreaks hquery]
  have hnoquestion : '?' ∉ '/' :: kept := by
    have hkept : '?' ∉ kept := hpath ▸ not_mem_dropBreaks hquestion
    simp [hkept]
  have hfragment := Text.cut_append_cons hnohash (dropBreaks fragment)
  have hcut := Text.cut_append_cons hnoquestion (dropBreaks query)
  simp only [List.cons_append, List.append_assoc] at hfragment hcut
  exact parse_of_cuts hvisible (cutScheme_of_isScheme hscheme _)
    (cutAuthority_of_isPlainHost hhost _) hfragment hcut hhost.check_eq

end Reference

end FrontendAssets
