import FrontendAssets.Proofs.Request.Target
import FrontendAssets.Proofs.Resolve.Reach
import FrontendAssets.Proofs.Resolve.Strategies

/-!
# `FrontendAssets.Proofs.Resolve.Decoration`: requests for one path in several spellings

A path under the mount is resolved the same way whether it comes alone, with a slash in front, or
behind a scheme and a host with a query and a fragment (`resolve_undecorated`). The resolution is
the same as a whole, and so is what is asked of the bundle and of the file system; only what is
noted along the way may differ, as notes quote the request.

A request keeps its query in front of the second reading, so the proof has to see to it that no text
of the query gets into the path there. The mount does this: it is the plain front of the target, so
neither reading finds a scheme or an authority, and the query is cut off where it begins. That the
front has as many characters as the mount rests on its lowercase being ASCII.
-/

set_option autoImplicit false

namespace FrontendAssets

open Reference (IsFront IsPlainHost IsScheme decorated dropBreaks ofPath withQuery)

variable {first rest query url : Text}

namespace Resolve

/-! ### The front of a path under the mount -/

variable {c : Config} {path scheme host : Text}

/-- The mount and its slash are ASCII path characters, and they are so in lowercase. So whatever is
taken for the mount consists of characters that count for nothing at the front of an address, if
lowercasing leaves them alone. -/
theorem HasPlainMount.isPathChar_of_mem_lower (h : HasPlainMount c) :
    ∀ d ∈ Text.lower c.mountHead, Percent.isPathChar d = true ∧ d.toNat < 0x80 := by
  -- ASCII is small enough to look at each of its characters.
  have hkept : ∀ n < 0x80, Percent.isPathChar (Char.ofNat n) = true →
      Percent.isPathChar (Char.ofNat n).toLower = true ∧ (Char.ofNat n).toLower.toNat < 0x80 := by
    decide
  have hhead : ∀ d ∈ c.mountHead, Percent.isPathChar d = true ∧ d.toNat < 0x80 := by
    intro d hd
    rcases List.mem_append.mp hd with hd | hd
    · have hunreserved := h.isUnreserved d hd
      exact ⟨Percent.isPathChar_of_isUnreserved hunreserved,
        Percent.toNat_lt_of_isUnreserved hunreserved⟩
    · rw [List.mem_singleton.mp hd]
      decide
  intro d hd
  rw [Text.lower_of_ascii fun d hd => (hhead d hd).2] at hd
  obtain ⟨e, he, rfl⟩ := List.mem_map.mp hd
  have hlow := hkept e.toNat (hhead e he).2
  rw [Char.ofNat_toNat] at hlow
  exact hlow (hhead e he).1

/-- A path that starts with a plain mount has a plain front, of as many characters as the mount. The
front need not be ASCII: a Kelvin sign stands for a k. -/
theorem exists_front_of_startsWith (hmount : HasPlainMount c)
    (h : Request.startsWith path c.mountHead = true) :
    ∃ first rest : Text, path = first ++ '/' :: rest ∧ IsFront first
      ∧ Text.lower (first ++ ['/']) = Text.lower c.mountHead
      ∧ (first ++ ['/']).length = c.mountHead.length := by
  obtain ⟨first, hslash, htake⟩ : ∃ first : Text, '/' ∉ first
      ∧ path.take c.mountHead.length = first ++ ['/'] :=
    Request.exists_take_eq_of_startsWith c.slash_not_mem_mount h
  have hlower : Text.lower (first ++ ['/']) = Text.lower c.mountHead := by
    rw [← htake]
    exact eq_of_beq h
  have hascii := hmount.isPathChar_of_mem_lower
  rw [← hlower] at hascii
  -- Text that becomes ASCII when it is lowered keeps its number of characters, on either side.
  have hlength : (first ++ ['/']).length = c.mountHead.length := by
    have hfirst := Text.length_lowerFrom_of_ascii fun d hd => (hascii d hd).2
    rw [hlower] at hascii
    have hmount := Text.length_lowerFrom_of_ascii fun d hd => (hascii d hd).2
    exact hfirst.symm.trans ((congrArg List.length hlower).trans hmount)
  -- A character that lowercasing leaves alone is among those of the lowered mount.
  have hkept : ∀ d ∈ first, d.toNat < 0x80 → d.toLower = d → Percent.isPathChar d = true := by
    intro d hd hlow hself
    exact (hascii d (Text.mem_lowerFrom hlow hself (List.mem_append_left _ hd) false)).1
  have hblank : ∀ n ∈ List.range 0x21, (Char.ofNat n).toLower = Char.ofNat n := by decide
  refine ⟨first, path.drop c.mountHead.length, ?_, ⟨?_, ?_, ?_, hslash, ?_⟩, hlower, hlength⟩
  · conv => lhs; rw [← List.take_append_drop c.mountHead.length path, htake]
    simp
  · rintro rfl
    exact c.mount_ne_nil (by simpa [Config.mountHead] using hlength)
  · intro d hd
    apply Decidable.byContradiction
    intro hlow
    have hself := hblank d.toNat (List.mem_range.mpr (by omega))
    rw [Char.ofNat_toNat] at hself
    exact hlow (Percent.lt_toNat_of_isPathChar (hkept d hd (by omega) hself))
  · exact fun hd => absurd (hkept ':' hd (by decide) (by decide)) (by decide)
  · exact fun hd => absurd (hkept '\\' hd (by decide) (by decide)) (by decide)

/-- Whatever stands behind such a front is under the mount, as it is compared by itself. -/
theorem startsWith_front (hlower : Text.lower (first ++ ['/']) = Text.lower c.mountHead)
    (hlength : (first ++ ['/']).length = c.mountHead.length) (t : Text) :
    Request.startsWith (first ++ '/' :: t) c.mountHead = true := by
  rw [List.append_cons]
  exact Request.startsWith_of_lower_eq hlength hlower t

/-! ### Spellings -/

/-- An address with a path that begins with `first`: a query may be left in its target, and its
content type is that of the path. Nothing else about the address reaches the router. -/
structure Spells (first rest url : Text) : Prop where
  /-- The target is the path, perhaps with a query that cannot end it. -/
  target_eq : ∃ query : Text, '#' ∉ query
    ∧ Request.target url = { value := withQuery (first ++ '/' :: rest) query }
  /-- The content type is that of the last segment of the path. -/
  mediaType_eq : MediaType.ofUrl url
    = MediaType.ofFilename (Text.afterLast '/' (first ++ '/' :: rest))

/-- What an address is taken apart into says whether it spells a path. A slash in front of the path
makes no difference to the target. -/
theorem spells_of_parse {parts : Reference} (hparse : Reference.parse url = .ok parts)
    (hfirst : IsFront first)
    (hpath : parts.path = first ++ '/' :: rest ∨ parts.path = '/' :: (first ++ '/' :: rest))
    (hquery : '#' ∉ parts.query) : Spells first rest url := by
  have htype := MediaType.ofUrl_of_parse hparse
  have htarget := Request.target_of_parse_eq_ok hparse
  rcases hpath with hpath | hpath
  · rw [hpath, Text.dropStart?_of_head? (hfirst.head?_append_ne _)] at htarget
    rw [hpath] at htype
    exact ⟨⟨parts.query, hquery, htarget⟩, htype⟩
  · rw [hpath, Text.dropStart?_cons_self] at htarget
    rw [hpath, Text.afterLast_cons_self] at htype
    exact ⟨⟨parts.query, hquery, htarget⟩, htype⟩

/-- A path alone, with a slash in front, and with all decoration spells itself, but for breaks:
these are dropped in all three. -/
theorem spells_of_mem (hfirst : IsFront first) (hquestion : '?' ∉ first ++ '/' :: rest)
    (hhash : '#' ∉ first ++ '/' :: rest) (hscheme : IsScheme scheme) (hhost : IsPlainHost host)
    (hquery : '#' ∉ query) {fragment : Text}
    (hurl : url ∈ [first ++ '/' :: rest, '/' :: (first ++ '/' :: rest),
      decorated scheme host (first ++ '/' :: rest) query fragment]) :
    Spells first (dropBreaks rest) url := by
  simp only [List.mem_cons, List.not_mem_nil, or_false] at hurl
  rcases hurl with rfl | rfl | rfl
  · exact spells_of_parse (Reference.parse_front hfirst hquestion hhash) hfirst (Or.inl rfl)
      List.not_mem_nil
  · exact spells_of_parse (Reference.parse_slash_of_front hfirst hquestion hhash) hfirst
      (Or.inr rfl) List.not_mem_nil
  · exact spells_of_parse
      (Reference.parse_decorated hscheme hhost hfirst hquestion hhash hquery fragment) hfirst
      (Or.inr rfl) (Reference.not_mem_dropBreaks hquery)

/-- All spellings of a path lead to the same name under the mount. Each target has its own query,
and the clean path does not depend on it. -/
theorem Spells.nameUnderMount_eq {other : Text} (h : Spells first rest url)
    (hother : Spells first rest other) (hfirst : IsFront first)
    (hquestion : '?' ∉ first ++ '/' :: rest) (hhash : '#' ∉ first ++ '/' :: rest)
    (hlower : Text.lower (first ++ ['/']) = Text.lower c.mountHead)
    (hlength : (first ++ ['/']).length = c.mountHead.length) :
    nameUnderMount c url = nameUnderMount c other := by
  -- Whatever query is left in the target, it starts with the mount and has one clean path.
  have hname : ∀ address : Text, Spells first rest address → nameUnderMount c address
      = let clean := (Request.cleanPath (first ++ '/' :: rest)).value
        if Request.startsWith clean c.mountHead then some (clean.drop c.mountHead.length)
        else none := by
    intro address haddress
    obtain ⟨query, hquery, htarget⟩ := haddress.target_eq
    have hstarts : Request.startsWith (withQuery (first ++ '/' :: rest) query) c.mountHead
        = true := by
      rw [Reference.withQuery_append_cons]
      exact startsWith_front hlower hlength _
    unfold nameUnderMount
    simp only [htarget, hstarts, Bool.true_and,
      Request.cleanPath_withQuery hfirst hquestion hhash hquery]
  exact (hname url h).trans (hname other hother).symm

/-- Requests with one name under the mount and one content type are resolved the same way: no
strategy looks at anything else. -/
theorem resolve_congr {other : Text} (answer : (q : Query) → q.Answer)
    (hname : nameUnderMount c url = nameUnderMount c other)
    (htype : MediaType.ofUrl url = MediaType.ofUrl other) :
    ((resolve c url).run answer).outcome = ((resolve c other).run answer).outcome
      ∧ lookups ((resolve c url).run answer).asked = lookups ((resolve c other).run answer).asked
      ∧ reads ((resolve c url).run answer).asked = reads ((resolve c other).run answer).asked := by
  rw [run_resolve, run_resolve, hname, htype]
  simp only [outcome_afterNotes, lookups_afterNotes, reads_afterNotes, and_self]

/-- A path under a plain mount is resolved the same way in all spellings: alone, with a slash in
front, and with scheme, host, query and fragment. One resolution is given for all of them, with one
list of look-ups and one of files. -/
theorem resolve_undecorated (answer : (q : Query) → q.Answer) (hmount : HasPlainMount c)
    (hstarts : Request.startsWith path c.mountHead = true) (hquestion : '?' ∉ path)
    (hhash : '#' ∉ path) (hscheme : IsScheme scheme) (hhost : IsPlainHost host)
    (hquery : '#' ∉ query) (fragment : Text) :
    ∃ (r : Resolution) (names : List Text) (files : List Path),
      ∀ url ∈ [path, '/' :: path, decorated scheme host path query fragment],
        ((resolve c url).run answer).outcome = .ok r
          ∧ lookups ((resolve c url).run answer).asked = names
          ∧ reads ((resolve c url).run answer).asked = files := by
  obtain ⟨first, rest, rfl, hfirst, hlower, hlength⟩ := exists_front_of_startsWith hmount hstarts
  have hkept := hfirst.dropBreaks_append rest
  have hquestion' := hkept ▸ Reference.not_mem_dropBreaks hquestion
  have hhash' := hkept ▸ Reference.not_mem_dropBreaks hhash
  have hspells : ∀ url ∈ [first ++ '/' :: rest, '/' :: (first ++ '/' :: rest),
      decorated scheme host (first ++ '/' :: rest) query fragment],
      Spells first (dropBreaks rest) url :=
    fun url hurl => spells_of_mem hfirst hquestion hhash hscheme hhost hquery hurl
  have hpath := hspells (first ++ '/' :: rest) (List.mem_cons_self ..)
  -- The path by itself is the one that the others are compared with.
  obtain ⟨r, hr, -⟩ := exists_resolution answer c (first ++ '/' :: rest)
  refine ⟨r, lookups ((resolve c (first ++ '/' :: rest)).run answer).asked,
    reads ((resolve c (first ++ '/' :: rest)).run answer).asked, fun url hurl => ?_⟩
  rw [← hr]
  exact resolve_congr answer
    ((hspells url hurl).nameUnderMount_eq hpath hfirst hquestion' hhash' hlower hlength)
    ((hspells url hurl).mediaType_eq.trans hpath.mediaType_eq.symm)

/-- A query with brackets and double dots, and a fragment, behind a path with parameters, a
backslash and a colon. -/
theorem resolve_undecorated_site :
    let path : Text := "BUNDLED/panels/x;v=1/..\\a:b.js".toList
    let query : Text := "ws=[::1]/../\\x?y".toList
    let site : Text := "devtools".toList
    let w : World := ⟨⟨[("panels/a:b.js".toList, [7])]⟩, .bare []⟩
    let r : Resolution :=
      ⟨.bundled, some [7], "application/javascript".toList, "panels/a:b.js".toList⟩
    HasPlainMount Config.default ∧ Request.startsWith path Config.default.mountHead = true
      ∧ '?' ∉ path ∧ '#' ∉ path ∧ IsScheme site ∧ IsPlainHost site ∧ '#' ∉ query
      ∧ ∀ url ∈ [path, '/' :: path, decorated site site path query "/../z".toList],
        ((resolve Config.default url).run w.answer).outcome = .ok r
          ∧ lookups ((resolve Config.default url).run w.answer).asked = [r.path]
          ∧ reads ((resolve Config.default url).run w.answer).asked = [] := by
  intro path query site w r
  have hletters : (Text.trim '/' Config.default.mount).all Char.isAlphanum = true := by decide
  have hmount : HasPlainMount Config.default := fun d hd =>
    Or.inl (List.all_eq_true.mp hletters d hd)
  have hstarts : Request.startsWith path Config.default.mountHead = true := by decide +kernel
  have hscheme : IsScheme site := ⟨'d', "evtools".toList, rfl, by decide, by decide⟩
  have hsite : site.all Char.isAlphanum = true := by decide
  have hhost : IsPlainHost site := fun d hd => Or.inl (List.all_eq_true.mp hsite d hd)
  have hquestion : '?' ∉ path := by decide
  have hhash : '#' ∉ path := by decide
  have hquery : '#' ∉ query := by decide
  -- The path alone is run, and what comes out holds of all spellings.
  have hend : ((resolve Config.default path).run w.answer).outcome = .ok r := by decide +kernel
  have hasked : ((resolve Config.default path).run w.answer).asked = [.lookup r.path] := by
    decide +kernel
  obtain ⟨found, names, files, hall⟩ := resolve_undecorated w.answer hmount hstarts hquestion hhash
    hscheme hhost hquery "/../z".toList
  obtain ⟨hfound, hnames, hfiles⟩ := hall path (List.mem_cons_self ..)
  rw [hend] at hfound
  rw [hasked] at hnames hfiles
  refine ⟨hmount, hstarts, hquestion, hhash, hscheme, hhost, hquery, fun url hurl => ?_⟩
  obtain ⟨houtcome, hlookups, hreads⟩ := hall url hurl
  exact ⟨houtcome.trans hfound.symm, hlookups.trans hnames.symm, hreads.trans hfiles.symm⟩

end Resolve

end FrontendAssets
