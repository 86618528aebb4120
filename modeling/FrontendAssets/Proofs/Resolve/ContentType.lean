import FrontendAssets.Proofs.Request.Target
import FrontendAssets.Proofs.Resolve.Decomposition

/-!
# `FrontendAssets.Proofs.Resolve.ContentType`: the content type and the name that is served

The content type of a resolution is that of the last segment of the address as it was written, while
the path that is reported has come a long way from there: resolved, decoded, cleaned, and stripped
of markers. Where the last segment stands for a name (`EndsInName`), all of this leads to this very
name, so the content type is that of the resource exactly if the name has the same one written and
decoded (`resolve_mediaType_iff`). An escape among the last characters is enough to miss it
(`resolve_mediaType_misses_escape`).
-/

set_option autoImplicit false

namespace FrontendAssets

open Reference (IsStable withQuery)
open Text (afterLast exchange)

variable {front last path query url : Text}

namespace Resolve

variable {c : Config} {name : Text} {r : Resolution}

/-! ### The name that is served -/

/-- A path of two segments or more whose last one stands for a name: resolving leaves it as it is,
and decoding makes a clean name of it. Backslashes count as slashes. -/
structure EndsInName (path last : Text) : Prop where
  /-- The last segment has a segment in front of it, so its slash is not the one that addresses
  begin with. -/
  exists_front : ∃ front, front ≠ [] ∧ exchange '\\' '/' path = front ++ '/' :: last
  /-- It is one segment. -/
  slash_not_mem : '/' ∉ last
  /-- Resolving leaves it as it is. -/
  isStable : IsStable last
  /-- Decoding makes a clean name of it. -/
  isCleanName : Request.IsCleanName (Percent.decode last)

/-- A slash in front of all segments is not the one in front of the last, so dropping it leaves the
last segment where it is. -/
theorem EndsInName.exists_front_dropStart (h : EndsInName path last) :
    ∃ front, exchange '\\' '/' ((Text.dropStart? ['/'] path).getD path) = front ++ '/' :: last := by
  obtain ⟨front, hne, hfront⟩ := h.exists_front
  by_cases hhead : path.head? = some '/'
  · obtain ⟨more, rfl⟩ := List.head?_eq_some_iff.mp hhead
    obtain ⟨first, rest, rfl⟩ := List.exists_cons_of_ne_nil hne
    rw [Text.dropStart?_cons_self]
    exact ⟨rest, (List.cons.inj hfront).2⟩
  · rw [Text.dropStart?_of_head? hhead]
    exact ⟨front, hfront⟩

/-- The name under the mount ends in the name that the last segment of the address stands for. The
mount is cut off in front of it. -/
theorem afterLast_nameUnderMount {parts : Reference} (hparse : Reference.parse url = .ok parts)
    (hends : EndsInName parts.path last) (h : nameUnderMount c url = some name) :
    afterLast '/' name = Percent.decode last := by
  obtain ⟨first, hclean, -⟩ := exists_first_of_nameUnderMount h
  obtain ⟨front, hfront⟩ := hends.exists_front_dropStart
  -- The path of the target has no other characters than that of the address.
  have hsub : ∀ d ∈ (Text.dropStart? ['/'] parts.path).getD parts.path, d ∈ parts.path := by
    intro d hd
    unfold Text.dropStart? at hd
    split at hd
    · exact (List.drop_suffix _ _).mem hd
    · exact hd
  have hcleaned := Request.afterLast_cleanPath
    (fun d hd => Reference.of_mem_path_or_query hparse (Or.inl (hsub d hd)))
    (fun d hd => Reference.of_mem_path_or_query hparse (Or.inr hd))
    (fun hm => Reference.question_not_mem_path hparse (hsub _ hm)) hfront hends.slash_not_mem
    hends.isStable hends.isCleanName
  have htarget := Request.target_of_parse_eq_ok hparse
  rw [htarget] at hclean
  rw [hclean, Text.afterLast_append_cons_self] at hcleaned
  rcases hcleaned with hnil | hlast
  · -- A clean path with a name under the mount is not empty.
    simp at hnil
  · exact hlast

/-- Only an address that can be taken apart is under the mount: any other one has the empty target,
and no mount is empty. -/
theorem exists_parse_of_nameUnderMount (h : nameUnderMount c url = some name) :
    ∃ parts, Reference.parse url = .ok parts := by
  cases hparse : Reference.parse url with
  | ok parts => exact ⟨parts, rfl⟩
  | error reason =>
      -- The empty target would have to begin with the mount and its slash.
      have hnone : nameUnderMount c url = none := by
        have htarget : (Request.target url).value = [] := by
          unfold Request.target
          rw [hparse]
        rw [nameUnderMount_eq_none_iff, htarget, ← Bool.not_eq_true]
        left
        intro hstarts
        obtain ⟨first, -, htake⟩ : ∃ first : Text, '/' ∉ first
            ∧ ([] : Text).take c.mountHead.length = first ++ ['/'] :=
          Request.exists_take_eq_of_startsWith c.slash_not_mem_mount hstarts
        simp at htake
      rw [hnone] at h
      cases h

/-- Neither markers nor dot segments are sought in the place of a clean name at the end, so each
strategy seeks a path with this name. -/
theorem afterLast_sought (h : Request.IsCleanName (afterLast '/' name)) (o : Override) :
    afterLast '/' (sought o name) = afterLast '/' name := by
  have hstripped := Request.afterLast_stripMarkers name
  cases o with
  | none => rfl
  | file url =>
      rw [← hstripped] at h ⊢
      exact Request.afterLast_removeDotSegments h
  | remote url => exact hstripped

/-- The content type of a resource that was found is that of the last segment of its address as it
was written. If this segment stands for a name, then this is the name of the resource, and its
content type is told right exactly if decoding the name does not change it. -/
theorem resolve_mediaType_iff (answer : (q : Query) → q.Answer)
    (hr : ((resolve c url).run answer).outcome = .ok r)
    (hfound : r.outcome = .bundled ∨ r.outcome = .file) :
    ∃ parts : Reference, Reference.parse url = .ok parts
      ∧ r.mediaType = MediaType.ofFilename (afterLast '/' parts.path)
      ∧ ∀ last, EndsInName parts.path last → afterLast '/' r.path = Percent.decode last
        ∧ (r.mediaType = MediaType.ofFilename (afterLast '/' r.path)
          ↔ MediaType.ofFilename (afterLast '/' parts.path)
            = MediaType.ofFilename (Percent.decode last)) := by
  obtain ⟨found, hfoundRun, htype, hhandled⟩ := exists_resolution answer c url
  obtain rfl := Except.ok.inj (hr.symm.trans hfoundRun)
  obtain ⟨name, hname⟩ : ∃ name, nameUnderMount c url = some name := by
    apply Option.isSome_iff_exists.mp
    rw [← hhandled]
    rcases hfound with h | h <;> simp [Resolution.handled, h]
  obtain ⟨parts, hparse⟩ := exists_parse_of_nameUnderMount hname
  have hmedia := htype.trans (MediaType.ofUrl_of_parse hparse)
  refine ⟨parts, hparse, hmedia, fun last hends => ?_⟩
  -- The path that is reported is the one that was sought for the name under the mount.
  have hlast := afterLast_nameUnderMount hparse hends hname
  have hpath : r.path = sought c.override name := path_of_resolve hr hname
  have hserved : afterLast '/' r.path = Percent.decode last := by
    rw [hpath, afterLast_sought (hlast ▸ hends.isCleanName), hlast]
  exact ⟨hserved, by rw [hserved, hmedia]⟩

/-- A name with an escape that leaves the content type alone. -/
theorem resolve_mediaType_iff_space :
    let url : Text := "bundled/a%20b.js?v=1".toList
    let last : Text := "a%20b.js".toList
    let w : World := ⟨⟨[("a b.js".toList, [7])]⟩, .bare []⟩
    let r : Resolution :=
      ⟨.bundled, some [7], "application/javascript".toList, "a b.js".toList⟩
    ((resolve Config.default url).run w.answer).outcome = .ok r
      ∧ (r.outcome = .bundled ∨ r.outcome = .file)
      ∧ EndsInName ("bundled/".toList ++ last) last
      ∧ r.mediaType = MediaType.ofFilename (afterLast '/' r.path) := by
  intro url last w r
  have hr : ((resolve Config.default url).run w.answer).outcome = .ok r := by decide +kernel
  have hfound : r.outcome = .bundled ∨ r.outcome = .file := Or.inl rfl
  have hdecoded : Percent.decode last = "a b.js".toList := by decide
  have hclean : Request.IsCleanName (Percent.decode last) := by
    rw [hdecoded]
    exact ⟨by decide, by decide, by decide, by decide, by decide⟩
  have hends : EndsInName ("bundled/".toList ++ last) last :=
    ⟨⟨"bundled".toList, by decide, by decide⟩, by decide, by decide, hclean⟩
  obtain ⟨parts, hparse, -, hnames⟩ := resolve_mediaType_iff w.answer hr hfound
  have hurl : Reference.parse url
      = .ok ⟨[], [], "bundled/".toList ++ last, "v=1".toList, []⟩ := by decide +kernel
  obtain rfl := Except.ok.inj (hparse.symm.trans hurl)
  refine ⟨hr, hfound, hends, (hnames last hends).2.mpr ?_⟩
  decide +kernel

/-- An escaped dot in front of the ending hides the ending from the content type. -/
theorem resolve_mediaType_misses_escape :
    let w : World := ⟨⟨[("main.js".toList, [65])]⟩, .bare []⟩
    let r : Resolution := ⟨.bundled, some [65], "text/html".toList, "main.js".toList⟩
    ((resolve Config.default "bundled/main%2Ejs".toList).run w.answer).outcome = .ok r
      ∧ r.mediaType ≠ MediaType.ofFilename (afterLast '/' r.path) := by
  intro w r
  have hserved : MediaType.ofFilename (afterLast '/' r.path)
      = "application/javascript".toList := by decide +kernel
  refine ⟨by decide +kernel, ?_⟩
  rw [hserved]
  decide

end Resolve

end FrontendAssets
