import FrontendAssets.Http.Scope
import FrontendAssets.Proofs.Request.Quoted

/-!
# `FrontendAssets.Proofs.Http.Address`: addresses of decoded paths

Where a server does not say how a path was sent, its decoded form is escaped again, and the result
is read as an address. More characters than the slash stay as they are in this, and all but one of
them mean nothing in the path of an address, so an escaped clean path is its own target
(`target_encode_pathSafe`). The one is the semicolon, which takes parameters off the last segment.
So the clean path is what resolving leaves of the decoded one (`cleanPath_encode_pathSafe`): the
decoded path itself if its last segment is stable, and a shorter one otherwise
(`cleanPath_encode_pathSafe_cases`).
-/

set_option autoImplicit false

namespace FrontendAssets.HttpScope

open Text (join)

variable {c : Char} {t first last : Text} {names more : List Text}

/-- The slashes of a path stay. -/
theorem slash_mem_pathSafe : '/' ∈ pathSafe := by decide

/-- So do its semicolons, though they mean something in an address. -/
theorem semicolon_mem_pathSafe : ';' ∈ pathSafe := by decide

/-- Its percent signs are escaped, so decoding gives it back. -/
theorem percent_not_mem_pathSafe : '%' ∉ pathSafe := by decide

/-- A path that is escaped again is visible and has neither a query nor a fragment nor
backslashes. -/
theorem plain_of_mem_encode_pathSafe (h : c ∈ Percent.encode pathSafe t) :
    (0x20 < c.toNat ∧ c ≠ '?' ∧ c ≠ '#') ∧ c ≠ '\\' := by
  have hsafe : pathSafe.all (fun d => (0x20 < d.toNat ∧ d ≠ '?' ∧ d ≠ '#') ∧ d ≠ '\\') = true := by
    decide
  have hpath : Percent.isPathChar c = true → (0x20 < c.toNat ∧ c ≠ '?' ∧ c ≠ '#') ∧ c ≠ '\\' :=
    fun hc => ⟨⟨Percent.lt_toNat_of_isPathChar hc, Percent.ne_of_isPathChar hc (by decide),
      Percent.ne_of_isPathChar hc (by decide)⟩, Percent.ne_of_isPathChar hc (by decide)⟩
  rcases Percent.mem_encode h with hc | rfl | ⟨hc, -⟩
  · exact hpath (Percent.isPathChar_of_isUnreserved hc)
  · exact hpath (by decide)
  · exact of_decide_eq_true (List.all_eq_true.mp hsafe c hc)

/-- Where nothing is mounted and only the decoded path is known, the address is this path, escaped
again, with the query behind it. The path is asked to be a text; one with half a surrogate pair has
no address. -/
theorem requestUrl_eq_withQuery {s : HttpScope} {path : Text} (hraw : s.rawPath = none)
    (hpath : s.path = path) (hroot : s.rootPath = []) :
    s.requestUrl = .ok (s.withQuery (Percent.encode pathSafe path)) := by
  have hencoded : s.encodedPath = .ok (Percent.encode pathSafe path) := by
    rw [encodedPath, hraw, hpath]
    exact Percent.encodeLoose_ofText pathSafe path
  rw [requestUrl, pathBelowRoot, hencoded, hroot]
  rfl

/-- The target of a path that is escaped again behind a slash is the escaped path, unless another
slash follows. -/
theorem target_encode_pathSafe_of_head? (h : (Percent.encode pathSafe t).head? ≠ some '/') :
    Request.target (Percent.encode pathSafe ('/' :: t))
      = { value := Percent.encode pathSafe t } := by
  have hchars : ∀ c ∈ Percent.encode pathSafe ('/' :: t), 0x20 < c.toNat ∧ c ≠ '?' ∧ c ≠ '#' :=
    fun c hc => (plain_of_mem_encode_pathSafe hc).1
  have hslash : Percent.encode pathSafe ('/' :: t) = '/' :: Percent.encode pathSafe t :=
    Percent.encode_cons_of_mem slash_mem_pathSafe _
  rw [hslash] at hchars ⊢
  -- The slash in front keeps the text before a colon from being a scheme.
  have hparse := Reference.parse_eq_ofPath hchars
    (@Reference.cutScheme_of_slash [] List.not_mem_nil _)
    (Reference.cutAuthority_cons_slash h)
  rw [Request.target_of_parse hparse, Text.dropStart?_cons_self]
  rfl

/-- The target of a clean path that is escaped again is the path without its slash. -/
theorem target_encode_pathSafe (h : ∀ n ∈ names, Request.IsCleanName n) :
    Request.target (Percent.encode pathSafe ('/' :: join '/' names))
      = { value := Percent.encode pathSafe (join '/' names) } :=
  target_encode_pathSafe_of_head?
    (Request.head?_encode_join h slash_mem_pathSafe percent_not_mem_pathSafe)

/-- The clean path of such a target is what resolving leaves of the path, if the target has no
scheme. Resolving can shorten it by the last segment alone. -/
theorem cleanPath_encode_pathSafe_of_cutScheme (h : ∀ n ∈ first :: more, Request.IsCleanName n)
    (hlast : Request.IsCleanName last)
    (hscheme : Reference.cutScheme (Percent.encode pathSafe (join '/' (first :: more ++ [last])))
      = ([], Percent.encode pathSafe (join '/' (first :: more ++ [last])))) :
    Request.cleanPath (Percent.encode pathSafe (join '/' (first :: more ++ [last])))
      = { value := Request.removeDotSegments (Reference.resolvedPath (first :: more) last) } := by
  have hall : ∀ n ∈ first :: more ++ [last], Request.IsCleanName n :=
    List.forall_mem_append.mpr ⟨h, List.forall_mem_singleton.mpr hlast⟩
  have hparse := Reference.parse_eq_ofPath (fun c hc => (plain_of_mem_encode_pathSafe hc).1) hscheme
    (Reference.cutAuthority_of_head?
      (Request.head?_encode_join hall slash_mem_pathSafe percent_not_mem_pathSafe))
  have horigin : (Reference.ofPath
      (Percent.encode pathSafe (join '/' (first :: more ++ [last])))).pathAtOrigin
        = Percent.encode pathSafe ('/' :: Reference.resolvedPath (first :: more) last) := by
    -- The segments are escaped each for itself, and resolving does not see the escapes.
    have hplain := fun s (hs : s ∈ (first :: more).map (Percent.encode pathSafe)) =>
      Request.plain_of_mem_map_encode h percent_not_mem_pathSafe hs
    rw [Percent.encode_join slash_mem_pathSafe, List.map_append, List.map_singleton,
      Reference.pathAtOrigin_concat (fun s hs => (hplain s hs).1) (fun s hs => (hplain s hs).2)
        (Percent.slash_not_mem_encode hlast.slash_not_mem),
      Reference.resolvedPath_encode slash_mem_pathSafe semicolon_mem_pathSafe
        percent_not_mem_pathSafe,
      Percent.encode_cons_of_mem slash_mem_pathSafe]
  rw [Request.cleanPath_of_parse percent_not_mem_pathSafe
    (fun hm => (plain_of_mem_encode_pathSafe hm).2 rfl) hparse horigin,
    Request.removeDotSegments_cons_slash]

/-- Without a colon in the first segment there is no scheme, so what resolving leaves of the path is
its clean path. -/
theorem cleanPath_encode_pathSafe (h : ∀ n ∈ first :: more, Request.IsCleanName n)
    (hlast : Request.IsCleanName last) (hcolon : ':' ∉ first) :
    Request.cleanPath (Percent.encode pathSafe (join '/' (first :: more ++ [last])))
      = { value := Request.removeDotSegments (Reference.resolvedPath (first :: more) last) } := by
  apply cleanPath_encode_pathSafe_of_cutScheme h hlast
  -- Any colon comes behind the slash of the first segment, too late to end a scheme.
  rw [List.cons_append, Text.join_cons first (by simp), Percent.encode_append,
    Percent.encode_cons_of_mem slash_mem_pathSafe]
  exact Reference.cutScheme_of_slash (Percent.not_mem_encode (by decide) (by decide) hcolon) _

/-- The path that was escaped comes back exactly if its last segment is stable. Otherwise the clean
path is shorter, so it is not the same path by accident. -/
theorem cleanPath_encode_pathSafe_cases (h : ∀ n ∈ first :: more, Request.IsCleanName n)
    (hlast : Request.IsCleanName last) (hcolon : ':' ∉ first) :
    let path := join '/' (first :: more ++ [last])
    let clean := (Request.cleanPath (Percent.encode pathSafe path)).value
    (Reference.IsStable last → clean = path)
      ∧ (¬ Reference.IsStable last → clean.length < path.length) := by
  intro path clean
  have hclean : clean = Request.removeDotSegments (Reference.resolvedPath (first :: more) last) :=
    congrArg Noted.value (cleanPath_encode_pathSafe h hlast hcolon)
  rw [hclean]
  constructor
  · intro hstable
    rw [Reference.resolvedPath_of_isStable hstable]
    exact Request.removeDotSegments_join
      (List.forall_mem_append.mpr ⟨h, List.forall_mem_singleton.mpr hlast⟩)
  · intro hstable
    -- Resolving has made it shorter, and removing dot segments makes nothing longer.
    exact Nat.lt_of_le_of_lt (Request.length_removeDotSegments_le _)
      (Reference.length_resolvedPath_lt hstable _)

end FrontendAssets.HttpScope
