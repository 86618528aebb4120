import FrontendAssets.Http.Scope
import FrontendAssets.Proofs.Checks

/-!
# `FrontendAssets.Proofs.Http.Escaped`: which requests have an address

The address of a request is made of texts that are escaped: the decoded path, unless the server says
how it was sent, and the root. Escapes are made of UTF-8, so each of them has to be a text. If one
is not, there is no address, and the complaint is about the path if the path was to be escaped and
is the first that holds half a surrogate pair, and about the root otherwise
(`requestUrl_eq_error_iff`). Bytes as they were sent are never complained about: any row of bytes is
read as a text.
-/

set_option autoImplicit false

namespace FrontendAssets.HttpScope

variable {s : HttpScope} {e : Unencodable}

/-- Why a request has no address. -/
inductive Unescapable (s : HttpScope) (e : Unencodable) : Prop
  /-- The path is to be escaped and is no text. -/
  | path (hraw : s.rawPath = none) (h : s.path.toText = .error e)
  /-- The path does no harm, and the root is no text. -/
  | root (hpath : s.rawPath = none → ∃ path : Text, s.path = path)
    (h : s.rootPath.toText = .error e)

/-- Escaping fails for the same texts as writing them does, and with the same complaint. -/
theorem encodeLoose_eq_error_iff {safe : Text} {t : LooseText} :
    Percent.encodeLoose safe t = .error e ↔ t.toText = .error e :=
  Checks.map_eq_error_iff

/-- The loose texts that can be escaped are the texts. -/
theorem exists_encodeLoose_iff {safe : Text} {t : LooseText} :
    (∃ escaped, Percent.encodeLoose safe t = .ok escaped) ↔ ∃ text : Text, t = text := by
  constructor
  · rintro ⟨escaped, h⟩
    obtain ⟨text, htext, -⟩ := Checks.map_eq_ok_iff.mp h
    exact ⟨text, LooseText.toText_eq_ok_iff.mp htext⟩
  · rintro ⟨text, rfl⟩
    exact ⟨_, Percent.encodeLoose_ofText safe text⟩

/-- There is an encoded path if the path was sent as bytes or is a text. -/
theorem exists_encodedPath_iff :
    (∃ path, s.encodedPath = .ok path) ↔ (s.rawPath = none → ∃ path : Text, s.path = path) := by
  unfold encodedPath
  cases s.rawPath with
  | some raw => simp
  | none => simp [exists_encodeLoose_iff]

/-- There is a complaint about the path only where it has to be escaped and is no text. -/
theorem encodedPath_eq_error_iff :
    s.encodedPath = .error e ↔ s.rawPath = none ∧ s.path.toText = .error e := by
  unfold encodedPath
  cases s.rawPath with
  | some raw => simp
  | none => simp [encodeLoose_eq_error_iff]

/-- A request has no address exactly if a text that is to be escaped holds half a surrogate pair,
and what is complained about is the first run of halves in the first such text. The path is escaped
before the root is looked at, so it comes first. -/
theorem requestUrl_eq_error_iff : s.requestUrl = .error e ↔ s.Unescapable e := by
  have hparts : s.requestUrl = .error e
      ↔ s.encodedPath = .error e
        ∨ ∃ path, s.encodedPath = .ok path ∧ s.rootPath.toText = .error e := by
    rw [requestUrl, Checks.map_eq_error_iff, pathBelowRoot, Checks.bind_eq_error_iff]
    refine or_congr Iff.rfl (exists_congr fun path => and_congr Iff.rfl ?_)
    -- Taking the root off the path cannot fail.
    rw [Checks.bind_eq_error_iff, encodeLoose_eq_error_iff]
    exact or_iff_left fun ⟨_, _, h⟩ => nomatch h
  rw [hparts, encodedPath_eq_error_iff]
  constructor
  · rintro (⟨hraw, h⟩ | ⟨path, hpath, h⟩)
    · exact .path hraw h
    · exact .root (exists_encodedPath_iff.mp ⟨path, hpath⟩) h
  · intro h
    cases h with
    | path hraw h => exact Or.inl ⟨hraw, h⟩
    | root hpath h =>
        obtain ⟨path, hok⟩ := exists_encodedPath_iff.mpr hpath
        exact Or.inr ⟨path, hok, h⟩

/-- So there is an address wherever nothing of this kind is in the way. -/
theorem exists_requestUrl (h : ∀ e, ¬ s.Unescapable e) : ∃ url, s.requestUrl = .ok url := by
  cases hurl : s.requestUrl with
  | ok url => exact ⟨url, rfl⟩
  | error e => exact absurd (requestUrl_eq_error_iff.mp hurl) (h e)

end FrontendAssets.HttpScope
