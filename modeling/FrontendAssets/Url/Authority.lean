import FrontendAssets.Url.Host

/-!
# `FrontendAssets.Url.Authority`: the part of an address between `//` and the path

An authority is refused when its brackets do not enclose exactly a host, and when one of its
characters is another way to write a delimiter: such a host could be read as two different ones.
`check_of_plain` says that a host of letters, digits, dots and hyphens always passes.

The rules are those of the standard library in release 3.11 with its later security fixes. In the
first releases a bracket only had to have a partner; that what stands in brackets is an address, and
that nothing stands around them but a port, was added by the fixes.
-/

set_option autoImplicit false

namespace FrontendAssets.Authority

/-- What is wrong with an authority. The first reason that applies is the one that is told, and
brackets are looked at first. -/
inductive Invalid where
  /-- Brackets without a partner, or text around them that belongs to no host. -/
  | brackets
  | host (reason : Host.Invalid)
  /-- A character in it has a compatibility form with a delimiter. -/
  | disguised (authority : Text)
  deriving DecidableEq, Repr

/-- The complaint for a reader. The wording is that of the library which takes addresses apart, and
it appears in diagnostics as it is. -/
def Invalid.message : Invalid → Text
  | .brackets => "Invalid IPv6 URL".toList
  | .host reason => reason.message
  | .disguised authority =>
    "netloc '".toList ++ authority
      ++ "' contains invalid characters under NFKC normalization".toList

/-- The characters whose compatibility form (NFKC) holds one of `/`, `?`, `#`, `@` and `:`. -/
def disguisedDelimiters : Text :=
  ['\u2047', '\u2048', '\u2049', '\u2100', '\u2101', '\u2105', '\u2106', '\u2A74', '\uFE13',
    '\uFE16', '\uFE55', '\uFE56', '\uFE5F', '\uFE6B', '\uFF03', '\uFF0F', '\uFF1A', '\uFF1F',
    '\uFF20']

/-- The host of an authority that holds both brackets. Nothing may stand between the user part and
the opening bracket, and only a port after the closing one. Whether the port is a number is not
looked at. -/
def bracketedHost (authority : Text) : Except Invalid Text :=
  let hostAndPort := Text.afterLast '@' authority
  match Text.cut '[' hostAndPort with
  | (before, some bracketed) =>
    if before ≠ [] then .error .brackets
    else
      match Text.cut ']' bracketed with
      | (_, some (c :: _)) =>
        if c = ':' then .ok (Text.cut ']' bracketed).1 else .error .brackets
      | (host, _) => .ok host
  | (_, none) => .ok (Text.cut ':' hostAndPort).1

/-- Accept an authority whose brackets enclose exactly a host. Without brackets there is nothing to
check here, and a bracket alone is refused. -/
def checkBrackets (authority : Text) : Except Invalid Unit :=
  match authority.contains '[', authority.contains ']' with
  | false, false => .ok ()
  | true, true => do
    let host ← bracketedHost authority
    (Host.checkBracketed host).mapError .host
  | _, _ => .error .brackets

/-- Accept an authority without disguised delimiters. The complaint shows the authority as it is,
since the character is the point of it. -/
def checkDisguised (authority : Text) : Except Invalid Unit :=
  if authority.any disguisedDelimiters.contains then .error (.disguised authority) else .ok ()

/-- Accept an authority. Most addresses have none, and the empty authority passes. -/
def check (authority : Text) : Except Invalid Unit := do
  checkBrackets authority
  checkDisguised authority

/-! ## Laws -/

/-- An ASCII authority without brackets passes. Every host that a person would type is of this
kind. -/
theorem check_of_plain {authority : Text}
    (h : ∀ c ∈ authority, c.toNat < 0x80 ∧ c ≠ '[' ∧ c ≠ ']') : check authority = .ok () := by
  have h1 : authority.contains '[' = false := by
    rw [← Bool.not_eq_true, List.contains_iff_mem]; exact fun hm => (h _ hm).2.1 rfl
  have h2 : authority.contains ']' = false := by
    rw [← Bool.not_eq_true, List.contains_iff_mem]; exact fun hm => (h _ hm).2.2 rfl
  have h3 : authority.any disguisedDelimiters.contains = false := by
    rw [← Bool.not_eq_true, List.any_eq_true]
    rintro ⟨c, hc, hd⟩
    have hall : ∀ d ∈ disguisedDelimiters, 0x80 ≤ d.toNat := by simp [disguisedDelimiters]
    exact absurd (hall c (List.contains_iff_mem.mp hd)) (Nat.not_le.mpr (h c hc).1)
  simp only [check, checkBrackets, h1, h2, checkDisguised, h3]
  rfl

end FrontendAssets.Authority
