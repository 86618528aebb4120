import FrontendAssets.Text.Lowercase
import FrontendAssets.Url.Authority

/-!
# `FrontendAssets.Url.Reference`: an address taken apart

A reference has a scheme, an authority, a path, a query and a fragment, each of which may be empty.
Control characters and spaces in front are dropped, tabs and line breaks are dropped wherever they
stand, and the scheme is lowered. Only the authority can make a reference invalid.
-/

set_option autoImplicit false

namespace FrontendAssets

/-- The five parts of an address; a part that is not there is empty. An address with an empty part
therefore looks like one without it, as with `path?` and `path`. -/
structure Reference where
  scheme : Text
  authority : Text
  path : Text
  query : Text
  fragment : Text
  deriving DecidableEq, Repr

namespace Reference

/-- Letters, digits and three marks. A scheme begins with a letter, so none of the others makes one
by itself. -/
def isSchemeChar (c : Char) : Bool :=
  c.isAlphanum || c == '+' || c == '-' || c == '.'

/-- The blanks that are dropped in front: the space and everything below it, NUL included. -/
def isLeadingBlank (c : Char) : Bool := c.toNat ≤ 0x20

/-- The breaks that are dropped everywhere, also in the middle of a scheme or an authority. -/
def isBreak (c : Char) : Bool := c == '\t' || c == '\r' || c == '\n'

/-- The text that is taken apart. What is dropped here is dropped for good: no part of the reference
has it, and a diagnostic shows the address as it was written instead. -/
def visible (t : Text) : Text :=
  (t.dropWhile isLeadingBlank).filter fun c => !isBreak c

/-- The lowered scheme and the rest. Without a colon, or with something else than a scheme in front
of it, there is no scheme. A Windows drive letter is a scheme by these rules, and so is the `a` of
`a:b`. -/
def cutScheme (t : Text) : Text × Text :=
  match Text.cut ':' t with
  | (first :: more, some rest) =>
    if first.isAlpha && more.all isSchemeChar then (Text.lower (first :: more), rest) else ([], t)
  | _ => ([], t)

/-- Ends an authority. A backslash does not, since the standard gives it no meaning. -/
def endsAuthority (c : Char) : Bool := c == '/' || c == '?' || c == '#'

/-- The authority, which two slashes announce, and the rest. The slashes are no part of it, and an
authority may be empty, as in the address of a local file. -/
def cutAuthority : Text → Text × Text
  | '/' :: '/' :: rest =>
    (rest.takeWhile fun c => !endsAuthority c, rest.dropWhile fun c => !endsAuthority c)
  | t => ([], t)

/-- Take an address apart. The fragment is cut off before the query, so a question mark behind `#`
belongs to the fragment. Only the authority is ever checked, and everything else is taken as it
stands. -/
def parse (t : Text) : Except Authority.Invalid Reference := do
  let (scheme, afterScheme) := cutScheme (visible t)
  let (authority, afterAuthority) := cutAuthority afterScheme
  let (beforeFragment, fragment) := Text.cut '#' afterAuthority
  let (path, query) := Text.cut '?' beforeFragment
  Authority.check authority
  return { scheme, authority, path, query := query.getD [], fragment := fragment.getD [] }

end Reference

end FrontendAssets
