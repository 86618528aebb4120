import FrontendAssets.Url.Reference

/-!
# `FrontendAssets.Url.Origin`: the path of a reference at the root of a site

A request path is read as a reference on a page at the root of an `http` site. A reference with
another scheme keeps its own path, one with an authority names another site and keeps its path too,
and any other is resolved against the root: its dot segments are removed, and none of them leads
above the root. An empty parameter list after the last segment is dropped.
-/

set_option autoImplicit false

namespace FrontendAssets.Reference

/-- The scheme of the site. A reference that spells it out is resolved like one that leaves it away,
as long as it names no authority. -/
def siteScheme : Text := "http".toList

/-- The path without the parameters of its last segment, and those parameters. Parameters of other
segments are not looked for, and a semicolon with nothing behind it counts as no parameters. -/
def cutParameters (path : Text) : Text × Text :=
  let (segment, parameters) := Text.cut ';' (Text.afterLast '/' path)
  (Text.throughLast '/' path ++ segment, parameters.getD [])

/-- Put parameters behind a path. Empty ones are not put back, so a semicolon at the end of a path
gets lost between `cutParameters` and here. -/
def withParameters (path parameters : Text) : Text :=
  if parameters = [] then path else path ++ ';' :: parameters

/-- One segment of the path, in reverse order of the segments before it: a double dot takes the
nearest one back, and a single dot does nothing. An empty segment counts like any other, so a double
dot may take back an empty one. -/
def resolveSegment (resolved : List Text) (segment : Text) : List Text :=
  if segment = ['.', '.'] then resolved.drop 1
  else if segment = ['.'] then resolved
  else segment :: resolved

/-- The segments to resolve. Those of a path that begins with a slash stand as they are; others
follow the root, without the empty ones among them. The last segment is kept though it be empty,
since it stands for the slash at the end. -/
def segmentsAtRoot (path : Text) : List Text :=
  let segments := Text.splitOn '/' path
  if path.head? = some '/' then segments
  else
    [] :: segments.dropLast.filter (fun s => !s.isEmpty) ++ segments.drop (segments.length - 1)

/-- Remove the dot segments of a path, and end in a slash where the last segment was one of them. At
the root a double dot finds nothing to take back but the empty segment in front, and the slash is
put back by `fromRoot`. -/
def resolvePath (path : Text) : Text :=
  let segments := segmentsAtRoot path
  let resolved := (segments.foldl resolveSegment []).reverse
  let closed :=
    if segments.getLast? = some ['.'] ∨ segments.getLast? = some ['.', '.'] then resolved ++ [[]]
    else resolved
  Text.join '/' closed

/-- A path with a slash in front, put there if it is missing. -/
def fromRoot (path : Text) : Text :=
  if path.head? = some '/' then path else '/' :: path

/-- The path that a reference names on a page at the root of the site. The three cases are those of
a reference to another kind of resource, to another site, and to this one. -/
def pathAtOrigin (r : Reference) : Text :=
  if r.scheme ≠ [] ∧ r.scheme ≠ siteScheme then r.path
  else
    let (path, parameters) := cutParameters r.path
    if r.authority ≠ [] then withParameters path parameters
    else if path = [] ∧ parameters = [] then ['/']
    else withParameters (fromRoot (resolvePath path)) parameters

end FrontendAssets.Reference
