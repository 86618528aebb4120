import FrontendAssets.Diagnostic
import FrontendAssets.Path.Normal
import FrontendAssets.Url.Origin
import FrontendAssets.Url.Percent

/-!
# `FrontendAssets.Request.Target`: from a request address to a clean path

The target of a request is its path without the leading slash, and its query. A target becomes a
clean path in this order: backslashes count as slashes, the target is resolved as a reference at the
root of a site, escapes are decoded once, and dot segments are removed from the decoded text. So an
encoded dot segment counts like a plain one, and no parent segment is left.
-/

set_option autoImplicit false

namespace FrontendAssets.Request

/-- The path of an address without its leading slash, followed by the query if there is one; empty
for a malformed address. Scheme, authority and fragment are dropped, and nothing is decoded. -/
def target (url : Text) : Noted Text :=
  match Reference.parse url with
  | .error _ => { value := [], notes := [.malformedUrl url] }
  | .ok parts =>
    let path := (Text.dropStart? ['/'] parts.path).getD parts.path
    { value := if parts.query = [] then path else path ++ '?' :: parts.query }

/-- Remove the dot segments of a decoded path. Backslashes count as slashes, and the result has no
leading slash. It has none at its end either, and no empty segment. -/
def removeDotSegments (path : Text) : Text :=
  (Path.normalize ('/' :: (Text.exchange '\\' '/' path).dropWhile (· == '/'))).drop 1

/-- The clean path of a target; empty for a malformed one. Dot segments are removed twice, before
decoding and after it, so plain ones are removed first. -/
def cleanPath (target : Text) : Noted Text :=
  match Reference.parse (Text.exchange '\\' '/' target) with
  | .error _ => { value := [], notes := [.malformedPath target] }
  | .ok parts => { value := removeDotSegments (Percent.decode parts.pathAtOrigin) }

end FrontendAssets.Request
