import FrontendAssets.Text.Lowercase
import FrontendAssets.Url.Reference

/-!
# `FrontendAssets.MediaType`: content types by file extension

A frontend ships few kinds of files, so a fixed table of endings decides, in any letter case; the
first row with a fitting ending wins.
-/

set_option autoImplicit false

namespace FrontendAssets.MediaType

/-- The type of everything that the table does not list, names without an extension among them. -/
def fallback : Text := "text/html".toList

/-- The endings of each type. No ending is the end of another one, so the order of the rows decides
nothing (`FrontendAssets.Proofs.MediaType.Extension`). -/
def table : List (List Text × Text) := [
  ([".html".toList], "text/html".toList),
  ([".css".toList], "text/css".toList),
  ([".js".toList, ".mjs".toList], "application/javascript".toList),
  ([".png".toList], "image/png".toList),
  ([".map".toList], "application/json".toList),
  ([".ts".toList], "application/x-typescript".toList),
  ([".gif".toList], "image/gif".toList),
  ([".svg".toList], "image/svg+xml".toList),
  ([".manifest".toList], "text/cache-manifest".toList)]

/-- The type of the first row with an ending of `name`, which is in small letters. The rows are a
parameter, so that what is said about the table can be said about any order of its rows. -/
def scan (rows : List (List Text × Text)) (name : Text) : Text :=
  match rows.find? fun row => row.1.any fun ending => ending.isSuffixOf name with
  | some (_, type) => type
  | none => fallback

/-- The content type of a file by its name, in any letter case. Only the end of the name matters, so
a whole path may be given as well. -/
def ofFilename (name : Text) : Text := scan table (Text.lower name)

/-- The content type of the last path segment of an address. The address is not decoded, so an
escaped ending is not seen, and a malformed address has the type of pages. -/
def ofUrl (url : Text) : Text :=
  match Reference.parse url with
  | .error _ => fallback
  | .ok parts => ofFilename (Text.afterLast '/' parts.path)

/-! ## Laws -/

/-- The content type of an address that can be taken apart. -/
theorem ofUrl_of_parse {url : Text} {parts : Reference} (h : Reference.parse url = .ok parts) :
    ofUrl url = ofFilename (Text.afterLast '/' parts.path) := by
  unfold ofUrl
  rw [h]

end FrontendAssets.MediaType
