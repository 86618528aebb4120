import FrontendAssets.Resolve.Outcome
import FrontendAssets.Text.Codec

/-!
# `FrontendAssets.Http.Response`: responses and their changes

A response is a value: each change makes a new one. `ofResolution` makes the response to a handled
request: a resource is served with status 200, a file that cannot be read keeps its small message as
the body of a 404, and everything else is an empty 404.

The texts of a response are loose ones, since a caller may put anything into them. The responses
that the application makes itself have bodies of bytes, and the texts in them are fixed or come from
the table of content types.
-/

set_option autoImplicit false

namespace FrontendAssets

/-- The body of a response. Text is encoded only when the response is sent, so a response with text
that has no encoding can be made and passed around. -/
inductive Body where
  | text (t : LooseText)
  | bytes (b : Bytes)
  deriving DecidableEq, Repr

/-- The bytes of a body. Text is encoded as UTF-8, which refuses halves of surrogate pairs. -/
def Body.toBytes : Body → Except Unencodable Bytes
  | .text t => t.toText.map Utf8.encode
  | .bytes b => .ok b

/-- A response. Its headers are kept in the order in which they were given. -/
structure Response where
  body : Body := .bytes []
  status : Int := 200
  contentType : LooseText := MediaType.fallback
  headers : List (LooseText × LooseText) := []
  deriving DecidableEq, Repr

namespace Response

/-- The response with another status. Any integer will do. -/
def withStatus (r : Response) (status : Int) : Response := { r with status }

/-- The response with one more header, behind those that it has. None of them is replaced, though it
have the same name. -/
def withHeader (r : Response) (name value : LooseText) : Response :=
  { r with headers := r.headers ++ [(name, value)] }

/-- Resources change whenever the frontend is built, so no copy of them may be kept. -/
def cacheControl : LooseText × LooseText := ("Cache-Control".toList, "no-cache".toList)

/-- The response to a handled request. The content type is that of the resolution even where nothing
was found, and the status is told by the outcome alone. -/
def ofResolution (r : Resolution) : Response :=
  let response : Response := { body := .bytes (r.body.getD []), contentType := r.mediaType }
  let response := response.withHeader cacheControl.1 cacheControl.2
  if r.outcome = .bundled ∨ r.outcome = .file then response else response.withStatus 404

/-- The response where nothing answers for an address. It is made without looking at the request. -/
def notFound : Response :=
  { body := .bytes (Utf8.encode "Not Found".toList), status := 404,
    contentType := "text/plain".toList }

end Response

end FrontendAssets
