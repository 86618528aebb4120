import FrontendAssets.Diagnostic
import FrontendAssets.Http.Response
import FrontendAssets.Text.Latin

/-!
# `FrontendAssets.Http.Message`: a response as messages

A response is sent as two messages, its start and its body. Everything is encoded before anything is
sent, so a header or a body that has no encoding sends nothing: `encoded` is the whole of what is
sent, or the first complaint. Headers come before the body in this, and a body that the status
forbids is not even encoded.

The length is that of the body even where the body itself is not sent, as in the answer to a HEAD
request; some statuses have no body at all.
-/

set_option autoImplicit false

namespace FrontendAssets

/-- What the application sends. The last two acknowledge messages of the lifespan. -/
inductive Message where
  | start (status : Int) (headers : List (Bytes × Bytes))
  | body (content : Bytes)
  | startupComplete
  | shutdownComplete
  deriving DecidableEq, Repr

namespace Response

/-- Whether a status permits a body: neither an informational one, nor 204, nor 304. Numbers that
are no status of the protocol permit one. -/
def permitsBody (status : Int) : Bool :=
  !((100 ≤ status && status < 200) || status == 204 || status == 304)

/-- The body that is counted. Where the status forbids a body it is empty, whatever the response
holds. -/
def payload (r : Response) : Except Unencodable Bytes :=
  if permitsBody r.status then r.body.toBytes else .ok []

/-- A header as bytes, its name in small letters. The name is lowered before it is encoded, so what
counts is whether its lowercase has bytes. -/
def encodeHeader (header : LooseText × LooseText) : Except Unencodable (Bytes × Bytes) := do
  let name ← Latin.encode (LooseText.lower header.1)
  let value ← Latin.encode header.2
  return (name, value)

/-- Headers as bytes, in order; the first that has no encoding is reported. A header that is given
twice is sent twice. -/
def encodeHeaders : List (LooseText × LooseText) → Except Unencodable (List (Bytes × Bytes))
  | [] => .ok []
  | header :: more => do
    let first ← encodeHeader header
    let rest ← encodeHeaders more
    return first :: rest

/-- The bytes of ASCII text. The names of the two headers that every response has, and the digits of
a length, are such text. -/
def ascii (t : Text) : Bytes := Latin.bytes t

/-- What is sent of a response: the headers of its start, and its body. The status needs no
encoding. -/
structure Encoded where
  headers : List (Bytes × Bytes)
  body : Bytes
  deriving DecidableEq, Repr

/-- A response as it is sent: content type, headers in order, length, and the body. The complaints
come in the order in which the parts are encoded, so one about a header hides one about the body. -/
def encoded (r : Response) : Except Unencodable Encoded := do
  let contentType ← Latin.encode r.contentType
  let headers ← encodeHeaders r.headers
  let body ← r.payload
  return {
    headers := (ascii "content-type".toList, contentType) :: headers
      ++ [(ascii "content-length".toList, ascii (Text.ofNat body.length))]
    body }

end Response

end FrontendAssets
