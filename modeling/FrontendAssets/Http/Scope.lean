import FrontendAssets.Text.Latin
import FrontendAssets.Url.Percent

/-!
# `FrontendAssets.Http.Scope`: what a server says about a connection

A server describes a connection by a scope, of which any part may be missing. The scope of an HTTP
request has at least a type, a method and a path. From these comes the address of the request below
the place where the application is mounted: still encoded, so that escapes reach the router intact.

The texts of a scope are loose ones, since they are the server's. The address is made of bytes as
they came, or of escapes of the decoded path, and it is always a text. Where the path has to be
escaped, and for the root in any case, half a surrogate pair leaves the request without an address
(`requestUrl`). The path is escaped first, so its halves are what is complained about if both texts
hold some.
-/

set_option autoImplicit false

namespace FrontendAssets

/-- What a server says about a connection. Any part may be missing, and parts that nothing here
reads are left out. -/
structure Scope where
  type : Option LooseText := none
  method : Option LooseText := none
  /-- The decoded path. -/
  path : Option LooseText := none
  /-- The path as it was sent, if the server passes it on. -/
  rawPath : Option Bytes := none
  query : Option Bytes := none
  /-- The decoded path of the place where the application is mounted. -/
  rootPath : Option LooseText := none
  deriving DecidableEq, Repr

/-- A part that a scope lacks, although every scope of its kind has to have it. -/
structure MissingKey where
  key : Text
  deriving DecidableEq, Repr

/-- The complaint for a reader, which is the name of the part in quotes and nothing else. -/
def MissingKey.message (m : MissingKey) : Text := Text.quoted m.key

/-- The scope of an HTTP request, in which the parts that may be missing have their defaults: no
query, and a root that takes nothing off. -/
structure HttpScope where
  type : LooseText
  method : LooseText
  path : LooseText
  rawPath : Option Bytes
  query : Bytes
  rootPath : LooseText
  deriving DecidableEq, Repr

namespace HttpScope

/-- A part that must be there; without it the scope is refused, and the complaint names the part. -/
def require (key : String) : Option LooseText → Except MissingKey LooseText
  | some value => .ok value
  | none => .error ⟨key.toList⟩

/-- Read the scope of an HTTP request; the first missing part is reported. In handling a connection
its type has been read before, so what can be missing there is the method or the path. -/
def ofScope (s : Scope) : Except MissingKey HttpScope := do
  let type ← require "type" s.type
  let method ← require "method" s.method
  let path ← require "path" s.path
  return {
    type, method, path
    rawPath := s.rawPath
    query := s.query.getD []
    rootPath := s.rootPath.getD [] }

/-- The characters that stay as they are when a decoded path is encoded again: those that a path may
hold, and the semicolon among them. -/
def pathSafe : Text := "/:@!$&'()*+,;=~".toList

/-- The characters that stay as they are in the path of the mounted application. It is fewer than
stay in a path, and so a root may not be found again in front of the path that it belongs to. -/
def rootSafe : Text := ['/']

/-- The encoded path: as it was sent, or else the decoded path encoded again. What was sent is taken
byte for byte, whether or not its escapes make sense. -/
def encodedPath (s : HttpScope) : Except Unencodable Text :=
  match s.rawPath with
  | some raw => .ok (Latin.decode raw)
  | none => Percent.encodeLoose pathSafe s.path

/-- What is left of an encoded path below an encoded root. The two are compared by their characters:
a root that the path does not start with changes nothing, and of the root alone a slash is left. -/
def below (root path : Text) : Text :=
  if root = [] then path
  else
    match Text.dropStart? root path with
    | none => path
    | some [] => ['/']
    | some rest => rest

/-- The encoded path below the mounted application. The root is encoded whether or not the path had
to be. -/
def pathBelowRoot (s : HttpScope) : Except Unencodable Text := do
  let path ← s.encodedPath
  let root ← Percent.encodeLoose rootSafe s.rootPath
  return below root path

/-- A path with the query of the request behind it, if there is one. An empty query leaves no
question mark. -/
def withQuery (s : HttpScope) (path : Text) : Text :=
  if s.query = [] then path else path ++ '?' :: Latin.decode s.query

/-- The address of the request below the mounted application, with its query if there is one. There
is none exactly if a text that has to be escaped holds half a surrogate pair. -/
def requestUrl (s : HttpScope) : Except Unencodable Text := s.pathBelowRoot.map s.withQuery

end HttpScope

end FrontendAssets
