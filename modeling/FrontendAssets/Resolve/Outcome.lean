import FrontendAssets.MediaType
import FrontendAssets.Path.Basic
import FrontendAssets.Text.Utf8

/-!
# `FrontendAssets.Resolve.Outcome`: what becomes of a request

A resolution tells how a request was resolved, with the bytes, if there are any, the content type
and the canonical path that was looked up. A miss in the bundle has no bytes, while a file that
cannot be read has the bytes of a small message; callers tell the two apart.
-/

set_option autoImplicit false

namespace FrontendAssets

/-- How a request was resolved. There are two ways to have bytes, three ways to have none of one's
own, and the one in which the request is somebody else's. -/
inductive Outcome where
  /-- The address is none of the frontend. -/
  | unhandled
  | bundled
  | bundleMiss
  | file
  | fileNotFound
  | remoteUnsupported
  deriving DecidableEq, Repr

namespace Outcome

/-- Every outcome, in the order of the constructors. A name is looked for among them. -/
def all : List Outcome :=
  [.unhandled, .bundled, .bundleMiss, .file, .fileNotFound, .remoteUnsupported]

/-- The name of an outcome, as the command line prints it. -/
def name : Outcome → Text
  | .unhandled => "unhandled".toList
  | .bundled => "bundled".toList
  | .bundleMiss => "bundle_miss".toList
  | .file => "file".toList
  | .fileNotFound => "file_not_found".toList
  | .remoteUnsupported => "remote_unsupported".toList

/-- A name that is no outcome's, for the complaint about it. -/
structure Unknown where
  name : Text
  deriving DecidableEq, Repr

/-- The complaint for a reader, which quotes the name. -/
def Unknown.message (u : Unknown) : Text :=
  Text.quoted u.name ++ " is not a valid Outcome".toList

/-- The outcome with a name, if there is one; the name is compared as it stands. -/
def ofName (t : Text) : Except Unknown Outcome :=
  match all.find? fun o => o.name == t with
  | some o => .ok o
  | none => .error ⟨t⟩

end Outcome

/-- What became of a request. The parts that an outcome leaves open have their defaults: no body,
the content type of pages, and no path. -/
structure Resolution where
  outcome : Outcome
  body : Option Bytes := none
  mediaType : Text := MediaType.fallback
  /-- The canonical path that was looked up. -/
  path : Text := []
  deriving DecidableEq, Repr

namespace Resolution

/-- Whether the address belongs to the frontend at all. A miss belongs to it too, so it does not
fall through. -/
def handled (r : Resolution) : Bool := r.outcome != .unhandled

/-- The bytes that stand for a file that cannot be read. They look like the beginning of a response
and are sent as the body of one. -/
def notFoundBody : Bytes := Utf8.encode "HTTP/1.1 404 Not Found\n\n".toList

end Resolution

/-- A path beneath the override directory that is not beneath it. Clean paths never lead to one, so
requests never fail in this way. -/
structure Escape where
  base : Path
  path : Path
  deriving DecidableEq, Repr

/-- The complaint for a reader, with both paths as they were compared. -/
def Escape.message (e : Escape) : Text :=
  e.path.text ++ " is not contained in ".toList ++ e.base.text

end FrontendAssets
