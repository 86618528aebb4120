import FrontendAssets.Path.Basic
import FrontendAssets.Url.Percent
import FrontendAssets.Url.Reference

/-!
# `FrontendAssets.Path.FileUrl`: paths in `file` addresses

A `file` address names a path on this machine, so its authority is empty or the local host. The path
is percent-encoded text.
-/

set_option autoImplicit false

namespace FrontendAssets.FileUrl

/-- What keeps an address from naming a local path. The reasons stand in the order in which they are
looked for. -/
inductive Invalid where
  | address (reason : Authority.Invalid)
  | notFile (url : Text)
  | remoteHost (url : Text)
  | noPath (url : Text)
  deriving DecidableEq, Repr

/-- The complaint for a reader about an address that names no local path. -/
def Invalid.message : Invalid → Text
  | .address reason => reason.message
  | .notFile url => "Not a file URL: ".toList ++ Text.quoted url
  | .remoteHost url => "File URL names a remote host: ".toList ++ Text.quoted url
  | .noPath url => "File URL has no path: ".toList ++ Text.quoted url

/-- The scheme of file addresses, in small letters as it comes out of `Reference.parse`. -/
def scheme : Text := "file".toList

/-- The names of this machine in any letter case, and the empty authority. A port or a user in front
of the name makes it another host. -/
def isLocal (authority : Text) : Bool :=
  Text.lower authority == [] || Text.lower authority == "localhost".toList

/-- The path that a `file` address names. Query and fragment are left out of account, and the path
is decoded once, so an escaped slash separates segments. -/
def toPath (url : Text) : Except Invalid Path := do
  let parts ← (Reference.parse url).mapError .address
  if parts.scheme ≠ scheme then throw (.notFile url)
  if !isLocal parts.authority then throw (.remoteHost url)
  if parts.path = [] then throw (.noPath url)
  return Path.ofText (Percent.decode parts.path)

end FrontendAssets.FileUrl
