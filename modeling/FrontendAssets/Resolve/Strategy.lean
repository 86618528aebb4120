import FrontendAssets.Config.Basic
import FrontendAssets.Request.ServeMarker
import FrontendAssets.Request.Target
import FrontendAssets.Resolve.Query

/-!
# `FrontendAssets.Resolve.Strategy`: from an address to a resource

A request is handled if its target lies under the mount, both as it was written and in its normal
form. Exactly one strategy then runs: the bundle is asked, a file beneath the override directory is
read, or a remote override is recognized and left alone. The paths of the last two lose their serve
markers. Before a file is read its path is compared with the override directory once more; a path
outside of it fails the request.
-/

set_option autoImplicit false

namespace FrontendAssets.Resolve

/-- Read a file; take note if that is refused. Whatever the reason is, there are no bytes then, and
the reason is in the diagnostic alone. -/
def fetch (path : Path) : Steps (Option Bytes) := do
  match ← (Plan.query (Query.read path) : Steps (Except Refusal Bytes)) with
  | .ok content => return some content
  | .error reason =>
    note (.unreadable path (reason.message path.text))
    return none

/-- Look a resource up in the bundle. The name that was looked up is reported in either case. -/
def fromBundle (name mediaType : Text) : Steps Resolution := do
  match ← (Plan.query (Query.lookup name) : Steps (Option Bytes)) with
  | some content => return { outcome := .bundled, body := some content, mediaType, path := name }
  | none =>
    note (.missingResource name)
    return { outcome := .bundleMiss, mediaType, path := name }

/-- The resolution of a file that cannot be had. It has a body, unlike a miss in the bundle. -/
def fileNotFound (relative mediaType : Text) : Resolution :=
  { outcome := .fileNotFound, body := some Resolution.notFoundBody, mediaType, path := relative }

/-- Read a file beneath the directory that a `file` address names. An address without a local path
and an empty path are answered like a missing file; only a path that leads out of the directory is a
failure. -/
def fromFile (url relative mediaType : Text) : Steps Resolution :=
  match FileUrl.toPath url with
  | .error reason => do
    note (.unusableOverride relative reason.message)
    return fileNotFound relative mediaType
  | .ok base =>
    if relative = [] then do
      note (.emptyPath base)
      return fileNotFound relative mediaType
    else
      let path := base.append (Path.ofText relative)
      -- The last line of defence: no clean path fails here.
      if base.isParentOf path then do
        match ← fetch path with
        | some content =>
          return { outcome := .file, body := some content, mediaType, path := relative }
        | none => return fileNotFound relative mediaType
      else .failed ⟨base, path⟩

/-- Recognize a remote override. No connection is made. -/
def fromRemote (url path mediaType : Text) : Steps Resolution := do
  note (.remoteOverride url path)
  return { outcome := .remoteUnsupported, mediaType, path }

/-- Resolve a name under the mount. Exactly one strategy runs, and which one depends on the override
alone. Serve markers are stripped for the last two, and the bundle is asked for the name as it
is. -/
def underMount (o : Override) (name mediaType : Text) : Steps Resolution :=
  match o with
  | .none => fromBundle name mediaType
  | .file url => do
    let relative ← noted (Request.stripMarkers name)
    fromFile url (Request.removeDotSegments relative) mediaType
  | .remote url => do
    let path ← noted (Request.stripMarkers name)
    fromRemote url path mediaType

/-- Resolve the address of a request. The content type is told from the address as it was written,
while what is looked up has been decoded and cleaned. -/
def resolve (c : Config) (url : Text) : Steps Resolution := do
  let target ← noted (Request.target url)
  let mediaType := MediaType.ofUrl url
  if Request.startsWith target c.mountHead then
    -- A double dot may lead out of the mount, and an escape may hide it.
    let clean ← noted (Request.cleanPath target)
    if Request.startsWith clean c.mountHead then
      underMount c.override (clean.drop c.mountHead.length) mediaType
    else
      note (.leavesMount target c.mountHead)
      return { outcome := .unhandled, mediaType }
  else return { outcome := .unhandled, mediaType }

end FrontendAssets.Resolve
