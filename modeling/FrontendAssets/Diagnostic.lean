import FrontendAssets.Path.Basic
import FrontendAssets.Text.Decimal
import FrontendAssets.Text.Quoted

/-!
# `FrontendAssets.Diagnostic`: what is reported along the way

A diagnostic is data: what happened, and to what. Its level, the channel it is reported on and its
wording are functions of it, so that statements about a run can count diagnostics without reading
text.
-/

set_option autoImplicit false

namespace FrontendAssets

/-- How much a diagnostic matters. A reader names the level from which on diagnostics are shown. -/
inductive Level where
  | debug
  | info
  | warning
  | error
  deriving DecidableEq, Repr

namespace Level

/-- The name of a level on the command line. -/
def name : Level → Text
  | .debug => "debug".toList
  | .info => "info".toList
  | .warning => "warning".toList
  | .error => "error".toList

/-- The name of a level in front of a diagnostic, in capitals. -/
def label (l : Level) : Text := l.name.map Char.toUpper

/-- The levels in rising order, as the command line lists them for a choice. -/
def all : List Level := [.debug, .info, .warning, .error]

/-- The level with a name. Names are taken as they are spelled, in small letters. -/
def ofName? (t : Text) : Option Level := all.find? fun l => l.name == t

/-- The place of a level in rising order. A diagnostic is shown if its rank is not below that of the
level asked for. -/
def rank : Level → Nat
  | .debug => 0
  | .info => 1
  | .warning => 2
  | .error => 3

end Level

/-- The part of the program that a diagnostic is about. Whoever collects diagnostics may listen to
some parts and not to others. -/
inductive Channel where
  | paths
  | config
  | files
  | bundle
  | router
  | server
  deriving DecidableEq, Repr

/-- The name of a channel, in front of a diagnostic's wording. -/
def Channel.name : Channel → Text
  | .paths => "perch.paths".toList
  | .config => "perch.config".toList
  | .files => "perch.files".toList
  | .bundle => "perch.bundle".toList
  | .router => "perch.router".toList
  | .server => "perch.server".toList

/-- Something worth reporting. A diagnostic carries what its wording mentions and nothing else, so
two reports that read alike are the same diagnostic. -/
inductive Diagnostic where
  /-- A request address could not be taken apart. -/
  | malformedUrl (url : Text)
  /-- A request path could not be taken apart. -/
  | malformedPath (path : Text)
  /-- A serve marker is not followed by a segment and a slash. -/
  | unexpectedFormat (path : Text)
  /-- The value given for a frontend is no absolute address. -/
  | ignoredFrontend (value : Text)
  /-- A file could not be read. -/
  | unreadable (path : Path) (reason : Text)
  /-- A bundle was loaded from a directory. -/
  | loaded (count : Nat) (directory : Path)
  /-- The normal form of a request path lies outside the mount. -/
  | leavesMount (path mountHead : Text)
  /-- The bundle has no such resource. -/
  | missingResource (name : Text)
  /-- The address of the override names no local path. -/
  | unusableOverride (relative reason : Text)
  /-- The request names the override directory itself. -/
  | emptyPath (base : Path)
  /-- The override is remote. -/
  | remoteOverride (url path : Text)
  /-- A request was answered. -/
  | answered (method url outcome : Text) (status : Int)
  /-- A response was sent. -/
  | sent (status : Int) (size : Nat)
  deriving DecidableEq, Repr

namespace Diagnostic

/-- How much a diagnostic matters: a request that cannot be served is a warning, a file that cannot
be read an error, and what only helps to follow a run is for debugging. -/
def level : Diagnostic → Level
  | .malformedUrl _ | .malformedPath _ | .loaded _ _ | .answered .. | .sent .. => .debug
  | .unreadable .. => .error
  | _ => .warning

/-- The part of the program that a diagnostic is about. There is one for each constructor. -/
def channel : Diagnostic → Channel
  | .malformedUrl _ | .malformedPath _ | .unexpectedFormat _ => .paths
  | .ignoredFrontend _ => .config
  | .unreadable .. => .files
  | .loaded .. => .bundle
  | .answered .. | .sent .. => .server
  | .leavesMount .. | .missingResource _ | .unusableOverride .. | .emptyPath _
  | .remoteOverride .. => .router

/-- The wording for a reader. Most texts that come from a request are quoted, so that nothing in
them passes for the wording around it; names that were looked up and addresses stand as they are. -/
def message : Diagnostic → Text
  | .malformedUrl url => "Malformed request URL ".toList ++ Text.quoted url
  | .malformedPath path => "Malformed request path ".toList ++ Text.quoted path
  | .unexpectedFormat path =>
    "Unexpected URL format ".toList ++ Text.quoted path
      ++ ", falling back to the original URL".toList
  | .ignoredFrontend value =>
    "Ignoring custom frontend ".toList ++ Text.quoted value ++ ": not an absolute URL".toList
  | .unreadable path reason =>
    "Failed to read ".toList ++ path.text ++ ": ".toList ++ reason
  | .loaded count directory =>
    "Loaded ".toList ++ Text.ofNat count ++ " bundled resources from ".toList ++ directory.text
  | .leavesMount path mountHead =>
    "Request path ".toList ++ Text.quoted path ++ " leaves ".toList ++ Text.quoted mountHead
      ++ " after normalization".toList
  | .missingResource name =>
    "Unable to find dev tool resource: ".toList ++ name
      ++ (". If the frontend was built separately, pass "
        ++ "--custom-devtools-frontend=file:///path/to/out.").toList
  | .unusableOverride relative reason =>
    "Unable to find DevTools resource ".toList ++ Text.quoted relative ++ ": ".toList ++ reason
  | .emptyPath base =>
    "Unable to find DevTools resource: empty path under ".toList ++ base.text
  | .remoteOverride url path =>
    "Remote custom frontends are not supported: ".toList ++ url ++ " (requested ".toList
      ++ Text.quoted path ++ ")".toList
  | .answered method url outcome status =>
    method ++ " ".toList ++ url ++ " -> ".toList ++ outcome ++ " (".toList ++ Text.ofInt status
      ++ ")".toList
  | .sent status size =>
    "Sent ".toList ++ Text.ofInt status ++ " (".toList ++ Text.ofNat size ++ " bytes)".toList

end Diagnostic

/-- A value, and the diagnostics that arose on the way to it. Making the value takes no part in
reporting: whoever uses it decides when its notes are reported. -/
structure Noted (α : Type) where
  value : α
  notes : List Diagnostic := []
  deriving DecidableEq, Repr

end FrontendAssets
