import FrontendAssets.Arguments.Grammar
import FrontendAssets.Diagnostic
import FrontendAssets.Path.FileUrl

/-!
# `FrontendAssets.Config.Override`: what takes the place of the bundle

The frontend that a user names is classified once, when the configuration is made. Requests only
ever look at the class. A value that is no absolute address, because it has no scheme or is
malformed, leaves the bundle in charge and is reported; an empty one does so silently.
-/

set_option autoImplicit false

namespace FrontendAssets

/-- What takes the place of the bundle. The addresses are kept as they were given, and a `file`
address is read again at each request, since what is wrong with it is reported then. -/
inductive Override where
  /-- Nothing: resources come from the bundle. -/
  | none
  /-- A local directory, given as a `file` address. -/
  | file (url : Text)
  /-- A remote site, which is recognized and not asked. -/
  | remote (url : Text)
  deriving DecidableEq, Repr

namespace Override

/-- The scheme of an address; empty for text that is no address. Malformed text and text without a
scheme are not told apart. -/
def schemeOf (value : Text) : Text :=
  match Reference.parse value with
  | .error _ => []
  | .ok parts => parts.scheme

/-- Classify the address of a frontend. Only the empty text and text without a scheme leave the
bundle in charge, and every scheme but `file` counts as remote. -/
def ofText (value : Text) : Noted Override :=
  if value = [] then { value := .none }
  else if schemeOf value = [] then { value := .none, notes := [.ignoredFrontend value] }
  else if schemeOf value = FileUrl.scheme then { value := .file value }
  else { value := .remote value }

/-- Classify what was given for a frontend, if anything was. A switch without a word counts as
nothing given, and nothing is reported about it. -/
def ofGiven : Option Arguments.Value → Noted Override
  | some (.word w) => ofText w
  | _ => { value := .none }

end Override

end FrontendAssets
