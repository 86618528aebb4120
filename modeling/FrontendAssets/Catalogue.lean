import FrontendAssets.Text.Quoted

/-!
# `FrontendAssets.Catalogue`: where each public name is defined

Programs that use the frontend by its public names ask this table which component defines a name.
-/

set_option autoImplicit false

namespace FrontendAssets.Catalogue

/-- The public names with the components that define them, grouped by component. -/
def entries : List (String × String) := [
  ("Bundle", "perch.bundle"),
  ("MemoryBundle", "perch.bundle"),
  ("FileOverride", "perch.config"),
  ("FrontendConfig", "perch.config"),
  ("NoOverride", "perch.config"),
  ("RemoteOverride", "perch.config"),
  ("ConfigurationError", "perch.errors"),
  ("PathTraversalError", "perch.errors"),
  ("PerchError", "perch.errors"),
  ("FrontendApp", "perch.app"),
  ("NOT_FOUND_RESPONSE", "perch.files"),
  ("mime_type_for_url", "perch.mime"),
  ("path_without_params", "perch.paths"),
  ("strip_serve_markers", "perch.paths"),
  ("Outcome", "perch.router"),
  ("Resolution", "perch.router"),
  ("ResourceRouter", "perch.router")]

/-- A name that is not public. Names of components and of what they keep to themselves are unknown
too. -/
structure Unknown where
  name : Text
  deriving DecidableEq, Repr

/-- The complaint for a reader, which quotes the name. -/
def Unknown.message (u : Unknown) : Text :=
  "module 'perch' has no attribute ".toList ++ Text.quoted u.name

/-- The component that defines a public name. Names are compared with their letter case. -/
def componentOf (name : Text) : Except Unknown Text :=
  match entries.find? fun entry => entry.1.toList == name with
  | some (_, component) => .ok component.toList
  | none => .error ⟨name⟩

end FrontendAssets.Catalogue
