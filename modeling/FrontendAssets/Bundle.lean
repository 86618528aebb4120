import FrontendAssets.Diagnostic
import FrontendAssets.Files.Volume

/-!
# `FrontendAssets.Bundle`: resources held in memory

A bundle maps the names of resources to their bytes and never changes. It can be loaded from a
directory: every regular file at any depth is a resource, named by its location with slashes, in the
order of the locations. A directory that holds something under a longer path than the system takes
cannot be loaded.
-/

set_option autoImplicit false

namespace FrontendAssets

/-- Resources under their names, in the order in which they are listed. A bundle may be made of any
list, and a name that stands twice is looked up where it stands first. -/
structure Bundle where
  resources : List (Text × Bytes)
  deriving DecidableEq, Repr

namespace Bundle

/-- The bundle without resources, which stands for a program that was given none. -/
def empty : Bundle := ⟨[]⟩

/-- The bytes of a resource. Names are compared character by character, so the name has to be in its
normal form. -/
def lookup (b : Bundle) (name : Text) : Option Bytes := b.resources.lookup name

/-- Whether there is a resource of a name. The name is compared as it stands: letter case, slashes
and all. -/
def contains (b : Bundle) (name : Text) : Bool := (b.lookup name).isSome

/-- The number of resources, and so of their names. -/
def size (b : Bundle) : Nat := b.resources.length

/-- The names of the resources in order, which is the order in which they were loaded. -/
def names (b : Bundle) : List Text := b.resources.map Prod.fst

/-- Why a bundle cannot be loaded: the path leads to no directory, or the system refuses a path. -/
inductive LoadError where
  /-- The path leads to no directory. -/
  | notFolder (path : Path)
  /-- The system refuses the path. -/
  | refused (path : Path) (reason : Refusal)
  deriving DecidableEq, Repr

/-- The wording for a reader. For a refusal it is that of the system. -/
def LoadError.message : LoadError → Text
  | .notFolder path => "Bundle directory not found: ".toList ++ path.text
  | .refused path reason => reason.message path.text

/-- Whether one location comes no later than another, name by name. This is not the order of the
joined names: the slash comes before letters and digits, and behind a hyphen or a dot. -/
def comesBefore (a b : List Text × Bytes) : Bool := !decide (b.1 < a.1)

/-- The files of a tree in the order of their locations. -/
def filesInOrder (t : Tree) : List (List Text × Bytes) := t.files.mergeSort comesBefore

/-- The files of a tree as resources. Folders are resources of no kind, and an empty one leaves no
trace. -/
def ofTree (t : Tree) : Bundle :=
  ⟨(filesInOrder t).map fun (location, content) => (Text.join '/' location, content)⟩

/-- Refuse what stands at a location beneath a directory if the system does not take its path. The
path is spelled as the directory was, so the same directory may be refused under one path and loaded
under another. -/
def checkBeneath (directory : Path) (location : List Text) : Except LoadError Unit :=
  let path := directory.append ⟨.relative, location⟩
  (Volume.checkText path).mapError (.refused path)

/-- Load a directory from what the system says it holds. A path that leads to no directory is one
error, whatever the reason, but for a name that the system does not take. -/
def ofListing (p : Path) : Except Refusal Tree → Except LoadError (Noted Bundle)
  | .ok inside => do
    -- The folders are listed before any file is read.
    inside.folders.forM (checkBeneath p)
    (filesInOrder inside).forM fun (location, _) => checkBeneath p location
    let bundle := ofTree inside
    return { value := bundle, notes := [.loaded bundle.size p] }
  | .error .nameTooLong => .error (.refused p .nameTooLong)
  | .error _ => .error (.notFolder p)

/-- Load the directory at a path: list it, check the paths of what was listed, and name each file by
its location. However deep the directories are nested, the listing does not run out of anything; the
machine's own resources are not modelled. -/
def ofFolder (v : Volume) (p : Path) : Except LoadError (Noted Bundle) :=
  ofListing p (v.list p)

end Bundle

end FrontendAssets
