import FrontendAssets.Path.Normal

/-!
# `FrontendAssets.Path.Basic`: paths of files

A path is a root and the segments after it. Reading a text drops idle segments and keeps double
dots, since what they lead to is for the file system to say. `isParentOf` compares two paths by
their normal forms alone, without asking the file system.
-/

set_option autoImplicit false

namespace FrontendAssets

/-- A path to a file or directory. Segments are kept as they were written, double dots included;
`ofText` drops only the idle ones. -/
structure Path where
  root : Root
  segments : List Text
  deriving DecidableEq, Repr

namespace Path

/-- Read a path. Two paths that differ in idle segments alone are read as the same one. -/
def ofText (t : Text) : Path :=
  ⟨Root.ofText t, (Text.splitOn '/' t).filter fun segment => !isIdle segment⟩

/-- Write a path. Reading gives the path back, as long as its segments are ones that reading
keeps. -/
def text (p : Path) : Text := textOf p.root p.segments

/-- Go on from `base` along `p`, which leads away from `base` if it has a root of its own. This is
why what is appended to an override directory has to be relative. -/
def append (base p : Path) : Path :=
  if p.root = .relative then ⟨base.root, base.segments ++ p.segments⟩ else p

/-- The normal form of a path, read from its text. It says where the path leads in a file system
without links. -/
def normal (p : Path) : Path := ofText (normalize p.text)

/-- Whether `child` is `parent` or lies beneath it, segment by segment. Both are taken as they
stand, and a double dot in `child` counts as one more segment. -/
def reaches (parent child : Path) : Bool :=
  parent.root == child.root && parent.segments.isPrefixOf child.segments

/-- Whether `parent` lies strictly above `child`, by their normal forms. A relative normal form may
begin with double dots, and these count as segments beneath the directory in front of them: the
parent `.` has no segments, so it lies above `..` by this test (`Path.Climbs`). -/
def isParentOf (parent child : Path) : Bool :=
  child.normal != parent.normal && reaches parent.normal child.normal

end Path

end FrontendAssets
