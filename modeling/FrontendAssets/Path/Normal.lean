import FrontendAssets.Text.Basic

/-!
# `FrontendAssets.Path.Normal`: paths without idle segments

A path is normalized by its text alone: empty segments and single dots are dropped, and a double dot
takes back the segment before it. At the top of a rooted path there is nothing to take back; at the
top of a relative one the double dot stays. Exactly two slashes in front are a root of their own.
-/

set_option autoImplicit false

namespace FrontendAssets

/-- Where a path begins. The root is kept apart from the segments, so that no segment has to be an
empty text. -/
inductive Root where
  /-- At the working directory. -/
  | relative
  | single
  /-- Exactly two slashes, which the system may treat in its own way. -/
  | double
  deriving DecidableEq, Repr

namespace Root

/-- The slashes of a root: none, one or two. -/
def text : Root → Text
  | .relative => []
  | .single => ['/']
  | .double => ['/', '/']

/-- The root of a path by the slashes in front; three or more count as one. Only exactly two are a
root of their own, which the standard leaves to the system. -/
def ofText (t : Text) : Root :=
  match (t.takeWhile (· == '/')).length with
  | 0 => .relative
  | 2 => .double
  | _ => .single

end Root

namespace Path

/-- A segment that leads nowhere: empty, or a single dot. Adjacent slashes and slashes at the end
leave such segments. -/
def isIdle (segment : Text) : Bool := segment == [] || segment == ['.']

/-- The segment that leads to the parent directory. It is the one segment that a clean path must not
hold. -/
def up : Text := ['.', '.']

/-- Follow one segment; the segments before it are in reverse order. A double dot takes back what is
nearest, unless that is itself a double dot that was kept, or there is nothing left. -/
def follow (root : Root) (behind : List Text) (segment : Text) : List Text :=
  if isIdle segment then behind
  else if segment ≠ up then segment :: behind
  else
    match behind with
    -- Above the working directory there is a parent to go to, above a root there is none.
    | [] => if root = .relative then [up] else []
    | last :: before => if last = up then up :: behind else before

/-- The text of a path; the working directory itself is a single dot, since the empty text names
nothing. -/
def textOf (root : Root) (segments : List Text) : Text :=
  match root.text ++ Text.join '/' segments with
  | [] => ['.']
  | t => t

/-- The normal form of a path. It is made from the text alone, so where a link stands behind a name
it may lead elsewhere than the path did. -/
def normalize (t : Text) : Text :=
  let root := Root.ofText t
  textOf root ((Text.splitOn '/' t).foldl (follow root) []).reverse

end Path

end FrontendAssets
