import FrontendAssets.Files.Refusal
import FrontendAssets.Files.Tree
import FrontendAssets.Path.Basic

/-!
# `FrontendAssets.Files.Volume`: what a file system does with paths

A volume is a tree below the root together with the working directory of the process. A path is
followed name by name: each name has to stand for something in a directory that exists, also where a
later double dot leads back out of it. The root is its own parent. Names are taken byte for byte.

Links, devices and rights are left out: every name can be followed, read and written.
-/

set_option autoImplicit false

namespace FrontendAssets

/-- A file system with a working directory. The working directory is a location, so moving it
elsewhere would change what relative paths mean and nothing else. -/
structure Volume where
  /-- What stands below the root. -/
  root : Tree
  /-- The location of the working directory. -/
  here : List Text
  deriving DecidableEq, Repr

namespace Volume

/-- How many bytes a path may have, counted in the path as it is spelled and not in where it
leads. -/
def pathLimit : Nat := 4095

/-- A volume that holds nothing but the way down to the working directory. -/
def bare (here : List Text) : Volume := ⟨Tree.chain here, here⟩

/-- The path of the working directory, from the root down. -/
def herePath (v : Volume) : Path := ⟨.single, v.here⟩

/-- Where a path begins. Both kinds of roots are the same root here. -/
def start (v : Volume) (p : Path) : List Text :=
  if p.root = .relative then v.here else []

/-- Refuse a path for its text. This comes before anything is looked for, and the null character
comes before the length. -/
def checkText (p : Path) : Except Refusal Unit :=
  if p.text.contains '\x00' then .error .nullCharacter
  else if pathLimit < (Utf8.encode p.text).length then .error .nameTooLong
  else .ok ()

/-- What the folder at a location holds. A file has no entries, which is another refusal than that
of a location at which nothing stands. -/
def folder (v : Volume) (location : List Text) : Except Refusal Tree :=
  match v.root.at? location with
  | some (.folder inside) => .ok inside
  | some (.file _) => .error .notFolder
  | none => .error .missing

/-- Follow names from a location to the location of something that exists. A double dot is followed
only in a directory, so `file/..` is refused though its normal form would be fine. A name that is
too long is refused before it is looked for. -/
def walk (v : Volume) : List Text → List Text → Except Refusal (List Text)
  | location, [] => .ok location
  | location, name :: more => do
    let inside ← v.folder location
    -- At the root there is nothing to drop: the root is its own parent.
    if name = Path.up then v.walk location.dropLast more
    else if Tree.isTooLong name then .error .nameTooLong
    else
      match inside.find? name with
      | none => .error .missing
      | some _ => v.walk (location ++ [name]) more

/-- The location that a path leads to. Its text is checked first, as the system does before it looks
at any directory. -/
def locate (v : Volume) (p : Path) : Except Refusal (List Text) := do
  checkText p
  v.walk (v.start p) p.segments

/-- Read a file. A path that leads to a directory is refused as such. -/
def read (v : Volume) (p : Path) : Except Refusal Bytes := do
  let location ← v.locate p
  match v.root.at? location with
  | some (.file content) => .ok content
  | _ => .error .isFolder

/-- What the directory at a path holds, at any depth. -/
def list (v : Volume) (p : Path) : Except Refusal Tree := do
  let location ← v.locate p
  v.folder location

/-- Write a file, in place of one that stood there before. The directories on the way have to exist.
A path without a name at its end, as `.` and `..` are, stands for a directory. -/
def write (v : Volume) (p : Path) (content : Bytes) : Except Refusal Volume := do
  checkText p
  match p.segments.getLast? with
  | none => .error .isFolder
  | some name =>
    let location ← v.walk (v.start p) p.segments.dropLast
    let inside ← v.folder location
    if name = Path.up then .error .isFolder
    else if Tree.isTooLong name then .error .nameTooLong
    else
      match inside.find? name with
      | some (.folder _) => .error .isFolder
      | _ => .ok { v with root := v.root.change (Tree.put name (.file content)) location }

/-- Follow names from a location and make the folders that are missing. A file on the way is
reported in one way at the end of the path and in another in the middle. -/
def makeWay (v : Volume) : List Text → List Text → Except Refusal Volume
  | _, [] => .ok v
  | location, name :: more => do
    let inside ← v.folder location
    if name = Path.up then v.makeWay location.dropLast more
    else if Tree.isTooLong name then .error .nameTooLong
    else
      match inside.find? name with
      | some (.file _) => .error (if more = [] then .occupied else .notFolder)
      | some (.folder _) => v.makeWay (location ++ [name]) more
      | none =>
        let root := v.root.change (Tree.put name (.folder .empty)) location
        makeWay { v with root } (location ++ [name]) more

/-- Make a directory and those above it, as far as they are missing. A directory that exists is no
error. -/
def makeFolders (v : Volume) (p : Path) : Except Refusal Volume := do
  checkText p
  v.makeWay (v.start p) p.segments

/-- Remove a file, or a directory with all that it holds. The root cannot be removed. -/
def remove (v : Volume) (p : Path) : Except Refusal Volume := do
  let location ← v.locate p
  match location.getLast? with
  | none => .error .isFolder
  | some name => .ok { v with root := v.root.change (Tree.remove name) location.dropLast }

end Volume

end FrontendAssets
