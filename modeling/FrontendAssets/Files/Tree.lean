import FrontendAssets.Text.Utf8

/-!
# `FrontendAssets.Files.Tree`: directories and regular files

A tree is what a directory holds: files and folders under their names, in no particular order. A
location is the list of names that leads down from the tree. `find?_put` and `find?_remove` say what
the two changes do to a lookup, and `WellFormed` is what every file system promises of its names.
-/

set_option autoImplicit false

namespace FrontendAssets

/-- What a directory holds. Entries stand in a row, each with the rest of the row behind it, so that
structural recursion goes along the row and down into the folders at once. -/
inductive Tree where
  | empty
  | file (name : Text) (content : Bytes) (rest : Tree)
  | folder (name : Text) (inside rest : Tree)
  deriving DecidableEq, Repr

/-- What a name stands for: there are directories and regular files, and no links between them. -/
inductive Entry where
  | file (content : Bytes)
  | folder (inside : Tree)
  deriving DecidableEq, Repr

namespace Tree

/-- The names in a tree itself, not in its folders. -/
def names : Tree → List Text
  | .empty => []
  | .file name _ rest => name :: rest.names
  | .folder name _ rest => name :: rest.names

/-- What a name stands for. Where a name stands twice the first one counts, but in a well-formed
tree no name does. -/
def find? (name : Text) : Tree → Option Entry
  | .empty => none
  | .file n content rest => if n = name then some (.file content) else rest.find? name
  | .folder n inside rest => if n = name then some (.folder inside) else rest.find? name

/-- What stands at a location. The empty location is that of the tree itself, and nothing stands
below a file. -/
def at? : List Text → Tree → Option Entry
  | [], t => some (.folder t)
  | name :: more, t =>
    match t.find? name with
    | some (.folder inside) => at? more inside
    | some (.file content) => if more = [] then some (.file content) else none
    | none => none

/-- The tree with one entry in front. An entry of the same name behind it is not found any more. -/
def cons (name : Text) : Entry → Tree → Tree
  | .file content, rest => .file name content rest
  | .folder inside, rest => .folder name inside rest

/-- Let a name stand for an entry, in place of what it stood for before. A new name goes to the end,
so the order of the others is kept. -/
def put (name : Text) (e : Entry) : Tree → Tree
  | .empty => cons name e .empty
  | .file n content rest => if n = name then cons name e rest else .file n content (rest.put name e)
  | .folder n inside rest =>
    if n = name then cons name e rest else .folder n inside (rest.put name e)

/-- Drop a name with all that it stands for. Every occurrence is dropped, so nothing that stood
behind another can come to light. -/
def remove (name : Text) : Tree → Tree
  | .empty => .empty
  | .file n content rest =>
    if n = name then rest.remove name else .file n content (rest.remove name)
  | .folder n inside rest =>
    if n = name then rest.remove name else .folder n inside (rest.remove name)

/-- Change what the folder at a location holds. If there is no folder at the location nothing is
changed, and callers make sure that there is one. -/
def change (f : Tree → Tree) : List Text → Tree → Tree
  | [], t => f t
  | name :: more, t =>
    match t.find? name with
    | some (.folder inside) => t.put name (.folder (change f more inside))
    | _ => t

/-- Every file at any depth with its location. The order is that of the tree and means nothing;
`Bundle.filesInOrder` sorts it. -/
def files : Tree → List (List Text × Bytes)
  | .empty => []
  | .file name content rest => ([name], content) :: rest.files
  | .folder name inside rest =>
    (inside.files.map fun (location, content) => (name :: location, content)) ++ rest.files

/-- The location of every folder at any depth, outer folders first. A folder that holds nothing is
among them. -/
def folders : Tree → List (List Text)
  | .empty => []
  | .file _ _ rest => rest.folders
  | .folder name inside rest => [name] :: (inside.folders.map fun l => name :: l) ++ rest.folders

/-- The tree in which one location leads through folders to nothing: the smallest one in which there
is a working directory. -/
def chain : List Text → Tree
  | [] => .empty
  | name :: more => .folder name (chain more) .empty

/-- How many bytes a name may have; the system refuses longer ones wherever they stand in a path. -/
def nameLimit : Nat := 255

/-- Whether a name has more bytes than a file system takes. Bytes are counted and not characters, so
names in other scripts are too long earlier. -/
def isTooLong (name : Text) : Bool := nameLimit < (Utf8.encode name).length

/-- A name that a file system takes. The two dots are not names of entries, since they stand for the
directory itself and for its parent. -/
def IsName (name : Text) : Prop :=
  name ≠ [] ∧ name ≠ ['.'] ∧ name ≠ ['.', '.'] ∧ '/' ∉ name ∧ '\x00' ∉ name
    ∧ isTooLong name = false

/-- The names of each directory are distinct, and a file system takes each of them. This is what
theorems about volumes assume of the tree below the root. -/
def WellFormed : Tree → Prop
  | .empty => True
  | .file name _ rest => IsName name ∧ name ∉ rest.names ∧ rest.WellFormed
  | .folder name inside rest =>
    IsName name ∧ name ∉ rest.names ∧ inside.WellFormed ∧ rest.WellFormed

/-! ## Laws -/

/-- The entry in front is found first, whatever comes behind it. -/
theorem find?_cons_self (name : Text) (e : Entry) (t : Tree) :
    (cons name e t).find? name = some e := by
  cases e <;> simp [cons, find?]

/-- An entry in front does not hide the other names. -/
theorem find?_cons_of_ne {name other : Text} (h : other ≠ name) (e : Entry) (t : Tree) :
    (cons name e t).find? other = t.find? other := by
  cases e <;> simp [cons, find?, h.symm]

/-- After `put` the name stands for the entry, and every other name for what it stood for. -/
theorem find?_put (name other : Text) (e : Entry) (t : Tree) :
    (t.put name e).find? other = if other = name then some e else t.find? other := by
  -- The name that is put is found at once; any other one is found where it was, as what is put
  -- keeps its place in the list.
  by_cases h : other = name
  · subst h
    rw [if_pos rfl]
    induction t with
    | empty => exact find?_cons_self ..
    | file n content rest ih =>
        rw [put]; split
        · exact find?_cons_self ..
        · rename_i hn; rw [find?, if_neg hn, ih]
    | folder n inside rest _ ih =>
        rw [put]; split
        · exact find?_cons_self ..
        · rename_i hn; rw [find?, if_neg hn, ih]
  · rw [if_neg h]
    induction t with
    | empty => exact find?_cons_of_ne h ..
    | file n content rest ih =>
        rw [put]; split
        · rename_i hn
          rw [find?_cons_of_ne h, find?, if_neg (by rw [hn]; exact Ne.symm h)]
        · rw [find?, find?, ih]
    | folder n inside rest _ ih =>
        rw [put]; split
        · rename_i hn
          rw [find?_cons_of_ne h, find?, if_neg (by rw [hn]; exact Ne.symm h)]
        · rw [find?, find?, ih]

/-- After `remove` the name stands for nothing, and every other name for what it stood for. -/
theorem find?_remove (name other : Text) (t : Tree) :
    (t.remove name).find? other = if other = name then none else t.find? other := by
  -- All entries with the name go, so the search for another one is not cut short by any of them.
  induction t with
  | empty => simp [remove, find?]
  | file n content rest ih =>
      by_cases hn : n = name
      · subst hn
        rw [remove, if_pos rfl, ih, find?]
        by_cases ho : other = n
        · simp [ho]
        · simp [ho, Ne.symm ho]
      · rw [remove, if_neg hn, find?, ih, find?]
        by_cases ho : other = name
        · subst ho; simp [hn]
        · simp [ho]
  | folder n inside rest _ ih =>
      by_cases hn : n = name
      · subst hn
        rw [remove, if_pos rfl, ih, find?]
        by_cases ho : other = n
        · simp [ho]
        · simp [ho, Ne.symm ho]
      · rw [remove, if_neg hn, find?, ih, find?]
        by_cases ho : other = name
        · subst ho; simp [hn]
        · simp [ho]

/-- A location of one name is a name in the tree itself. -/
theorem at?_singleton (name : Text) (t : Tree) : t.at? [name] = t.find? name := by
  rw [at?]
  cases t.find? name with
  | none => rfl
  | some e => cases e <;> rfl

end Tree

end FrontendAssets
