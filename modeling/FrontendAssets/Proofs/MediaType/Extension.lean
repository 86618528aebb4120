import FrontendAssets.MediaType
import FrontendAssets.Proofs.Text.Segments
import Mathlib.Data.List.Find
import Mathlib.Data.List.Lattice
import Mathlib.Data.List.Nodup
import Mathlib.Data.List.Pairwise

/-!
# `FrontendAssets.Proofs.MediaType.Extension`: the type of an extension

A content type is found by trying the endings of the table one after the other. `scan_eq_lookUp`
says that this is looking up the extension of the name, the text behind its last dot, and
`subsingleton_fits` that one row fits at most, so that their order does not matter (`scan_perm`).
Both hold of every table whose endings are a dot and an extension without dots, each extension being
listed once (`IsTable`). A row that is added has to keep this and nothing else; endings without a
dot in front, or with another one inside, could overlap.
-/

set_option autoImplicit false

namespace FrontendAssets.MediaType

open Text (afterLast)

/-- The extensions of a row: its endings without the dot. -/
def extensions (row : List Text × Text) : List Text := row.1.map (List.drop 1)

/-- The table by extensions: each of them with its type, in the order of the rows. -/
def dictionary (rows : List (List Text × Text)) : List (Text × Text) :=
  rows.flatMap fun row => (extensions row).map fun extension => (extension, row.2)

/-- What stands behind the last dot of a name, if it has a dot. A name that ends in a dot has the
empty extension, which is not the same as having none. -/
def extension? (name : Text) : Option Text :=
  if '.' ∈ name then some (afterLast '.' name) else none

/-- The type of the extension of a name; the fallback if there is none or it is not listed. -/
def lookUp (rows : List (List Text × Text)) (name : Text) : Text :=
  ((extension? name).bind fun extension => (dictionary rows).lookup extension).getD fallback

/-- Whether a row has an ending of a name. -/
def fits (name : Text) (row : List Text × Text) : Bool :=
  row.1.any fun ending => ending.isSuffixOf name

/-- A dot and an extension without dots. Endings of this shape are told apart by the extension
alone, which endings such as `.min.js` and `.js` are not. -/
def IsEnding (ending : Text) : Prop := ending.head? = some '.' ∧ '.' ∉ ending.drop 1

/-- What a table has to be: a list of endings, each with its own extension. The property is decided
for a table of fixed rows, so that a row that breaks it is noticed at once. -/
structure IsTable (rows : List (List Text × Text)) : Prop where
  /-- Each ending is a dot and an extension without dots. -/
  isEnding : ∀ row ∈ rows, ∀ ending ∈ row.1, IsEnding ending
  /-- No extension is listed twice, neither within a row nor by two of them. -/
  nodup : (rows.flatMap extensions).Nodup

/-- The table of the library is one. All that is said of tables below can be said of it. -/
theorem isTable_table : IsTable table where
  isEnding := by
    unfold IsEnding
    decide
  nodup := by decide

variable {rows others : List (List Text × Text)} {row : List Text × Text} {extension : Text}

/-! ### One row -/

/-- A dot and an extension end a name exactly if this is its extension. -/
theorem isSuffix_iff_extension? (h : '.' ∉ extension) (name : Text) :
    '.' :: extension <:+ name ↔ extension? name = some extension := by
  unfold extension?
  constructor
  · rintro ⟨front, rfl⟩
    rw [if_pos (by simp), Text.afterLast_append_cons h]
  · intro hext
    split at hext
    · rename_i hdot
      obtain ⟨front, hfront⟩ := Text.exists_eq_append_afterLast hdot
      rw [Option.some.inj hext] at hfront
      exact ⟨front, hfront.symm⟩
    · cases hext

/-- A row fits a name exactly if it lists its extension. The left side tries one ending after the
other, the right side looks at the name once. -/
theorem fits_iff (h : ∀ ending ∈ row.1, IsEnding ending) (name : Text) :
    fits name row = true ↔ ∃ extension ∈ extensions row, extension? name = some extension := by
  have hending : ∀ ending ∈ row.1,
      (ending.isSuffixOf name = true ↔ extension? name = some (ending.drop 1)) := by
    intro ending hmem
    obtain ⟨hhead, hfree⟩ := h ending hmem
    -- The ending is its dot and its extension.
    obtain ⟨extension, rfl⟩ := List.head?_eq_some_iff.mp hhead
    rw [List.isSuffixOf_iff_suffix]
    exact isSuffix_iff_extension? hfree name
  rw [fits, List.any_eq_true]
  constructor
  · rintro ⟨ending, hmem, hsuffix⟩
    exact ⟨_, List.mem_map_of_mem hmem, (hending ending hmem).mp hsuffix⟩
  · rintro ⟨extension, hmem, hname⟩
    obtain ⟨ending, hlisted, rfl⟩ := List.mem_map.mp hmem
    exact ⟨ending, hlisted, (hending ending hlisted).mpr hname⟩

/-! ### All rows -/

/-- Trying the rows in turn is finding the first that fits and taking its type, or the fallback if
there is none. -/
theorem scan_eq (rows : List (List Text × Text)) (name : Text) :
    scan rows name = ((rows.find? (fits name)).map Prod.snd).getD fallback := by
  -- The function that is tried on a row is `fits`, written out.
  have hfits : (fun row : List Text × Text => row.1.any fun ending => ending.isSuffixOf name)
      = fits name := rfl
  unfold scan
  rw [hfits]
  cases rows.find? (fits name) <;> rfl

/-- One row fits a name at most: two of them would both list its extension, and no extension is
listed twice. -/
theorem subsingleton_fits (h : IsTable rows) (name : Text) :
    {row | row ∈ rows ∧ fits name row = true}.Subsingleton := by
  have happart := (List.nodup_flatMap.mp h.nodup).2
  have : Std.Symm (Function.onFun List.Disjoint extensions) :=
    ⟨fun _ _ hdisjoint => List.Disjoint.symm hdisjoint⟩
  rintro row ⟨hrow, hfits⟩ other ⟨hother, hfits'⟩
  obtain ⟨extension, hext, hname⟩ := (fits_iff (h.isEnding row hrow) name).mp hfits
  obtain ⟨extension', hext', hname'⟩ := (fits_iff (h.isEnding other hother) name).mp hfits'
  -- A name has one extension, so it is the same that both list.
  have hsame : extension = extension' := Option.some.inj (hname.symm.trans hname')
  by_contra hne
  exact happart.forall hrow hother hne hext (hsame ▸ hext')

/-- The rows can be tried in any order, since one of them fits at most and any order finds it. -/
theorem scan_perm (h : IsTable rows) (hperm : rows.Perm others) (name : Text) :
    scan rows name = scan others name := by
  rw [scan_eq, scan_eq, List.find?_eq_find?_of_perm hperm (subsingleton_fits h name)]

/-- What one row lists has its type, and nothing else is found in it. -/
theorem lookup_map_type (listed : List Text) (type extension : Text) :
    (listed.map fun extension => (extension, type)).lookup extension
      = if extension ∈ listed then some type else none := by
  induction listed with
  | nil => rfl
  | cons first more ih =>
      rw [List.map_cons, List.lookup_cons, ih]
      by_cases he : extension = first
      · simp [he]
      · simp [he, beq_false_of_ne he]

/-- Looking up an extension is looking for the first row that lists it and taking the type of this
row. -/
theorem lookup_dictionary (rows : List (List Text × Text)) (extension : Text) :
    (dictionary rows).lookup extension
      = (rows.find? fun row => decide (extension ∈ extensions row)).map Prod.snd := by
  induction rows with
  | nil => rfl
  | cons row rows ih =>
      rw [dictionary, List.flatMap_cons, List.lookup_append, lookup_map_type, List.find?_cons]
      by_cases hmem : extension ∈ extensions row
      · simp [hmem]
      · simp only [hmem, if_false, Option.none_or, decide_false]
        exact ih

/-- Trying the endings of the rows in turn is looking up the extension. This needs the shape of the
endings only: where two rows list one extension, both sides take the first of them. -/
theorem scan_eq_lookUp (h : ∀ row ∈ rows, ∀ ending ∈ row.1, IsEnding ending) (name : Text) :
    scan rows name = lookUp rows name := by
  have hfits : ∀ row ∈ rows, fits name row
      = (extension? name).any fun extension => decide (extension ∈ extensions row) := by
    intro row hrow
    rw [Bool.eq_iff_iff, fits_iff (h row hrow), Option.any_eq_true]
    simp only [decide_eq_true_eq, and_comm]
  rw [scan_eq, lookUp, List.find?_congr hfits]
  cases extension? name with
  | none =>
      -- A name without a dot fits no row, since every ending begins with one.
      have hnone : rows.find? (fun _ => false) = none := List.find?_eq_none.mpr (by simp)
      simp only [Option.any_none, hnone, Option.map_none, Option.bind_none]
  | some extension =>
      rw [Option.bind_some, lookup_dictionary]
      rfl

/-- The type of a name is that of its extension in small letters. One row of the table fits a name
at most, so the rows can be tried in any order. -/
theorem ofFilename_eq_lookUp (name : Text) :
    ofFilename name = lookUp table (Text.lower name)
      ∧ {row | row ∈ table ∧ fits (Text.lower name) row = true}.Subsingleton
      ∧ ∀ rows, table.Perm rows → ofFilename name = scan rows (Text.lower name) := by
  refine ⟨?_, subsingleton_fits isTable_table _, ?_⟩
  · exact scan_eq_lookUp isTable_table.isEnding _
  · intro rows hperm
    exact scan_perm isTable_table hperm _

/-- A name with two dots and capital letters, and the rows tried from below: the last of the two
extensions decides, whatever its letters. -/
theorem ofFilename_eq_lookUp_reversed :
    let name : Text := "Main.min.MJS".toList
    table.Perm table.reverse ∧ ofFilename name = scan table.reverse (Text.lower name)
      ∧ extension? (Text.lower name) = some "mjs".toList
      ∧ ofFilename name = "application/javascript".toList := by
  intro name
  obtain ⟨-, -, horder⟩ := ofFilename_eq_lookUp name
  have hperm : table.Perm table.reverse := (List.reverse_perm table).symm
  exact ⟨hperm, horder _ hperm, by decide, by decide⟩

end FrontendAssets.MediaType
