import FrontendAssets.Bundle
import FrontendAssets.Proofs.Checks
import FrontendAssets.Proofs.Files.Locations
import FrontendAssets.Proofs.Path.Normal

/-!
# `FrontendAssets.Proofs.Bundle`: what a bundle from a directory holds

`lookup_ofTree` is the law of a bundle that was made from a tree: the name of a resource is the
location of its file, with slashes between the names, and nothing else has bytes. It needs the names
of the tree to be free of slashes, as those of a file system are, for otherwise two locations could
share a name. `ofFolder_eq_ok_iff` says when loading ends well and what comes out.
-/

set_option autoImplicit false

namespace FrontendAssets.Bundle

open Text (join)

variable {t : Tree} {names location : List Text} {content : Bytes} {v : Volume} {p : Path}
  {loaded : Noted Bundle}

/-- Putting the files in order neither adds nor drops one. -/
theorem mem_filesInOrder {file : List Text × Bytes} : file ∈ filesInOrder t ↔ file ∈ t.files := by
  unfold filesInOrder
  exact List.mem_mergeSort

/-- Names that are neither idle nor hold a slash can be told from the joined text: splitting it at
the slashes and dropping idle pieces gives them back. Without the condition they could not, since
`a/b` would be one name and two. -/
theorem join_injective {a b : List Text} (ha : ∀ n ∈ a, Path.isIdle n = false ∧ '/' ∉ n)
    (hb : ∀ n ∈ b, Path.isIdle n = false ∧ '/' ∉ n) (h : join '/' a = join '/' b) : a = b := by
  rw [← Path.filter_splitOn_join ha, h, Path.filter_splitOn_join hb]

/-- What is a name in a file system is such a name: neither the empty text nor `.`, and without a
slash. -/
theorem isIdle_of_isName {name : Text} (h : Tree.IsName name) :
    Path.isIdle name = false ∧ '/' ∉ name := by
  obtain ⟨hnil, hdot, -, hslash, -, -⟩ := h
  exact ⟨by simp [Path.isIdle, hnil, hdot], hslash⟩

/-- The location of a file of a well-formed tree consists of names. -/
theorem isIdle_of_mem_files (ht : t.WellFormed) (h : (location, content) ∈ t.files) :
    ∀ n ∈ location, Path.isIdle n = false ∧ '/' ∉ n := by
  intro n hn
  exact isIdle_of_isName (ht.isName_of_mem (ht.mem_files_iff.mp h) hn)

/-- The resources of a bundle that was made from a tree: a name made of path names is among them,
with its bytes, exactly if the tree has a file with these bytes at the location of these names. -/
theorem mem_resources_ofTree (ht : t.WellFormed)
    (hnames : ∀ n ∈ names, Path.isIdle n = false ∧ '/' ∉ n) :
    (join '/' names, content) ∈ (ofTree t).resources ↔ (names, content) ∈ t.files := by
  unfold ofTree
  rw [List.mem_map]
  constructor
  · rintro ⟨⟨location, c⟩, hmem, heq⟩
    obtain ⟨hjoin, rfl⟩ := Prod.mk.inj heq
    have hfile : (location, c) ∈ t.files := mem_filesInOrder.mp hmem
    -- The two locations have one name between them, so they are one location.
    rw [join_injective (isIdle_of_mem_files ht hfile) hnames hjoin] at hfile
    exact hfile
  · intro hfile
    exact ⟨(names, content), mem_filesInOrder.mpr hfile, rfl⟩

/-- A name has bytes in the bundle exactly if a file stands at its location, and then those. A
directory has none, nor has what is missing, nor a location whose way leads through a file. -/
theorem lookup_ofTree (ht : t.WellFormed)
    (hnames : ∀ n ∈ names, Path.isIdle n = false ∧ '/' ∉ n) :
    (ofTree t).lookup (join '/' names) = some content ↔ t.at? names = some (.file content) := by
  have hmem : ∀ c : Bytes, (join '/' names, c) ∈ (ofTree t).resources
      ↔ t.at? names = some (.file c) := by
    intro c
    rw [mem_resources_ofTree ht hnames, ht.mem_files_iff]
  -- What is found is listed, and what is listed stands in the tree. The other way needs that
  -- nothing else is listed under the name, which the tree settles: one entry stands at a location.
  have hfound : ∀ c : Bytes, (ofTree t).lookup (join '/' names) = some c →
      t.at? names = some (.file c) := by
    intro c hc
    obtain ⟨before, after, hres, -⟩ := List.lookup_eq_some_iff.mp hc
    exact (hmem c).mp (by rw [hres]; simp)
  constructor
  · exact hfound content
  · intro hat
    -- Something is found, and it can only be what stands at the location.
    have hsome : ((ofTree t).lookup (join '/' names)).isSome = true :=
      List.lookup_isSome_iff.mpr ⟨_, (hmem content).mpr hat, by simp⟩
    obtain ⟨c, hc⟩ := Option.isSome_iff_exists.mp hsome
    have hsame := hfound c hc
    rw [hat] at hsame
    cases hsame
    exact hc

/-! ### Loading -/

/-- The check of a location beneath a directory, without the wording of its error: the system takes
the path that the directory and the location make. -/
theorem checkBeneath_eq_ok_iff :
    checkBeneath p location = .ok () ↔ Volume.checkText (p.append ⟨.relative, location⟩) = .ok () :=
  Checks.mapError_eq_ok_iff

/-- Loading a directory ends well if it can be listed and the system takes the path of everything in
it. What comes out is made from the listing, with one note about it in the log. -/
theorem ofFolder_eq_ok_iff :
    ofFolder v p = .ok loaded
      ↔ ∃ inside, v.list p = .ok inside
        ∧ (∀ l ∈ inside.folders, checkBeneath p l = .ok ())
        ∧ (∀ file ∈ inside.files, checkBeneath p file.1 = .ok ())
        ∧ loaded = { value := ofTree inside, notes := [.loaded (ofTree inside).size p] } := by
  unfold ofFolder
  cases hlist : v.list p with
  | error reason => cases reason <;> simp [ofListing]
  | ok inside =>
      unfold ofListing
      -- Loading is a row of three steps, so it ends well where each of them does.
      simp only [Checks.bind_eq_ok_iff]
      constructor
      · rintro ⟨⟨⟩, hfolders, ⟨⟩, hfiles, hvalue⟩
        have hvalue := Except.ok.inj hvalue
        have hfiles := Checks.forM_eq_ok_iff.mp hfiles
        exact ⟨inside, rfl, Checks.forM_eq_ok_iff.mp hfolders,
          fun file hf => hfiles file (mem_filesInOrder.mpr hf), hvalue.symm⟩
      · rintro ⟨inside', hsame, hfolders, hfiles, rfl⟩
        -- The listing is the one that was found, as a volume is listed in one way.
        obtain rfl := Except.ok.inj hsame
        have hfiles : ∀ file ∈ filesInOrder inside, checkBeneath p file.1 = .ok () :=
          fun file hf => hfiles file (mem_filesInOrder.mp hf)
        exact ⟨(), Checks.forM_eq_ok_iff.mpr hfolders, (), Checks.forM_eq_ok_iff.mpr hfiles, rfl⟩

end FrontendAssets.Bundle
