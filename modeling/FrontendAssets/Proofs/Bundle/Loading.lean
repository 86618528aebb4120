import FrontendAssets.Proofs.Bundle
import FrontendAssets.Proofs.Files.Ways

/-!
# `FrontendAssets.Proofs.Bundle.Loading`: what loading a directory comes to

A bundle that is loaded from a directory has a name for every regular file at any depth, and for
nothing else (`HoldsFiles`). The names are listed in the order of the locations, which is not that
of the names: `a/b` stands before `a-b`, since `a` is shorter than `a-b`, although a slash comes
after a hyphen. That the order is strict needs that no file is listed twice (`Tree.nodup_files`),
and that names differ where locations do (`join_injective`).

Loading a directory can fail all the same. The system takes no path beyond a certain length, and
what lies beneath a directory has longer paths than the directory, the longer the more the way to it
was spelled out. `ofFolder_loads` says for every path which of the two it is, and for a path that
leads to no directory, which error.
-/

set_option autoImplicit false

namespace FrontendAssets.Bundle

open Text (join)
open Volume (Fits)

variable {t inside : Tree} {v : Volume} {p : Path} {location : List Text}

/-! ### The order -/

/-- The order by which the files are sorted, without its `Bool`: one comes before another unless its
location is the later one. -/
theorem comesBefore_iff {a b : List Text × Bytes} : comesBefore a b = true ↔ ¬ b.1 < a.1 := by
  rw [comesBefore, Bool.not_eq_true', decide_eq_false_iff_not]

/-- The locations of the files, in the order in which they are loaded. -/
def locations (t : Tree) : List (List Text) := (filesInOrder t).map Prod.fst

/-- The locations are those at which a file stands. -/
theorem mem_locations (ht : t.WellFormed) :
    location ∈ locations t ↔ ∃ content, t.at? location = some (.file content) := by
  rw [locations, List.mem_map]
  constructor
  · rintro ⟨⟨l, content⟩, hfile, rfl⟩
    exact ⟨content, ht.mem_files_iff.mp (mem_filesInOrder.mp hfile)⟩
  · rintro ⟨content, hat⟩
    exact ⟨(location, content), mem_filesInOrder.mpr (ht.mem_files_iff.mpr hat), rfl⟩

/-- No file comes later than those behind it. This is what sorting gives; it leaves open that two
files could have the same place. -/
theorem pairwise_filesInOrder (t : Tree) :
    (filesInOrder t).Pairwise fun a b => comesBefore a b = true := by
  apply List.pairwise_mergeSort
  · intro a b c hab hbc
    have hab := List.not_lt.mp (comesBefore_iff.mp hab)
    have hbc := List.not_lt.mp (comesBefore_iff.mp hbc)
    exact comesBefore_iff.mpr (List.not_lt.mpr (List.le_trans hab hbc))
  · intro a b
    rw [Bool.or_eq_true, comesBefore_iff, comesBefore_iff, List.not_lt, List.not_lt]
    exact List.le_total a.1 b.1

/-- Putting the files in order lists none of them twice, since the tree does not. -/
theorem nodup_locations (ht : t.WellFormed) : (locations t).Nodup :=
  ((List.mergeSort_perm t.files comesBefore).map Prod.fst).nodup_iff.mpr ht.nodup_files

/-- Each location comes strictly before those behind it, from the two lemmas before: it comes no
later, and is another one. -/
theorem pairwise_locations (ht : t.WellFormed) : (locations t).Pairwise (· < ·) := by
  have hsorted : (locations t).Pairwise fun a b => ¬ b < a := by
    rw [locations, List.pairwise_map]
    exact (pairwise_filesInOrder t).imp comesBefore_iff.mp
  refine (hsorted.and (nodup_locations ht)).imp fun {a b} h => ?_
  apply Decidable.byContradiction
  intro hnot
  -- What comes no later and no earlier is the same.
  exact h.2 (List.le_antisymm (List.not_lt.mp h.1) (List.not_lt.mp hnot))

/-- The names with slashes are in another order: a hyphen comes before a slash. -/
example : ["a".toList, "b".toList] < ["a-b".toList] ∧ "a-b".toList < "a/b".toList := by decide

/-! ### What is loaded -/

/-- A bundle that holds each file of a tree under its location, and nothing else. This is what
loading a directory is specified by; it does not mention how the directory was walked or sorted. -/
structure HoldsFiles (b : Bundle) (t : Tree) : Prop where
  /-- The names are the locations with slashes, in strictly increasing order of the locations. -/
  names_eq : ∃ locations : List (List Text),
    (∀ location, location ∈ locations ↔ ∃ content, t.at? location = some (.file content))
      ∧ locations.Pairwise (· < ·) ∧ b.names = locations.map (join '/')
      ∧ b.size = locations.length
  /-- No name stands for two files. -/
  nodup_names : b.names.Nodup
  /-- Under the location of a file, with slashes between its names, are the bytes of this file. -/
  lookup_file : ∀ location content, t.at? location = some (.file content) →
    b.lookup (join '/' location) = some content
  /-- Under any other name is nothing. -/
  lookup_other : ∀ name, (∀ location content, t.at? location = some (.file content) →
    name ≠ join '/' location) → b.lookup name = none

/-- The names of a bundle from a tree are the locations, each joined with slashes. -/
theorem names_ofTree (t : Tree) : (ofTree t).names = (locations t).map (join '/') := by
  rw [names, ofTree, locations, List.map_map, List.map_map]
  rfl

/-- The names on the way to a file are neither idle nor hold a slash. -/
theorem isIdle_of_file {content : Bytes} (ht : t.WellFormed)
    (h : t.at? location = some (.file content)) :
    ∀ n ∈ location, Path.isIdle n = false ∧ '/' ∉ n :=
  isIdle_of_mem_files ht (ht.mem_files_iff.mpr h)

/-- The bundle of a well-formed tree holds its files. Well-formedness is needed throughout: a tree
with two entries of one name, or a name with a slash in it, would list a name twice. -/
theorem holdsFiles_ofTree (ht : t.WellFormed) : HoldsFiles (ofTree t) t where
  names_eq := by
    refine ⟨locations t, fun _ => mem_locations ht, pairwise_locations ht, names_ofTree t, ?_⟩
    rw [size, ofTree, locations, List.length_map, List.length_map]
  nodup_names := by
    rw [names_ofTree, List.Nodup, List.pairwise_map]
    -- Two locations with the same name would be one, and none comes before itself.
    refine (pairwise_locations ht).imp_of_mem fun {a b} ha hb hlt heq => ?_
    obtain ⟨_, ha⟩ := (mem_locations ht).mp ha
    obtain ⟨_, hb⟩ := (mem_locations ht).mp hb
    -- Names that are neither idle nor hold a slash can be told from the joined text.
    have hsame : a = b := join_injective (isIdle_of_file ht ha) (isIdle_of_file ht hb) heq
    exact List.lt_irrefl b (hsame ▸ hlt)
  lookup_file := fun location content h => (lookup_ofTree ht (isIdle_of_file ht h)).mpr h
  lookup_other := by
    intro name hother
    cases hlookup : (ofTree t).lookup name with
    | none => rfl
    | some content =>
        -- What is found under a name is a resource, and these are named after files.
        obtain ⟨before, after, hresources, -⟩ := List.lookup_eq_some_iff.mp hlookup
        have hmem : (name, content) ∈ (ofTree t).resources := by
          rw [hresources]
          exact List.mem_append_right _ (List.mem_cons_self ..)
        obtain ⟨⟨location, c⟩, hfile, heq⟩ := List.mem_map.mp hmem
        cases heq
        have hat := ht.mem_files_iff.mp (mem_filesInOrder.mp hfile)
        exact absurd rfl (hother location content hat)

/-! ### Paths beneath a directory -/

/-- The path of what stands at a location beneath a directory. -/
def beneath (p : Path) (location : List Text) : Path := p.append ⟨.relative, location⟩

/-- The directory itself stands at the empty location beneath it. -/
theorem beneath_nil (p : Path) : beneath p [] = p := by
  rw [beneath, Path.append, if_pos rfl, List.append_nil]

/-- The path of something beneath a directory has no null character: neither have the names on the
way to the directory, since it leads there, nor those beneath it. So the check of a path can fail
for its length only. -/
theorem null_not_mem_beneath {e : Entry} (hroot : v.root.WellFormed)
    (hleads : v.LeadsTo p (.folder inside)) (h : inside.at? location = some e) :
    '\x00' ∉ (beneath p location).text := by
  obtain ⟨goal, hway, hat⟩ := hleads
  apply Volume.null_not_mem_text
  intro n hn
  rw [beneath, Path.append, if_pos rfl] at hn
  rcases List.mem_append.mp hn with hn | hn
  · exact Volume.null_not_mem_of_leads hroot hway n hn
  · exact ((hroot.of_at? hat).isName_of_mem h hn).2.2.2.2.1

/-- What stands beneath a directory passes the check exactly if its path is no longer than the
system takes. -/
theorem checkBeneath_eq_ok_iff_fits {e : Entry} (hroot : v.root.WellFormed)
    (hleads : v.LeadsTo p (.folder inside)) (h : inside.at? location = some e) :
    checkBeneath p location = .ok () ↔ Fits (beneath p location) := by
  rw [checkBeneath_eq_ok_iff]
  show Volume.checkText (beneath p location) = .ok () ↔ _
  rw [Volume.checkText_eq_ok_iff]
  exact and_iff_right (null_not_mem_beneath hroot hleads h)

/-- Otherwise it is refused, and the error names this path and its length as the reason. -/
theorem checkBeneath_of_not_fits {e : Entry} (hroot : v.root.WellFormed)
    (hleads : v.LeadsTo p (.folder inside)) (h : inside.at? location = some e)
    (hlong : ¬ Fits (beneath p location)) :
    checkBeneath p location = .error (.refused (beneath p location) .nameTooLong) := by
  show (Volume.checkText (beneath p location)).mapError _ = _
  rw [Volume.checkText_of_not_fits (null_not_mem_beneath hroot hleads h) hlong]
  rfl

/-- Everything beneath a directory is short enough if the directory itself, its folders and its
files are. The first says what has to hold, the second what the loader looks at. -/
theorem forall_fits_iff (hinside : inside.WellFormed) :
    (∀ location e, inside.at? location = some e → Fits (beneath p location))
      ↔ Fits p ∧ (∀ l ∈ inside.folders, Fits (beneath p l))
        ∧ ∀ file ∈ inside.files, Fits (beneath p file.1) := by
  constructor
  · intro hfits
    refine ⟨?_, fun l hl => ?_, fun file hfile => hfits _ _ (hinside.mem_files_iff.mp hfile)⟩
    · rw [← beneath_nil p]
      exact hfits [] _ (Tree.at?_nil inside)
    · obtain ⟨-, deeper, hat⟩ := hinside.mem_folders_iff.mp hl
      exact hfits l _ hat
  · rintro ⟨hself, hfolders, hfiles⟩ location e hat
    -- The empty location is that of the directory itself, which is listed among neither its folders
    -- nor its files.
    by_cases hnil : location = []
    · rw [hnil, beneath_nil]
      exact hself
    cases e with
    | folder deeper => exact hfolders location (hinside.mem_folders_iff.mpr ⟨hnil, deeper, hat⟩)
    | file content => exact hfiles (location, content) (hinside.mem_files_iff.mpr hat)

/-! ### Loading -/

/-- A row of checks over what stands beneath a directory: everything is short enough and the row
ends well, or something is too long and the row ends with the error about it. The two rows of the
loader are instances of it, one over locations and one over files with their bytes, so the items
have a type of their own. -/
theorem forM_checkBeneath_cases {α : Type} {items : List α} {locationOf : α → List Text}
    (hroot : v.root.WellFormed) (hleads : v.LeadsTo p (.folder inside))
    (hthere : ∀ a ∈ items, ∃ e, inside.at? (locationOf a) = some e) :
    (∀ a ∈ items, Fits (beneath p (locationOf a)))
        ∧ items.forM (fun a => checkBeneath p (locationOf a)) = .ok ()
      ∨ ∃ location e, inside.at? location = some e ∧ ¬ Fits (beneath p location)
        ∧ items.forM (fun a => checkBeneath p (locationOf a))
          = .error (.refused (beneath p location) .nameTooLong) := by
  have hcheck : ∀ a ∈ items, checkBeneath p (locationOf a) = .ok ()
      ↔ Fits (beneath p (locationOf a)) := by
    intro a ha
    obtain ⟨e, hat⟩ := hthere a ha
    exact checkBeneath_eq_ok_iff_fits hroot hleads hat
  by_cases hall : ∀ a ∈ items, checkBeneath p (locationOf a) = .ok ()
  · exact Or.inl ⟨fun a ha => (hcheck a ha).mp (hall a ha), Checks.forM_eq_ok_iff.mpr hall⟩
  · obtain ⟨a, ha, failure, hfailure, herror⟩ := Checks.exists_forM_eq_error hall
    obtain ⟨e, hat⟩ := hthere a ha
    -- The item to blame does not pass its check, and a path that is short enough would.
    have hlong : ¬ Fits (beneath p (locationOf a)) := by
      intro hfits
      rw [(hcheck a ha).mpr hfits] at hfailure
      cases hfailure
    rw [checkBeneath_of_not_fits hroot hleads hat hlong] at hfailure
    cases hfailure
    exact Or.inr ⟨locationOf a, e, hat, hlong, herror⟩

/-- Loading a listing: everything beneath the directory is short enough and it is loaded, or
something is too long and is what loading ends with. The folders come first, then the files, so that
of two paths that are too long a folder's is the one named. -/
theorem ofListing_cases (hroot : v.root.WellFormed) (hleads : v.LeadsTo p (.folder inside)) :
    ((∀ l ∈ inside.folders, Fits (beneath p l)) ∧ (∀ file ∈ inside.files, Fits (beneath p file.1))
        ∧ ofListing p (.ok inside)
          = .ok { value := ofTree inside, notes := [.loaded (ofTree inside).size p] })
      ∨ ∃ location e, inside.at? location = some e ∧ ¬ Fits (beneath p location)
        ∧ ofListing p (.ok inside) = .error (.refused (beneath p location) .nameTooLong) := by
  obtain ⟨goal, -, hat⟩ := id hleads
  have hinside := hroot.of_at? hat
  have hfolders : ∀ l ∈ inside.folders, ∃ e, inside.at? l = some e := by
    intro l hl
    obtain ⟨-, deeper, hdeeper⟩ := hinside.mem_folders_iff.mp hl
    exact ⟨_, hdeeper⟩
  have hfiles : ∀ file ∈ filesInOrder inside, ∃ e, inside.at? file.1 = some e :=
    fun file hfile => ⟨_, hinside.mem_files_iff.mp (mem_filesInOrder.mp hfile)⟩
  -- Two rows of checks, of which the second is reached only if the first ends well.
  rw [ofListing]
  rcases forM_checkBeneath_cases hroot hleads hfolders with
    ⟨hfit, hrow⟩ | ⟨l, e, hl, hlong, hrow⟩
  · rcases forM_checkBeneath_cases hroot hleads hfiles with
      ⟨hfits, hrows⟩ | ⟨l, e, hl, hlong, hrows⟩
    · refine Or.inl ⟨hfit, fun file hfile => hfits file (mem_filesInOrder.mpr hfile), ?_⟩
      rw [hrow]
      show ((filesInOrder inside).forM (fun file => checkBeneath p file.1) >>= _) = _
      rw [hrows]
      rfl
    · refine Or.inr ⟨l, e, hl, hlong, ?_⟩
      rw [hrow]
      show ((filesInOrder inside).forM (fun file => checkBeneath p file.1) >>= _) = _
      rw [hrows]
      rfl
  · refine Or.inr ⟨l, e, hl, hlong, ?_⟩
    rw [hrow]
    rfl

/-- Loading a directory: the same as for its listing, with the directory itself among what may be
too long, as it is listed first of all. -/
theorem ofFolder_cases (hroot : v.root.WellFormed) (hleads : v.LeadsTo p (.folder inside)) :
    ((∀ location e, inside.at? location = some e → Fits (beneath p location))
        ∧ ofFolder v p
          = .ok { value := ofTree inside, notes := [.loaded (ofTree inside).size p] })
      ∨ ∃ location e, inside.at? location = some e ∧ ¬ Fits (beneath p location)
        ∧ ofFolder v p = .error (.refused (beneath p location) .nameTooLong) := by
  by_cases hself : Fits p
  · rw [ofFolder, (Volume.list_eq_ok_iff_leadsTo hroot).mpr ⟨hself, hleads⟩]
    obtain ⟨goal, -, hat⟩ := id hleads
    rcases ofListing_cases hroot hleads with ⟨hfolders, hfiles, hload⟩ | hrefused
    · exact Or.inl ⟨(forall_fits_iff (hroot.of_at? hat)).mpr ⟨hself, hfolders, hfiles⟩, hload⟩
    · exact Or.inr hrefused
  · -- The directory itself is too long to be listed.
    refine Or.inr ⟨[], .folder inside, Tree.at?_nil inside, by rwa [beneath_nil], ?_⟩
    have hrefuses : v.Refuses p := ⟨hleads.null_not_mem hroot, Or.inl hself⟩
    rw [ofFolder, (Volume.list_eq_error_nameTooLong_iff hroot).mpr hrefuses, beneath_nil]
    rfl

/-- Where a path leads to no directory, the error says so, unless the system refuses the path for
its length. -/
theorem ofFolder_of_not_leadsTo (hroot : v.root.WellFormed)
    (hnone : ∀ inside, ¬ v.LeadsTo p (.folder inside)) :
    (v.Refuses p → ofFolder v p = .error (.refused p .nameTooLong))
      ∧ (¬ v.Refuses p → ofFolder v p = .error (.notFolder p)) := by
  constructor
  · intro hrefuses
    rw [ofFolder, (Volume.list_eq_error_nameTooLong_iff hroot).mpr hrefuses]
    rfl
  · intro hnot
    cases hlist : v.list p with
    | ok inside => exact absurd ((Volume.list_eq_ok_iff_leadsTo hroot).mp hlist).2 (hnone inside)
    | error reason =>
        -- The system's reasons other than a length all come out as the one error about the
        -- directory.
        have hother : reason ≠ .nameTooLong := by
          rintro rfl
          exact hnot ((Volume.list_eq_error_nameTooLong_iff hroot).mp hlist)
        rw [ofFolder, hlist]
        cases reason with
        | nameTooLong => exact absurd rfl hother
        | missing => rfl
        | occupied => rfl
        | notFolder => rfl
        | isFolder => rfl
        | nullCharacter => rfl

/-- What loading a path comes to. A path that leads to a directory is loaded, and the bundle holds
its files, unless the directory or something beneath it has a path that is too long: then the
system's error about such a path is passed on. For a path that leads to no directory the error says
so, unless the system refuses the path itself for its length. -/
theorem ofFolder_loads (hroot : v.root.WellFormed) (p : Path) :
    (∀ inside, v.LeadsTo p (.folder inside) →
        ((∀ location e, inside.at? location = some e → Fits (beneath p location))
            ∧ ∃ bundle, HoldsFiles bundle inside
              ∧ ofFolder v p = .ok { value := bundle, notes := [.loaded bundle.size p] })
          ∨ ∃ location e, inside.at? location = some e ∧ ¬ Fits (beneath p location)
            ∧ ofFolder v p = .error (.refused (beneath p location) .nameTooLong))
      ∧ ((∀ inside, ¬ v.LeadsTo p (.folder inside)) →
        (v.Refuses p → ofFolder v p = .error (.refused p .nameTooLong))
          ∧ (¬ v.Refuses p → ofFolder v p = .error (.notFolder p))) := by
  refine ⟨fun inside hleads => ?_, ofFolder_of_not_leadsTo hroot⟩
  obtain ⟨goal, -, hat⟩ := id hleads
  rcases ofFolder_cases hroot hleads with ⟨hfits, hload⟩ | hrefused
  · exact Or.inl ⟨hfits, ofTree inside, holdsFiles_ofTree (hroot.of_at? hat), hload⟩
  · exact Or.inr hrefused

/-- A directory is loaded also where its path leads out of it and back, and its one file beneath a
directory of its own is under the name with a slash. -/
theorem ofFolder_loads_site :
    let inside : Tree :=
      .file "a-b".toList [1] (.folder "a".toList (.file "b".toList [2] .empty) .empty)
    let v : Volume := ⟨.folder "site".toList inside .empty, []⟩
    let p : Path := .ofText "./site/../site/".toList
    v.root.WellFormed ∧ v.LeadsTo p (.folder inside)
      ∧ ∃ bundle, HoldsFiles bundle inside
        ∧ ofFolder v p = .ok { value := bundle, notes := [.loaded bundle.size p] } := by
  intro inside v p
  have hnames : ∀ n ∈ ["site".toList, "a-b".toList, "a".toList, "b".toList], Tree.IsName n := by
    unfold Tree.IsName
    decide
  have hinside : inside.WellFormed :=
    ⟨hnames _ (by decide), by decide, hnames _ (by decide), List.not_mem_nil,
      ⟨hnames _ (by decide), List.not_mem_nil, trivial⟩, trivial⟩
  have hroot : v.root.WellFormed := ⟨hnames _ (by decide), List.not_mem_nil, hinside, trivial⟩
  have hsegments : p.segments = ["site".toList, Path.up, "site".toList] := by decide
  have hleads : v.LeadsTo p (.folder inside) := by
    refine ⟨["site".toList], ?_, rfl⟩
    rw [hsegments]
    exact .down rfl rfl (.up rfl (.down rfl rfl (.here _)))
  have hfits : ∀ location e, inside.at? location = some e → Fits (beneath p location) :=
    (forall_fits_iff hinside).mpr ⟨by decide, by decide, by decide⟩
  -- Nothing in this directory is too long, which leaves one of the two ends.
  have hload := (ofFolder_loads hroot p).1 inside hleads
  exact ⟨hroot, hleads,
    (hload.resolve_right fun ⟨location, e, hat, hlong, _⟩ => hlong (hfits location e hat)).2⟩

/-- Lengths matter. A path that leads to nothing gets another error if it has a name of 256 letters,
and a directory with one file in it is not loaded by a path that leads out of it and back fifteen
times. -/
theorem ofFolder_refuses_lengths :
    let missing : Path := .ofText (List.replicate 256 'x')
    let folder : Text := List.replicate 251 'a'
    let inside : Tree := .file (List.replicate 20 'f') [] .empty
    let v : Volume := ⟨.folder folder inside .empty, []⟩
    let directory : Path :=
      .ofText ((List.replicate 15 (folder ++ "/../".toList)).flatten ++ folder)
    v.root.WellFormed
      ∧ (∀ e, ¬ v.LeadsTo missing e) ∧ ofFolder v missing ≠ .error (.notFolder missing)
      ∧ v.LeadsTo directory (.folder inside) ∧ ∀ loaded, ofFolder v directory ≠ .ok loaded := by
  intro missing folder inside v directory
  have hnames : ∀ n ∈ [folder, List.replicate 20 'f'], Tree.IsName n := by
    unfold Tree.IsName
    decide +kernel
  have hroot : v.root.WellFormed :=
    ⟨hnames _ (List.mem_cons_self ..), List.not_mem_nil,
      ⟨hnames _ (List.mem_cons_of_mem _ (List.mem_cons_self ..)), List.not_mem_nil, trivial⟩,
      trivial⟩
  have hnothing : ∀ e, ¬ v.LeadsTo missing e := by
    have hwalk : (v.walk (v.start missing) missing.segments).toOption = none := by decide +kernel
    rintro e ⟨goal, hleads, -⟩
    rw [(Volume.walk_eq_ok_iff_leads hroot).mpr hleads] at hwalk
    cases hwalk
  have hrefuses : v.Refuses missing := by
    have hsegments : missing.segments = [List.replicate 256 'x'] := by decide +kernel
    refine ⟨by decide +kernel, Or.inr ⟨[], List.replicate 256 'x', [], [], v.root, hsegments, ?_⟩⟩
    exact ⟨.here _, Tree.at?_nil _, by decide +kernel⟩
  have hleads : v.LeadsTo directory (.folder inside) := by
    have hlist : (v.list directory).toOption = some inside := by decide +kernel
    cases h : v.list directory with
    | error reason =>
        rw [h] at hlist
        cases hlist
    | ok listed =>
        rw [h] at hlist
        cases hlist
        exact ((Volume.list_eq_ok_iff_leadsTo hroot).mp h).2
  -- The path of the directory has 4076 bytes, and the name and slash of the file do not fit behind
  -- it.
  have hlong : ¬ Fits (beneath directory [List.replicate 20 'f']) := by decide +kernel
  refine ⟨hroot, hnothing, ?_, hleads, fun loaded hload => ?_⟩
  · rw [(ofFolder_of_not_leadsTo hroot fun inside => hnothing _).1 hrefuses]
    exact fun h => by cases h
  · rcases ofFolder_cases hroot hleads with ⟨hfits, -⟩ | ⟨_, _, -, -, hrefused⟩
    · exact hlong (hfits [List.replicate 20 'f'] (.file []) rfl)
    · rw [hrefused] at hload
      cases hload

end FrontendAssets.Bundle
