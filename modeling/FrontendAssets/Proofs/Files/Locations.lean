import FrontendAssets.Files.Tree

/-!
# `FrontendAssets.Proofs.Files.Locations`: what stands at a location

`at?` goes down a tree name by name, and `files` and `folders` list what is there. On a well-formed
tree they say the same (`mem_files_iff`, `mem_folders_iff`): the list holds a file at a location
exactly if going down to the location leads to that file. It holds it once, since no two entries of
a directory share a name (`nodup_files`). `at?_append` splits the way down in two, and a well-formed
tree is well-formed in every folder (`WellFormed.of_at?`), with names on the way that a file system
takes (`WellFormed.isName_of_mem`).
-/

set_option autoImplicit false

namespace FrontendAssets

/-- What stands at a location below an entry. There is nothing below a file. -/
def Entry.at? (more : List Text) : Entry → Option Entry
  | .folder inside => inside.at? more
  | .file content => if more = [] then some (.file content) else none

namespace Tree

variable {t inside rest : Tree} {name : Text} {location : List Text} {content : Bytes} {e : Entry}

/-! ### Going down -/

/-- The tree itself is the folder at the empty location. -/
theorem at?_nil (t : Tree) : t.at? [] = some (.folder t) := by
  rw [at?]

/-- The first name is sought in the tree, and the others below what it stands for. -/
theorem at?_cons (name : Text) (more : List Text) (t : Tree) :
    t.at? (name :: more) = (t.find? name).bind (Entry.at? more) := by
  rw [at?]
  cases t.find? name with
  | none => rfl
  | some e => cases e <;> rfl

/-- The way down to a folder leads through folders. -/
theorem at?_cons_eq_folder_iff {more : List Text} :
    t.at? (name :: more) = some (.folder inside)
      ↔ ∃ deeper, t.find? name = some (.folder deeper)
        ∧ deeper.at? more = some (.folder inside) := by
  rw [at?_cons, Option.bind_eq_some_iff]
  constructor
  · rintro ⟨e, hfind, hmore⟩
    cases e with
    | folder deeper => exact ⟨deeper, hfind, hmore⟩
    | file content =>
        rw [Entry.at?] at hmore
        split at hmore <;> cases hmore
  · rintro ⟨deeper, hfind, hmore⟩
    exact ⟨.folder deeper, hfind, hmore⟩

/-- The way down in two parts. What stands at the end of the first part is where the second one
begins. -/
theorem at?_append (front back : List Text) (t : Tree) :
    t.at? (front ++ back) = (t.at? front).bind (Entry.at? back) := by
  induction front generalizing t with
  | nil => simp [at?_nil, Entry.at?]
  | cons name more ih =>
      rw [List.cons_append, at?_cons, at?_cons]
      cases t.find? name with
      | none => rfl
      | some e =>
          cases e with
          | folder inside => exact ih inside
          | file content =>
              -- Behind a file every way ends, in one part or in two.
              by_cases hmore : more = []
              · subst hmore
                rfl
              · simp [Entry.at?, hmore]

/-- A name that is not among those of the tree stands for nothing. -/
theorem find?_eq_none_of_not_mem (h : name ∉ t.names) : t.find? name = none := by
  induction t with
  | empty => rfl
  | file n content rest ih =>
      rw [names, List.mem_cons, not_or] at h
      rw [find?, if_neg (Ne.symm h.1), ih h.2]
  | folder n inside rest _ ih =>
      rw [names, List.mem_cons, not_or] at h
      rw [find?, if_neg (Ne.symm h.1), ih h.2]

/-! ### Well-formed trees -/

/-- What is found stands under a name that a file system takes. -/
theorem WellFormed.isName_of_find? (ht : t.WellFormed) (h : t.find? name = some e) :
    IsName name := by
  -- The search goes down the list of entries, and so does well-formedness.
  induction t with
  | empty => cases h
  | file n content rest ih =>
      obtain ⟨hn, -, hrest⟩ := ht
      rw [find?] at h
      split at h
      · rename_i he
        exact he ▸ hn
      · exact ih hrest h
  | folder n inside rest _ ih =>
      obtain ⟨hn, -, -, hrest⟩ := ht
      rw [find?] at h
      split at h
      · rename_i he
        exact he ▸ hn
      · exact ih hrest h

/-- A folder in a well-formed tree is well-formed. -/
theorem WellFormed.of_find? (ht : t.WellFormed) (h : t.find? name = some (.folder inside)) :
    inside.WellFormed := by
  induction t with
  | empty => cases h
  | file n content rest ih =>
      rw [find?] at h
      split at h
      · cases h
      · exact ih ht.2.2 h
  | folder n inside' rest _ ih =>
      obtain ⟨-, -, hinside, hrest⟩ := ht
      rw [find?] at h
      split at h
      · cases h
        exact hinside
      · exact ih hrest h

/-- Every folder of a well-formed tree is well-formed, at whatever depth. -/
theorem WellFormed.of_at? (ht : t.WellFormed) (h : t.at? location = some (.folder inside)) :
    inside.WellFormed := by
  induction location generalizing t with
  | nil =>
      rw [at?_nil] at h
      cases h
      exact ht
  | cons name more ih =>
      obtain ⟨deeper, hfind, hmore⟩ := at?_cons_eq_folder_iff.mp h
      exact ih (ht.of_find? hfind) hmore

/-- The names on the way to something are names that a file system takes. -/
theorem WellFormed.isName_of_mem (ht : t.WellFormed) (h : t.at? location = some e)
    (hname : name ∈ location) : IsName name := by
  induction location generalizing t with
  | nil => cases hname
  | cons first more ih =>
      rw [at?_cons] at h
      obtain ⟨e', he, hmore⟩ := Option.bind_eq_some_iff.mp h
      rcases List.mem_cons.mp hname with rfl | hname
      · exact ht.isName_of_find? he
      · cases e' with
        | folder deeper => exact ih (ht.of_find? he) hmore hname
        | file content =>
            rw [Entry.at?, if_neg (List.ne_nil_of_mem hname)] at hmore
            cases hmore

/-! ### The list of files -/

/-- The files of a folder and those of the rest of a tree: the former have the name of the folder in
front of their locations. -/
theorem mem_files_cons_folder (name : Text) (inside rest : Tree) :
    (location, content) ∈ (folder name inside rest).files
      ↔ (∃ more, location = name :: more ∧ (more, content) ∈ inside.files)
        ∨ (location, content) ∈ rest.files := by
  rw [files, List.mem_append, List.mem_map]
  constructor
  · rintro (⟨⟨more, c⟩, hmem, heq⟩ | hmem)
    · cases heq
      exact Or.inl ⟨more, rfl, hmem⟩
    · exact Or.inr hmem
  · rintro (⟨more, rfl, hmem⟩ | hmem)
    · exact Or.inl ⟨(more, content), hmem, rfl⟩
    · exact Or.inr hmem

/-- The list of files holds what stands at each location, and nothing else. The induction is on the
tree, with the location left open, since it loses its first name on the way into a folder. -/
theorem WellFormed.mem_files_iff (ht : t.WellFormed) :
    (location, content) ∈ t.files ↔ t.at? location = some (.file content) := by
  induction t generalizing location with
  | empty =>
      cases location with
      | nil => simp [files, at?_nil]
      | cons first more => simp [files, at?_cons, find?]
  | file name c rest ih =>
      obtain ⟨-, hnew, hrest⟩ := ht
      rw [files, List.mem_cons, ih hrest]
      cases location with
      | nil => simp [at?_nil]
      | cons first more =>
          rw [at?_cons, at?_cons, find?]
          by_cases hfirst : name = first
          · -- The names of the rest are other ones, so only the file in front counts.
            subst hfirst
            rw [find?_eq_none_of_not_mem hnew, if_pos rfl]
            by_cases hmore : more = [] <;> simp [Entry.at?, hmore, eq_comm]
          · rw [if_neg hfirst]
            simp [Ne.symm hfirst]
  | folder name inside rest ih_inside ih_rest =>
      obtain ⟨-, hnew, hinside, hrest⟩ := ht
      rw [mem_files_cons_folder, ih_rest hrest]
      cases location with
      | nil => simp [at?_nil]
      | cons first more =>
          rw [at?_cons, at?_cons, find?]
          by_cases hfirst : name = first
          · subst hfirst
            rw [find?_eq_none_of_not_mem hnew, if_pos rfl]
            simp [Entry.at?, ih_inside hinside]
          · rw [if_neg hfirst]
            simp [Ne.symm hfirst]

/-- A file lies below one of the names of the tree itself. -/
theorem exists_mem_names_of_mem_files (h : (location, content) ∈ t.files) :
    ∃ first more, location = first :: more ∧ first ∈ t.names := by
  induction t generalizing location with
  | empty => cases h
  | file name c rest ih =>
      rw [files] at h
      rcases List.mem_cons.mp h with heq | hrest
      · cases heq
        exact ⟨name, [], rfl, List.mem_cons_self ..⟩
      · obtain ⟨first, more, hlocation, hfirst⟩ := ih hrest
        exact ⟨first, more, hlocation, List.mem_cons_of_mem _ hfirst⟩
  | folder name inside rest _ ih =>
      rcases (mem_files_cons_folder name inside rest).mp h with ⟨more, hlocation, -⟩ | hrest
      · exact ⟨name, more, hlocation, List.mem_cons_self ..⟩
      · obtain ⟨first, more, hlocation, hfirst⟩ := ih hrest
        exact ⟨first, more, hlocation, List.mem_cons_of_mem _ hfirst⟩

/-- No file is below a name that the tree itself does not have. -/
theorem cons_not_mem_map_files (h : name ∉ t.names) (more : List Text) :
    name :: more ∉ t.files.map Prod.fst := by
  intro hmem
  obtain ⟨⟨location, c⟩, hfile, hlocation⟩ := List.mem_map.mp hmem
  obtain ⟨first, others, hfirst, hnames⟩ := exists_mem_names_of_mem_files hfile
  have heads : first :: others = name :: more := hfirst.symm.trans hlocation
  exact h ((List.cons.inj heads).1 ▸ hnames)

/-- Each file is listed once. Two files of one folder differ in their names, and two of different
entries in the first name of their locations. -/
theorem WellFormed.nodup_files (ht : t.WellFormed) : (t.files.map Prod.fst).Nodup := by
  induction t with
  | empty => exact List.nodup_nil
  | file name c rest ih =>
      obtain ⟨-, hnew, hrest⟩ := ht
      rw [files, List.map_cons, List.nodup_cons]
      exact ⟨cons_not_mem_map_files hnew [], ih hrest⟩
  | folder name inside rest ih_inside ih_rest =>
      obtain ⟨-, hnew, hinside, hrest⟩ := ht
      rw [files, List.map_append, List.map_map, List.nodup_append]
      refine ⟨?_, ih_rest hrest, ?_⟩
      · have hbelow := ih_inside hinside
        rw [List.Nodup, List.pairwise_map] at hbelow ⊢
        exact hbelow.imp fun hne heq => hne (List.cons.inj heq).2
      · -- What is below the folder begins with its name, and nothing behind it does.
        intro location hfront other hback heq
        obtain ⟨⟨more, c⟩, -, hlocation⟩ := List.mem_map.mp hfront
        have hlocation : name :: more = location := hlocation
        exact cons_not_mem_map_files hnew more (by rw [hlocation, heq]; exact hback)

/-! ### The list of folders -/

/-- The folders below a folder, the folder itself, and those of the rest of a tree. -/
theorem mem_folders_cons_folder (name : Text) (inside rest : Tree) :
    location ∈ (folder name inside rest).folders
      ↔ (∃ more, location = name :: more ∧ (more = [] ∨ more ∈ inside.folders))
        ∨ location ∈ rest.folders := by
  rw [folders, List.mem_append, List.mem_cons, List.mem_map]
  constructor
  · rintro ((rfl | ⟨more, hmem, rfl⟩) | hmem)
    · exact Or.inl ⟨[], rfl, Or.inl rfl⟩
    · exact Or.inl ⟨more, rfl, Or.inr hmem⟩
    · exact Or.inr hmem
  · rintro (⟨more, rfl, rfl | hmem⟩ | hmem)
    · exact Or.inl (Or.inl rfl)
    · exact Or.inl (Or.inr ⟨more, hmem, rfl⟩)
    · exact Or.inr hmem

/-- The list of folders holds each location that leads down to a folder, but for that of the tree
itself. -/
theorem WellFormed.mem_folders_iff (ht : t.WellFormed) :
    location ∈ t.folders
      ↔ location ≠ [] ∧ ∃ deeper, t.at? location = some (.folder deeper) := by
  -- A location is split into its first name and the rest; the first name is that of the first
  -- entry, or leads into the others.
  induction t generalizing location with
  | empty =>
      cases location with
      | nil => simp [folders]
      | cons first more => simp [folders, at?_cons, find?]
  | file name c rest ih =>
      obtain ⟨-, hnew, hrest⟩ := ht
      rw [folders, ih hrest]
      cases location with
      | nil => simp
      | cons first more =>
          rw [at?_cons, at?_cons, find?]
          by_cases hfirst : name = first
          · subst hfirst
            rw [find?_eq_none_of_not_mem hnew, if_pos rfl]
            by_cases hmore : more = [] <;> simp [Entry.at?, hmore]
          · rw [if_neg hfirst]
  | folder name inside rest ih_inside ih_rest =>
      obtain ⟨-, hnew, hinside, hrest⟩ := ht
      rw [mem_folders_cons_folder, ih_rest hrest]
      cases location with
      | nil => simp
      | cons first more =>
          rw [at?_cons, at?_cons, find?]
          by_cases hfirst : name = first
          · -- The name is not found among the other entries, so the way leads into this folder.
            subst hfirst
            rw [find?_eq_none_of_not_mem hnew, if_pos rfl]
            by_cases hmore : more = []
            · simp [Entry.at?, hmore, at?_nil]
            · simp [Entry.at?, hmore, ih_inside hinside]
          · rw [if_neg hfirst]
            simp [Ne.symm hfirst]

end Tree

end FrontendAssets
