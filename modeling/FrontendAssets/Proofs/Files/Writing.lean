import FrontendAssets.Proofs.Files.Reading

/-!
# `FrontendAssets.Proofs.Files.Writing`: what writing a file changes

Writing a file changes one place of the tree, and every folder above that place holds something else
afterwards. So trees before and after are compared by what stands at each location by itself: a file
with its content, or a folder, whatever it holds (`Entry.content?`). In this sense nothing changes
but the place of the file (`Puts`).

No way that could be followed before is lost, since folders stay folders and what was there is there
still (`walk_eq_ok_of_puts`). So the path that was written to leads to the new file, also where
double dots lead out of directories and back (`exists_puts_of_write`).
-/

set_option autoImplicit false

namespace FrontendAssets

/-- The content of a file. A folder has none of its own, so a folder that holds something else
counts as unchanged. -/
def Entry.content? : Entry → Option Bytes
  | .file content => some content
  | .folder _ => none

namespace Tree

variable {t inside : Tree} {name : Text} {location other : List Text} {content : Bytes}

/-! ### One place of a tree -/

/-- A tree is a folder in its own right, whatever it holds. -/
theorem map_content?_at?_nil (s t : Tree) :
    (s.at? []).map Entry.content? = (t.at? []).map Entry.content? := by
  rw [at?_nil, at?_nil]
  rfl

/-- Putting a file under a name that stands for no folder changes nothing else. If it stood for a
folder, everything in the folder would be gone. -/
theorem content?_at?_put (hname : ∀ deeper, t.find? name ≠ some (.folder deeper))
    (hother : other ≠ [name]) :
    ((t.put name (.file content)).at? other).map Entry.content?
      = (t.at? other).map Entry.content? := by
  cases other with
  | nil => exact map_content?_at?_nil _ _
  | cons first more =>
      rw [at?_cons, at?_cons, find?_put]
      by_cases hfirst : first = name
      · -- There is nothing below the file, and there was nothing below the name before.
        subst hfirst
        have hmore : more ≠ [] := fun h => hother (by rw [h])
        rw [if_pos rfl]
        cases hfind : t.find? first with
        | none => simp [Entry.at?, hmore]
        | some e =>
            cases e with
            | file before => simp [Entry.at?, hmore]
            | folder deeper => exact absurd hfind (hname deeper)
      · rw [if_neg hfirst]

/-- The folder at the location of a change holds what the change makes of it. -/
theorem at?_change_self (f : Tree → Tree) (h : t.at? location = some (.folder inside)) :
    (t.change f location).at? location = some (.folder (f inside)) := by
  induction location generalizing t with
  | nil =>
      rw [at?_nil] at h
      cases h
      rw [change, at?_nil]
  | cons first more ih =>
      obtain ⟨deeper, hfind, hmore⟩ := at?_cons_eq_folder_iff.mp h
      rw [change, hfind, at?_cons, find?_put, if_pos rfl]
      exact ih hmore

/-- Putting a file into a folder further down changes nothing else. -/
theorem content?_at?_change (h : t.at? location = some (.folder inside))
    (hname : ∀ deeper, inside.find? name ≠ some (.folder deeper))
    (hother : other ≠ location ++ [name]) :
    ((t.change (put name (.file content)) location).at? other).map Entry.content?
      = (t.at? other).map Entry.content? := by
  induction location generalizing t other with
  | nil =>
      rw [at?_nil] at h
      cases h
      rw [change]
      exact content?_at?_put hname hother
  | cons first more ih =>
      obtain ⟨deeper, hfind, hmore⟩ := at?_cons_eq_folder_iff.mp h
      rw [change, hfind]
      -- The other location parts from the one that is written at some folder; from there on nothing
      -- changed.
      cases other with
      | nil => exact map_content?_at?_nil _ _
      | cons next rest =>
          rw [at?_cons, at?_cons, find?_put]
          by_cases hnext : next = first
          · subst hnext
            rw [if_pos rfl, hfind]
            exact ih hmore fun he => hother (by rw [he, List.cons_append])
          · rw [if_neg hnext]

end Tree

namespace Volume

variable {v next : Volume} {p : Path} {goal names location : List Text} {content : Bytes}

/-- The volume `next` is `v` with a file at a location where no folder was, and nothing else is
changed. The location may have held another file, or nothing. -/
structure Puts (v : Volume) (goal : List Text) (content : Bytes) (next : Volume) : Prop where
  here_eq : next.here = v.here
  not_folder : ∀ inside, v.root.at? goal ≠ some (.folder inside)
  at_goal : next.root.at? goal = some (.file content)
  at_other : ∀ other ≠ goal,
    (next.root.at? other).map Entry.content? = (v.root.at? other).map Entry.content?

/-! ### Ways that are kept -/

/-- What was there is there. It may be another file by now. -/
theorem Puts.isSome_at? (h : Puts v goal content next) (hsome : (v.root.at? location).isSome) :
    (next.root.at? location).isSome := by
  by_cases hgoal : location = goal
  · rw [hgoal, h.at_goal]
    rfl
  · have hsame := congrArg Option.isSome (h.at_other location hgoal)
    rw [Option.isSome_map, Option.isSome_map] at hsame
    rw [hsame]
    exact hsome

/-- A folder is a folder still, whatever has been written into it. -/
theorem Puts.exists_folder (h : Puts v goal content next) {inside : Tree}
    (hfolder : v.root.at? location = some (.folder inside)) :
    ∃ later, next.root.at? location = some (.folder later) := by
  have hgoal : location ≠ goal := by
    intro he
    exact h.not_folder inside (he ▸ hfolder)
  have hsame := h.at_other location hgoal
  rw [hfolder] at hsame
  obtain ⟨e, he, hcontent⟩ := Option.map_eq_some_iff.mp hsame
  cases e with
  | folder later => exact ⟨later, he⟩
  | file c => cases hcontent

/-- What a folder holds stands at the location one name further. -/
theorem find?_of_at? {inside : Tree} (h : v.root.at? location = some (.folder inside))
    (name : Text) : inside.find? name = v.root.at? (location ++ [name]) := by
  rw [Tree.at?_append, h]
  exact (Tree.at?_singleton name inside).symm

/-- Every way leads where it led before. The induction is on the names, and each step needs only
that folders stay folders and that what was there is there. -/
theorem walk_eq_ok_of_puts (h : Puts v goal content next) {last : List Text}
    (hwalk : v.walk location names = .ok last) : next.walk location names = .ok last := by
  induction names generalizing location with
  | nil =>
      rw [walk] at hwalk ⊢
      exact hwalk
  | cons name more ih =>
      obtain ⟨inside, hfolder, hstep⟩ := walk_cons_eq_ok_iff.mp hwalk
      obtain ⟨later, hlater⟩ := h.exists_folder hfolder
      refine walk_cons_eq_ok_iff.mpr ⟨later, hlater, ?_⟩
      rcases hstep with ⟨hup, hrest⟩ | ⟨hup, hlong, hfind, hrest⟩
      · exact Or.inl ⟨hup, ih hrest⟩
      · -- The name leads to something still, though it may be a longer file by now.
        rw [find?_of_at? hfolder] at hfind
        refine Or.inr ⟨hup, hlong, ?_, ih hrest⟩
        rw [find?_of_at? hlater]
        exact h.isSome_at? hfind

/-! ### Writing -/

/-- What it takes to write a file, and what it does. This opens the definition for all that
follows. -/
theorem of_write_eq_ok (h : v.write p content = .ok next) :
    checkText p = .ok () ∧ ∃ front name location inside,
      p.segments = front ++ [name] ∧ v.walk (v.start p) front = .ok location
        ∧ v.root.at? location = some (.folder inside) ∧ name ≠ Path.up
        ∧ Tree.isTooLong name = false ∧ (∀ deeper, inside.find? name ≠ some (.folder deeper))
        ∧ next = { v with root := v.root.change (Tree.put name (.file content)) location } := by
  unfold write at h
  obtain ⟨_, htext, hwrite⟩ := Checks.bind_eq_ok_iff.mp h
  refine ⟨htext, ?_⟩
  -- The checks come in the order of the program, and each of them that fails ends the writing.
  cases hlast : p.segments.getLast? with
  | none =>
      rw [hlast] at hwrite
      cases hwrite
  | some name =>
      rw [hlast] at hwrite
      obtain ⟨location, hwalk, hrest⟩ := Checks.bind_eq_ok_iff.mp hwrite
      obtain ⟨inside, hfolder, hput⟩ := Checks.bind_eq_ok_iff.mp hrest
      obtain ⟨front, hsegments⟩ := List.getLast?_eq_some_iff.mp hlast
      rw [hsegments, List.dropLast_concat] at hwalk
      refine ⟨front, name, location, inside, hsegments, hwalk, folder_eq_ok_iff.mp hfolder, ?_⟩
      by_cases hup : name = Path.up
      · rw [if_pos hup] at hput
        cases hput
      rw [if_neg hup] at hput
      cases hlong : Tree.isTooLong name with
      | true =>
          rw [if_pos hlong] at hput
          cases hput
      | false =>
          rw [if_neg (by simp [hlong])] at hput
          refine ⟨hup, rfl, ?_⟩
          split at hput
          · cases hput
          · rename_i hnot
            exact ⟨fun deeper hdeeper => hnot deeper hdeeper, (Except.ok.inj hput).symm⟩

/-- A file that was written is where its path leads to, and nothing else is changed. The path is
followed in the volume after the change, where it might have led elsewhere. -/
theorem exists_puts_of_write (h : v.write p content = .ok next) :
    ∃ goal, next.locate p = .ok goal ∧ Puts v goal content next := by
  obtain ⟨htext, front, name, location, inside, hsegments, hwalk, hfolder, hup, hlong, hname,
    rfl⟩ :=
    of_write_eq_ok h
  let next : Volume := { v with root := v.root.change (Tree.put name (.file content)) location }
  have hlater : next.root.at? location = some (.folder (inside.put name (.file content))) :=
    Tree.at?_change_self _ hfolder
  have hfile : (inside.put name (.file content)).find? name = some (.file content) := by
    rw [Tree.find?_put, if_pos rfl]
  have hputs : Puts v (location ++ [name]) content next := {
    here_eq := rfl
    not_folder := by
      intro deeper hdeeper
      exact hname deeper (by rw [find?_of_at? hfolder, hdeeper])
    at_goal := by rw [← find?_of_at? hlater, hfile]
    at_other := fun other hother => Tree.content?_at?_change hfolder hname hother }
  refine ⟨location ++ [name], ?_, hputs⟩
  -- The way to the folder is kept, and its last step leads to the file.
  have hfront : next.walk (next.start p) front = .ok location := walk_eq_ok_of_puts hputs hwalk
  have hstep : next.walk location [name] = .ok (location ++ [name]) :=
    walk_cons_eq_ok_iff.mpr
      ⟨_, hlater, Or.inr ⟨hup, hlong, by rw [hfile]; rfl, by rw [walk]⟩⟩
  show next.locate p = _
  rw [locate, htext]
  show next.walk (next.start p) p.segments = _
  rw [hsegments, walk_append, hfront]
  exact hstep

/-- What was put somewhere is read back along every path that leads there, not only along the one
that was written. -/
theorem Puts.read_eq (h : Puts v goal content next) (hgoal : next.locate p = .ok goal) :
    next.read p = .ok content := by
  unfold read
  refine Checks.bind_eq_ok_iff.mpr ⟨goal, hgoal, ?_⟩
  rw [h.at_goal]

end Volume

end FrontendAssets
