import FrontendAssets.Files.Volume
import FrontendAssets.Proofs.Checks
import FrontendAssets.Proofs.Files.Locations
import FrontendAssets.Proofs.Path.Collapse

/-!
# `FrontendAssets.Proofs.Files.Reading`: reading beneath a directory

A directory that was listed can be read from. `read_eq_ok_iff` says which files are there: a path
that goes on from the directory by plain names reads as some bytes exactly if the system takes the
text of the path and the listing holds these bytes at the location of the names. Names that are too
long need no word of their own, since no tree holds one.
-/

set_option autoImplicit false

namespace FrontendAssets

namespace Volume

variable {v : Volume} {p : Path} {inside : Tree} {names location goal : List Text} {content : Bytes}

/-- Looking at a location gives what its folder holds. -/
theorem folder_eq_ok_iff :
    v.folder location = .ok inside ↔ v.root.at? location = some (.folder inside) := by
  unfold folder
  cases v.root.at? location with
  | none => simp
  | some e => cases e <;> simp

/-- One step of a way: a directory, and in it a name that leads out or one that leads to something.
It says all that a step can do when it succeeds, so proofs about ways need not look at the
definition. -/
theorem walk_cons_eq_ok_iff {name : Text} {more last : List Text} :
    v.walk location (name :: more) = .ok last
      ↔ ∃ inside, v.root.at? location = some (.folder inside)
        ∧ ((name = Path.up ∧ v.walk location.dropLast more = .ok last)
          ∨ (name ≠ Path.up ∧ Tree.isTooLong name = false ∧ (inside.find? name).isSome = true
            ∧ v.walk (location ++ [name]) more = .ok last)) := by
  rw [walk, Checks.bind_eq_ok_iff]
  simp only [folder_eq_ok_iff]
  refine exists_congr fun inside => and_congr_right fun _ => ?_
  by_cases hup : name = Path.up
  · simp [hup]
  cases hlong : Tree.isTooLong name with
  | true => simp [hup]
  | false => cases inside.find? name <;> simp [hup]

/-- One name further, in a directory that holds it. In a well-formed tree the name is neither a
double dot nor too long, so nothing else has to be checked. -/
theorem walk_cons_of_find? {name : Text} {e : Entry} (hroot : v.root.WellFormed)
    (h : v.root.at? location = some (.folder inside)) (hfind : inside.find? name = some e)
    (more : List Text) :
    v.walk location (name :: more) = v.walk (location ++ [name]) more := by
  obtain ⟨-, -, hup, -, -, hlong⟩ := (hroot.of_at? h).isName_of_find? hfind
  rw [walk, folder_eq_ok_iff.mpr h]
  simp only [bind, Except.bind]
  rw [if_neg (show name ≠ Path.up from hup), hlong, hfind]
  rfl

/-- A name that the directory does not hold ends the way, whatever comes behind it. -/
theorem walk_cons_of_find?_none {name : Text} (hup : name ≠ Path.up)
    (h : v.root.at? location = some (.folder inside)) (hfind : inside.find? name = none)
    (more : List Text) : v.walk location (name :: more) ≠ .ok goal := by
  rw [walk, folder_eq_ok_iff.mpr h]
  simp only [bind, Except.bind]
  rw [if_neg hup, hfind]
  split <;> exact fun he => by cases he

/-- The way along plain names ends well exactly if they lead to something, and then there. So names
may be followed through the volume or sought in the tree, with the same result. -/
theorem walk_eq_ok_iff (hroot : v.root.WellFormed) (hplain : ∀ n ∈ names, Path.IsPlain n)
    (h : v.root.at? location = some (.folder inside)) :
    v.walk location names = .ok goal
      ↔ goal = location ++ names ∧ (inside.at? names).isSome = true := by
  induction names generalizing location inside with
  | nil =>
      rw [walk, List.append_nil, Tree.at?_nil]
      simp [eq_comm]
  | cons name more ih =>
      have hup : name ≠ Path.up := (hplain name (List.mem_cons_self ..)).2
      have hmore : ∀ n ∈ more, Path.IsPlain n := fun n hn => hplain n (List.mem_cons_of_mem _ hn)
      rw [Tree.at?_cons]
      cases hfind : inside.find? name with
      | none =>
          have hno : v.walk location (name :: more) ≠ .ok goal :=
            walk_cons_of_find?_none hup h hfind more
          simp [hno]
      | some e =>
          have hnext : v.root.at? (location ++ [name]) = some e := by
            rw [Tree.at?_append, h]
            show inside.at? [name] = some e
            rw [Tree.at?_singleton, hfind]
          rw [walk_cons_of_find? hroot h hfind, Option.bind_some]
          cases e with
          | folder deeper =>
              rw [ih hmore hnext, List.append_assoc, List.singleton_append]
              rfl
          | file content =>
              -- Nothing lies below a file, so the way has to end here.
              cases more with
              | nil => simp [walk, Entry.at?, eq_comm]
              | cons next more =>
                  simp [walk, folder, hnext, Entry.at?, bind, Except.bind]

/-- Listing a directory: the system takes the path, and the way along it leads to the folder. -/
theorem list_eq_ok_iff :
    v.list p = .ok inside
      ↔ checkText p = .ok () ∧ ∃ location, v.walk (v.start p) p.segments = .ok location
        ∧ v.root.at? location = some (.folder inside) := by
  unfold list locate
  rw [Checks.bind_eq_ok_iff]
  simp only [Checks.bind_eq_ok_iff, folder_eq_ok_iff]
  constructor
  · rintro ⟨location, ⟨_, htext, hwalk⟩, hat⟩
    exact ⟨htext, location, hwalk, hat⟩
  · rintro ⟨htext, location, hwalk, hat⟩
    exact ⟨location, ⟨(), htext, hwalk⟩, hat⟩

/-- The way in two parts, where the second one begins at the end of the first. -/
theorem walk_append (location front back : List Text) :
    v.walk location (front ++ back) = v.walk location front >>= fun l => v.walk l back := by
  induction front generalizing location with
  | nil => rfl
  | cons name more ih =>
      rw [List.cons_append, walk, walk]
      cases v.folder location with
      | error reason => rfl
      | ok inside =>
          simp only [bind, Except.bind] at ih ⊢
          -- A double dot goes on upwards and a name downwards; a name that is too long or missing
          -- ends both walks alike.
          split
          · exact ih _
          split
          · rfl
          split
          · rfl
          · exact ih _

/-- Which files a listed directory holds. The text of the longer path has to be checked again, since
it may be too long where that of the directory was not. -/
theorem read_eq_ok_iff (hroot : v.root.WellFormed) (hlist : v.list p = .ok inside)
    (hplain : ∀ n ∈ names, Path.IsPlain n) :
    v.read ⟨p.root, p.segments ++ names⟩ = .ok content
      ↔ checkText ⟨p.root, p.segments ++ names⟩ = .ok ()
        ∧ inside.at? names = some (.file content) := by
  obtain ⟨-, location, hwalk, hat⟩ := list_eq_ok_iff.mp hlist
  -- The way to the directory is the beginning of the way to the file.
  have hway : v.walk (v.start p) (p.segments ++ names) = v.walk location names := by
    rw [walk_append, hwalk]
    rfl
  have hbelow : v.root.at? (location ++ names) = inside.at? names := by
    rw [Tree.at?_append, hat]
    rfl
  unfold read locate
  simp only [Checks.bind_eq_ok_iff]
  show (∃ goal, (∃ _, checkText _ = .ok () ∧ v.walk (v.start p) (p.segments ++ names) = .ok goal)
    ∧ _) ↔ _
  simp only [hway, walk_eq_ok_iff hroot hplain hat]
  constructor
  · rintro ⟨goal, ⟨_, htext, rfl, -⟩, hread⟩
    refine ⟨htext, ?_⟩
    rw [hbelow] at hread
    split at hread
    · rename_i c hfile
      cases hread
      exact hfile
    · cases hread
  · rintro ⟨htext, hfile⟩
    refine ⟨location ++ names, ⟨(), htext, rfl, by rw [hfile]; rfl⟩, ?_⟩
    rw [hbelow, hfile]

end Volume

end FrontendAssets
