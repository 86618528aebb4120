import FrontendAssets.Proofs.Files.Reading
import FrontendAssets.Proofs.Text.Segments

/-!
# `FrontendAssets.Proofs.Files.Ways`: where paths lead

`Tree.Leads` says where names lead from a location, as a relation: each name is taken in a folder
that exists, a double dot leads out of it, and any other name to something that the folder holds. In
a well-formed tree, following names is this relation (`walk_eq_ok_iff_leads`), since no name in such
a tree is a double dot or too long.

Following names fails in two ways that matter to a caller. The system takes no path and no name
beyond a certain length (`Volume.Refuses`); in all other cases the path leads to no folder.
`list_eq_ok_iff_leadsTo` and `list_eq_error_nameTooLong_iff` tell the two apart. A name that is too
long counts only where it is looked up, that is in a folder that exists.
-/

set_option autoImplicit false

namespace FrontendAssets

/-- Where names lead from a location. There is one constructor for each kind of step, and a double
dot may always be taken as one that leads out. -/
inductive Tree.Leads (root : Tree) : List Text → List Text → List Text → Prop
  | here (location : List Text) : Leads root location [] location
  | up {location more goal : List Text} {inside : Tree}
      (folder : root.at? location = some (.folder inside))
      (onward : Leads root location.dropLast more goal) :
      Leads root location (Path.up :: more) goal
  | down {location more goal : List Text} {name : Text} {inside : Tree}
      (folder : root.at? location = some (.folder inside))
      (held : (inside.find? name).isSome = true)
      (onward : Leads root (location ++ [name]) more goal) :
      Leads root location (name :: more) goal

namespace Volume

/-- A path leads to something. The length of the path is left out of account, so a path may lead
somewhere and yet be refused. -/
def LeadsTo (v : Volume) (p : Path) (e : Entry) : Prop :=
  ∃ goal, v.root.Leads (v.start p) p.segments goal ∧ v.root.at? goal = some e

/-- A path whose text is no longer than the system takes. -/
def Fits (p : Path) : Prop := (Utf8.encode p.text).length ≤ pathLimit

instance (p : Path) : Decidable (Fits p) := inferInstanceAs (Decidable (_ ≤ _))

/-- A path that the system refuses for its length: its text is too long, or it comes to a folder and
goes on by a name that is too long. A path with a null character never reaches the system. -/
def Refuses (v : Volume) (p : Path) : Prop :=
  '\x00' ∉ p.text ∧ (¬ Fits p ∨ ∃ front name back goal inside,
    p.segments = front ++ name :: back ∧ v.root.Leads (v.start p) front goal
      ∧ v.root.at? goal = some (.folder inside) ∧ Tree.isTooLong name = true)

variable {v : Volume} {p : Path} {inside : Tree} {names location goal : List Text} {name : Text}

/-! ### Following names -/

/-- In a well-formed tree, following names is the relation. Without that assumption a folder could
hold a name that is too long, and the relation would lead through it. -/
theorem walk_eq_ok_iff_leads (hroot : v.root.WellFormed) :
    v.walk location names = .ok goal ↔ v.root.Leads location names goal := by
  constructor
  · -- The induction is on the names, from any location: each step begins where the last one ended.
    intro h
    induction names generalizing location with
    | nil =>
        rw [walk] at h
        cases h
        exact .here _
    | cons name more ih =>
        obtain ⟨inside, hfolder, hstep⟩ := walk_cons_eq_ok_iff.mp h
        rcases hstep with ⟨rfl, hmore⟩ | ⟨-, -, hheld, hmore⟩
        · exact .up hfolder (ih hmore)
        · exact .down hfolder hheld (ih hmore)
  · intro h
    induction h with
    | here => rw [walk]
    | up folder _ ih => exact walk_cons_eq_ok_iff.mpr ⟨_, folder, Or.inl ⟨rfl, ih⟩⟩
    | down folder held _ ih =>
        -- What the folder holds has a name that passes both tests on the way.
        obtain ⟨e, he⟩ := Option.isSome_iff_exists.mp held
        obtain ⟨-, -, hup, -, -, hlong⟩ := (hroot.of_at? folder).isName_of_find? he
        exact walk_cons_eq_ok_iff.mpr ⟨_, folder, Or.inr ⟨hup, hlong, held, ih⟩⟩

/-- A way is made of double dots and of names. -/
theorem up_or_isName_of_leads (hroot : v.root.WellFormed) (h : v.root.Leads location names goal) :
    ∀ n ∈ names, n = Path.up ∨ Tree.IsName n := by
  induction h with
  | here => exact List.forall_mem_nil _
  | up folder _ ih => exact List.forall_mem_cons.mpr ⟨Or.inl rfl, ih⟩
  | down folder held _ ih =>
      obtain ⟨e, he⟩ := Option.isSome_iff_exists.mp held
      exact List.forall_mem_cons.mpr ⟨Or.inr ((hroot.of_at? folder).isName_of_find? he), ih⟩

/-- No segment of a path that leads somewhere has a null character, since no name in a tree has
one. -/
theorem null_not_mem_of_leads (hroot : v.root.WellFormed)
    (h : v.root.Leads location names goal) : ∀ n ∈ names, '\x00' ∉ n := by
  intro n hn
  rcases up_or_isName_of_leads hroot h n hn with rfl | ⟨-, -, -, -, hnull, -⟩
  · decide
  · exact hnull

/-- A name that is too long ends the way in a folder that exists, whether or not the folder holds
it. -/
theorem walk_cons_of_isTooLong (hfolder : v.root.at? location = some (.folder inside))
    (hlong : Tree.isTooLong name = true) (back : List Text) :
    v.walk location (name :: back) = .error .nameTooLong := by
  have hup : name ≠ Path.up := by
    rintro rfl
    exact absurd hlong (by decide)
  rw [walk, folder_eq_ok_iff.mpr hfolder]
  show (if name = Path.up then _ else _) = _
  rw [if_neg hup, if_pos hlong]

/-- Looking at a location fails for the length of no name. -/
theorem folder_ne_error_nameTooLong (location : List Text) :
    v.folder location ≠ .error .nameTooLong := by
  unfold folder
  split <;> exact fun h => by cases h

/-- Only such a name ends a way for its length. The induction is on the names, and the ways that go
on leave the culprit to the rest. -/
theorem exists_of_walk_eq_error
    (h : v.walk location names = .error .nameTooLong) :
    ∃ front name back goal inside, names = front ++ name :: back
      ∧ v.root.Leads location front goal ∧ v.root.at? goal = some (.folder inside)
      ∧ Tree.isTooLong name = true := by
  induction names generalizing location with
  | nil => cases h
  | cons name more ih =>
      cases hfolder : v.folder location with
      | error reason =>
          rw [walk, hfolder] at h
          cases h
          exact absurd hfolder (folder_ne_error_nameTooLong location)
      | ok inside =>
          have hat := folder_eq_ok_iff.mp hfolder
          rw [walk, hfolder] at h
          simp only [bind, Except.bind] at h
          -- Where the way goes on, the name that ends it is among those behind.
          by_cases hup : name = Path.up
          · rw [if_pos hup] at h
            obtain ⟨front, last, back, goal, deeper, rfl, hleads, hrest⟩ := ih h
            exact ⟨name :: front, last, back, goal, deeper, rfl, hup ▸ .up hat hleads, hrest⟩
          rw [if_neg hup] at h
          by_cases hlong : Tree.isTooLong name = true
          · exact ⟨[], name, more, location, inside, rfl, .here location, hat, hlong⟩
          rw [if_neg hlong] at h
          cases hheld : inside.find? name with
          | none =>
              rw [hheld] at h
              cases h
          | some e =>
              rw [hheld] at h
              obtain ⟨front, last, back, goal, deeper, rfl, hleads, hrest⟩ := ih h
              exact ⟨name :: front, last, back, goal, deeper, rfl,
                .down hat (by rw [hheld]; rfl) hleads, hrest⟩

/-! ### The text of a path -/

/-- A path has a null character only if one of its segments has it. -/
theorem null_not_mem_text (h : ∀ n ∈ p.segments, '\x00' ∉ n) : '\x00' ∉ p.text := by
  -- The text is made of the root, the segments and slashes, unless it is the dot of the empty path.
  have hbody : '\x00' ∉ p.root.text ++ Text.join '/' p.segments := by
    rw [List.mem_append, not_or]
    constructor
    · cases p.root with
      | relative => exact List.not_mem_nil
      | single => decide
      | double => decide
    · intro hmem
      rcases Text.mem_join hmem with hslash | ⟨n, hn, hnull⟩
      · exact absurd hslash (by decide)
      · exact h n hn hnull
  unfold Path.text Path.textOf
  split
  · decide
  · exact hbody

/-- A path without null characters that fits is taken. -/
theorem checkText_of_fits (hnull : '\x00' ∉ p.text) (h : Fits p) : checkText p = .ok () := by
  rw [checkText, if_neg (by simpa using hnull), if_neg (Nat.not_lt.mpr h)]

/-- One that does not fit is refused for its length. -/
theorem checkText_of_not_fits (hnull : '\x00' ∉ p.text) (h : ¬ Fits p) :
    checkText p = .error .nameTooLong := by
  rw [checkText, if_neg (by simpa using hnull), if_pos (Nat.not_le.mp h)]

/-- A null character is refused as such, however long the path is. -/
theorem checkText_of_null (hnull : '\x00' ∈ p.text) : checkText p = .error .nullCharacter := by
  rw [checkText, if_pos (by simpa using hnull)]

/-- The two conditions under which a path is taken. -/
theorem checkText_eq_ok_iff : checkText p = .ok () ↔ '\x00' ∉ p.text ∧ Fits p := by
  by_cases hnull : '\x00' ∈ p.text
  · simp [checkText_of_null hnull, hnull]
  by_cases hfits : Fits p
  · simp [checkText_of_fits hnull hfits, hnull, hfits]
  · simp [checkText_of_not_fits hnull hfits, hfits]

/-! ### Listing -/

/-- The text of a path that leads to something has no null character, since no name has one. -/
theorem LeadsTo.null_not_mem {e : Entry} (h : v.LeadsTo p e) (hroot : v.root.WellFormed) :
    '\x00' ∉ p.text := by
  obtain ⟨goal, hleads, -⟩ := h
  exact null_not_mem_text (null_not_mem_of_leads hroot hleads)

/-- A directory can be listed if a path that fits leads to it. -/
theorem list_eq_ok_iff_leadsTo (hroot : v.root.WellFormed) :
    v.list p = .ok inside ↔ Fits p ∧ v.LeadsTo p (.folder inside) := by
  rw [list_eq_ok_iff, checkText_eq_ok_iff]
  simp only [walk_eq_ok_iff_leads hroot]
  constructor
  · rintro ⟨⟨-, hfits⟩, hleads⟩
    exact ⟨hfits, hleads⟩
  · rintro ⟨hfits, hleads⟩
    exact ⟨⟨LeadsTo.null_not_mem hleads hroot, hfits⟩, hleads⟩

/-- Listing fails for a length exactly if the system refuses the path for one. All other failures
mean that the path leads to no folder. -/
theorem list_eq_error_nameTooLong_iff (hroot : v.root.WellFormed) :
    v.list p = .error .nameTooLong ↔ v.Refuses p := by
  have hlist : v.list p = checkText p >>= fun _ => v.walk (v.start p) p.segments >>= v.folder := by
    unfold list locate
    cases checkText p <;> rfl
  rw [hlist]
  -- The text is looked at before any name, and a null character before the length.
  by_cases hnull : '\x00' ∈ p.text
  · rw [checkText_of_null hnull]
    constructor
    · intro h
      cases h
    · rintro ⟨hnot, -⟩
      exact absurd hnull hnot
  by_cases hfits : Fits p
  · rw [checkText_of_fits hnull hfits]
    show (v.walk (v.start p) p.segments >>= v.folder) = _ ↔ _
    constructor
    · intro h
      cases hwalk : v.walk (v.start p) p.segments with
      | ok goal =>
          rw [hwalk] at h
          exact absurd h (folder_ne_error_nameTooLong goal)
      | error reason =>
          rw [hwalk] at h
          cases h
          exact ⟨hnull, Or.inr (exists_of_walk_eq_error hwalk)⟩
    · rintro ⟨-, hlong | ⟨front, name, back, goal, inside, hsegments, hleads, hfolder, hlong⟩⟩
      · exact absurd hfits hlong
      · rw [hsegments, walk_append, (walk_eq_ok_iff_leads hroot).mpr hleads]
        show (v.walk goal (name :: back) >>= v.folder) = _
        rw [walk_cons_of_isTooLong hfolder hlong]
        rfl
  · rw [checkText_of_not_fits hnull hfits]
    exact ⟨fun _ => ⟨hnull, Or.inl hfits⟩, fun _ => rfl⟩

end Volume

end FrontendAssets
