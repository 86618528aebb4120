import FrontendAssets.Proofs.Path.Containment
import FrontendAssets.Proofs.Path.FileUrl
import FrontendAssets.Proofs.Request.Mount
import FrontendAssets.Proofs.Resolve.Run

/-!
# `FrontendAssets.Proofs.Resolve.Confinement`: which files an override makes readable

`resolve_confined` is the promise of requests: whatever the address, the override directory and the
answers, a request fails never, reads one file at most, and the path of that file is the override
directory followed by clean names. This is the work of clean paths. The guard in `fromFile` passes
all of them (`Path.isParentOf_append_plain`), so it never speaks up.

`fromFile_readsBeneath_iff` is about the guard alone, on texts that were not cleaned. What it lets
pass lies beneath the directory from every working directory unless the path climbs from it, as
`../secret` climbs from `.`; the guard compares normal forms, and there the working directory is the
empty beginning of every relative path. `fromFile_climbs_out` reads such a file.
-/

set_option autoImplicit false

namespace FrontendAssets

open Text (join)

/-! ### The guard on paths -/

namespace Path

variable {base p : Path}

/-- The guard lets pass what climbs. A path climbs if its normal form begins with more double dots
than that of the directory, and there the normal form of the directory is the beginning that the
guard looks for. Only relative paths climb, so the roots agree. -/
theorem isParentOf_of_climbs (hb : base.WellFormed) (hp : p.WellFormed)
    (hclimb : Climbs base (base.append p)) : base.isParentOf (base.append p) = true := by
  have hrel : (base.append p).root = .relative := hclimb.exists_eq.1
  have hroot : base.root = (base.append p).root := by
    unfold append at hrel ⊢
    split at hrel
    · rw [if_pos ‹_›]
    · exact absurd hrel ‹_›
  rw [isParentOf_iff hb (wellFormed_append hb hp)]
  exact ⟨hroot, (List.prefix_append _ _).trans hclimb, hclimb.collapsed_ne⟩

/-- Nothing climbs from itself. -/
theorem not_climbs_self (p : Path) : ¬ Climbs p p := fun h => h.collapsed_ne rfl

/-- The empty text is the path that leads from a directory to itself. -/
theorem append_ofText_nil (base : Path) : base.append (ofText []) = base := by
  show Path.mk base.root (base.segments ++ []) = base
  rw [List.append_nil]

end Path

namespace Resolve

variable (answer : (q : Query) → q.Answer) {c : Config} {url relative : Text}

/-! ### Requests -/

/-- The run on clean names: the file is read, and its bytes are the answer. The guard lets clean
names pass from any directory. -/
theorem run_fromFile_join {base : Path} {names : List Text} (mediaType : Text)
    (h : FileUrl.toPath url = .ok base) (hnames : ∀ n ∈ names, Request.IsCleanName n)
    (hne : names ≠ []) :
    (fromFile url (join '/' names) mediaType).run answer
      = runOfRead ⟨base.root, base.segments ++ names⟩ (join '/' names) mediaType
        (answer (.read ⟨base.root, base.segments ++ names⟩)) := by
  have hjoin : join '/' names ≠ [] := fun he =>
    hne ((Text.join_eq_nil_iff fun n hn => (hnames n hn).ne_nil).mp he)
  have hpath : base.append (Path.ofText (join '/' names))
      = ⟨base.root, base.segments ++ names⟩ := by
    rw [Request.ofText_join hnames]
    rfl
  -- Clean names are appended to the normal form of the directory as they are.
  have hguard : base.isParentOf (base.append (Path.ofText (join '/' names))) = true := by
    rw [hpath]
    exact Path.isParentOf_append_plain (FileUrl.wellFormed_of_toPath h)
      (fun n hn => ⟨(hnames n hn).isPlain, (hnames n hn).slash_not_mem⟩) hne
  rw [run_fromFile_of_guard answer mediaType h hjoin hguard, hpath]

/-- No address escapes from an override directory. Every request ends well, whatever the answers,
and reads one file at most: one that goes on from the directory by one clean name or more, and so
lies beneath it from every working directory. -/
theorem resolve_confined (c : Config) (url : Text) {directory : Text}
    (h : c.override = .file directory) :
    (∃ r, ((resolve c url).run answer).outcome = .ok r)
      ∧ (reads ((resolve c url).run answer).asked = []
        ∨ ∃ (base : Path) (names : List Text), FileUrl.toPath directory = .ok base
          ∧ names ≠ [] ∧ (∀ n ∈ names, Request.IsCleanName n)
          ∧ reads ((resolve c url).run answer).asked = [⟨base.root, base.segments ++ names⟩]
          ∧ Path.StaysBeneath base ⟨base.root, base.segments ++ names⟩) := by
  rw [run_resolve, outcome_afterNotes, reads_afterNotes]
  cases nameUnderMount c url with
  | none => exact ⟨⟨_, rfl⟩, Or.inl rfl⟩
  | some name =>
      simp only [h]
      rw [run_underMount_file, outcome_afterNotes, reads_afterNotes, Request.removeDotSegments_eq]
      -- Whatever the markers leave behind, cleaning it makes it a list of clean names.
      generalize (Request.stripMarkers name).value = relative
      have hnames : ∀ n ∈ Request.cleanNames relative, Request.IsCleanName n := fun _ hn =>
        Request.isCleanName_of_mem_cleanNames hn
      generalize Request.cleanNames relative = names at hnames
      cases hbase : FileUrl.toPath directory with
      | error reason =>
          rw [run_fromFile_of_error answer _ hbase]
          exact ⟨⟨_, rfl⟩, Or.inl rfl⟩
      | ok base =>
          -- Nothing may be left of the path; the directory itself is not read.
          by_cases hne : names = []
          · subst hne
            rw [show join '/' [] = [] from rfl, run_fromFile_of_nil answer _ hbase]
            exact ⟨⟨_, rfl⟩, Or.inl rfl⟩
          · rw [run_fromFile_join answer _ hbase hnames hne]
            have hplain : ∀ n ∈ names, Path.IsPlain n := fun n hn => (hnames n hn).isPlain
            refine ⟨?_, Or.inr ⟨base, names, rfl, hne, hnames, reads_runOfRead .., ?_⟩⟩
            · cases answer (.read ⟨base.root, base.segments ++ names⟩) <;> exact ⟨_, rfl⟩
            · exact Path.staysBeneath_append hplain hne base

/-- With the parent directory in place of the bundle, a double dot in the address takes back a name
of the address, not one of the directory. -/
theorem resolve_confined_parent :
    let c : Config := { Config.default with frontend := some (.word "file:..".toList) }
    let asked := ((resolve c "/bundled/a/%2E%2E/main.js".toList).run
      (World.answer ⟨.empty, .bare []⟩)).asked
    c.override = .file "file:..".toList ∧ reads asked = [⟨.relative, [Path.up, "main.js".toList]⟩]
      ∧ ∃ (base : Path) (names : List Text), FileUrl.toPath "file:..".toList = .ok base
        ∧ names ≠ [] ∧ (∀ n ∈ names, Request.IsCleanName n)
        ∧ reads asked = [⟨base.root, base.segments ++ names⟩]
        ∧ Path.StaysBeneath base ⟨base.root, base.segments ++ names⟩ := by
  intro c asked
  have hoverride : c.override = .file "file:..".toList := by decide +kernel
  have hreads : reads asked = [⟨.relative, [Path.up, "main.js".toList]⟩] := by decide +kernel
  refine ⟨hoverride, hreads, ?_⟩
  -- One file was read, so the second alternative holds.
  rcases (resolve_confined (World.answer ⟨.empty, .bare []⟩) c "/bundled/a/%2E%2E/main.js".toList
    hoverride).2 with hnone | hread
  · exact absurd (hreads.symm.trans hnone) (by simp)
  · exact hread

/-! ### The guard alone -/

/-- Every file that a run was to read lies beneath the directory that an address names, from every
working directory. -/
def ReadsBeneath (url : Text) (asked : List Query) : Prop :=
  ∀ path ∈ reads asked, ∃ base, FileUrl.toPath url = .ok base ∧ Path.StaysBeneath base path

/-- What becomes of a text that was not cleaned. Nothing is read unless the guard lets the path
pass, and the guard holds back no path that climbs. -/
theorem fromFile_cases (url relative mediaType : Text) :
    (∃ base, FileUrl.toPath url = .ok base
        ∧ base.isParentOf (base.append (Path.ofText relative)) = true
        ∧ reads ((fromFile url relative mediaType).run answer).asked
          = [base.append (Path.ofText relative)])
      ∨ reads ((fromFile url relative mediaType).run answer).asked = []
        ∧ (((fromFile url relative mediaType).run answer).outcome
            = .ok (fileNotFound relative mediaType)
          ∨ ∃ base, FileUrl.toPath url = .ok base
            ∧ ((fromFile url relative mediaType).run answer).outcome
              = .error ⟨base, base.append (Path.ofText relative)⟩)
        ∧ ∀ base, FileUrl.toPath url = .ok base →
          ¬ Path.Climbs base (base.append (Path.ofText relative)) := by
  cases hbase : FileUrl.toPath url with
  | error reason =>
      rw [run_fromFile_of_error answer mediaType hbase]
      refine Or.inr ⟨rfl, Or.inl rfl, ?_⟩
      intro base he
      cases he
  | ok base =>
      have hwell : base.WellFormed := FileUrl.wellFormed_of_toPath hbase
      by_cases hne : relative = []
      · -- The directory itself is never read, and it does not climb from itself.
        subst hne
        rw [run_fromFile_of_nil answer mediaType hbase]
        refine Or.inr ⟨rfl, Or.inl rfl, ?_⟩
        intro base' he
        cases he
        rw [Path.append_ofText_nil]
        exact Path.not_climbs_self base
      cases hguard : base.isParentOf (base.append (Path.ofText relative)) with
      | true =>
          rw [run_fromFile_of_guard answer mediaType hbase hne hguard, reads_runOfRead]
          exact Or.inl ⟨base, rfl, hguard, rfl⟩
      | false =>
          rw [run_fromFile_of_escape answer mediaType hbase hne hguard]
          refine Or.inr ⟨rfl, Or.inr ⟨base, rfl, rfl⟩, ?_⟩
          -- A path that climbs would have passed the guard.
          intro base' he hclimb
          cases he
          have hpass := Path.isParentOf_of_climbs hwell (Path.wellFormed_ofText relative) hclimb
          rw [hguard] at hpass
          cases hpass

/-- The guard alone: a file is read, or nothing is read and the request fails or the file is not
found. A file that is read lies beneath the directory exactly if its path does not climb from it. So
for texts that were not cleaned, the guard is not enough. -/
theorem fromFile_readsBeneath_iff (url relative mediaType : Text) :
    ((∃ base, FileUrl.toPath url = .ok base
        ∧ reads ((fromFile url relative mediaType).run answer).asked
          = [base.append (Path.ofText relative)])
      ∨ reads ((fromFile url relative mediaType).run answer).asked = []
        ∧ (((fromFile url relative mediaType).run answer).outcome
            = .ok (fileNotFound relative mediaType)
          ∨ ∃ base, FileUrl.toPath url = .ok base
            ∧ ((fromFile url relative mediaType).run answer).outcome
              = .error ⟨base, base.append (Path.ofText relative)⟩))
      ∧ (ReadsBeneath url ((fromFile url relative mediaType).run answer).asked
        ↔ ∀ base, FileUrl.toPath url = .ok base →
          ¬ Path.Climbs base (base.append (Path.ofText relative))) := by
  rcases fromFile_cases answer url relative mediaType with
    ⟨base, hbase, hguard, hreads⟩ | ⟨hreads, hends, hclimb⟩
  · refine ⟨Or.inl ⟨base, hbase, hreads⟩, ?_⟩
    have hwell : base.WellFormed := FileUrl.wellFormed_of_toPath hbase
    -- For a path that the guard lets pass, lying beneath and not climbing are the same.
    have hiff := Path.staysBeneath_iff hwell
      (Path.wellFormed_append hwell (Path.wellFormed_ofText relative)) hguard
    unfold ReadsBeneath
    rw [hreads]
    simpa [hbase] using hiff
  · refine ⟨Or.inr ⟨hreads, hends⟩, ?_⟩
    unfold ReadsBeneath
    rw [hreads]
    simpa using hclimb

/-- With the working directory in place of the bundle, the guard lets a double dot through, and the
file beside that directory is read. -/
theorem fromFile_climbs_out :
    let v : Volume := ⟨.file "secret".toList [83] (.folder "site".toList .empty .empty),
      ["site".toList]⟩
    let run := (fromFile "file:.".toList "../secret".toList MediaType.fallback).run
      (World.answer ⟨.empty, v⟩)
    run.outcome = .ok ⟨.file, some [83], MediaType.fallback, "../secret".toList⟩
      ∧ reads run.asked = [⟨.relative, [Path.up, "secret".toList]⟩]
      ∧ ¬ Path.LiesBeneath v.herePath ⟨.relative, []⟩ ⟨.relative, [Path.up, "secret".toList]⟩
      ∧ ¬ ReadsBeneath "file:.".toList run.asked := by
  intro v run
  have hout : run.outcome = .ok ⟨.file, some [83], MediaType.fallback, "../secret".toList⟩ := by
    decide +kernel
  have hreads : reads run.asked = [⟨.relative, [Path.up, "secret".toList]⟩] := by decide +kernel
  have hbase : FileUrl.toPath "file:.".toList = .ok ⟨.relative, []⟩ := by decide +kernel
  have houtside : ¬ Path.LiesBeneath v.herePath ⟨.relative, []⟩
      ⟨.relative, [Path.up, "secret".toList]⟩ := by
    -- From this working directory the file is beside the directory, not beneath it.
    rintro ⟨-, hprefix, -⟩
    exact absurd hprefix (by decide)
  refine ⟨hout, hreads, houtside, ?_⟩
  intro hbeneath
  obtain ⟨base, he, hstays⟩ := hbeneath _ (hreads ▸ List.mem_singleton_self _)
  rw [hbase] at he
  cases he
  have hplain : ∀ s ∈ v.herePath.segments, Path.isIdle s = false ∧ '/' ∉ s := by decide
  exact houtside (hstays v.herePath ⟨by decide, hplain⟩)

end Resolve

end FrontendAssets
