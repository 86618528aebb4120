import FrontendAssets.Proofs.Bundle
import FrontendAssets.Proofs.Config.Override
import FrontendAssets.Proofs.Files.Reading
import FrontendAssets.Proofs.Request.LetterCase
import FrontendAssets.Proofs.Resolve.Decomposition

/-!
# `FrontendAssets.Proofs.Resolve.Interchange`: a directory as a bundle and as an override

A directory can be loaded into a bundle, or it can take the place of the bundle as an override.
`resolve_interchangeable` says that requests do not tell the two apart: either nothing is served, or
the same bytes are, or both miss, with the same path and content type. Serve markers are stripped
in front of an override only, so the path below the mount has to begin with none of them.

What carries the proof is that a location is asked for in two ways with one answer: as the name of a
resource, and as a path of files beneath the directory. A bundle of which this holds `Mirrors` the
path of the directory, and a bundle that was loaded from the path does (`mirrors_of_ofFolder`).

A directory has many paths. `resolve_interchangeable_of_locate_eq` is for a bundle that was loaded
along one of them while the override names another.
-/

set_option autoImplicit false

namespace FrontendAssets

open Text (join)

namespace Resolve

variable {v w : Volume} {p q : Path} {b : Bundle} {loaded named : Noted Bundle} {names : List Text}

/-- What a directory serves as a bundle and what it serves as an override. -/
inductive Interchangeable : Except Escape Resolution → Except Escape Resolution → Prop
  /-- Neither handles the request. -/
  | unhandled (mediaType : Text) :
    Interchangeable (.ok { outcome := .unhandled, mediaType })
      (.ok { outcome := .unhandled, mediaType })
  /-- Both serve the same bytes, and say where they are from. -/
  | found (content : Bytes) (mediaType path : Text) :
    Interchangeable (.ok ⟨.bundled, some content, mediaType, path⟩)
      (.ok ⟨.file, some content, mediaType, path⟩)
  /-- Neither has it; the override answers with a text of its own, the bundle with nothing. -/
  | missing (mediaType path : Text) :
    Interchangeable (.ok ⟨.bundleMiss, none, mediaType, path⟩) (.ok (fileNotFound path mediaType))

/-- The files beneath a path are the resources of a bundle: what can be read along the path and a
location behind it is what the bundle has under the name of the location. Whatever else the bundle
holds, under names that no request leads to, is not compared. -/
def Mirrors (v : Volume) (p : Path) (b : Bundle) : Prop :=
  ∀ names : List Text, (∀ n ∈ names, Request.IsCleanName n) → ∀ content : Bytes,
    v.read ⟨p.root, p.segments ++ names⟩ = .ok content
      ↔ b.lookup (join '/' names) = some content

/-- A bundle mirrors the path that it was loaded from. The paths that the system would refuse for
their length were refused when the bundle was loaded. -/
theorem mirrors_of_ofFolder (hroot : v.root.WellFormed) (hload : Bundle.ofFolder v p = .ok loaded) :
    Mirrors v p loaded.value := by
  intro names hnames content
  obtain ⟨inside, hlist, -, hfiles, rfl⟩ := Bundle.ofFolder_eq_ok_iff.mp hload
  -- The listing is a folder of the volume, so its names are those of a file system too.
  have hinside : inside.WellFormed := by
    obtain ⟨-, location, -, hat⟩ := Volume.list_eq_ok_iff.mp hlist
    exact hroot.of_at? hat
  have hplain : ∀ n ∈ names, Path.IsPlain n := fun n hn => (hnames n hn).isPlain
  have hpieces : ∀ n ∈ names, Path.isIdle n = false ∧ '/' ∉ n := fun n hn =>
    ⟨(hplain n hn).1, (hnames n hn).slash_not_mem⟩
  rw [Volume.read_eq_ok_iff hroot hlist hplain, Bundle.lookup_ofTree hinside hpieces]
  constructor
  · exact fun h => h.2
  · intro hat
    have hcheck := hfiles (names, content) (hinside.mem_files_iff.mpr hat)
    exact ⟨Bundle.checkBeneath_eq_ok_iff.mp hcheck, hat⟩

/-- Under the mount the two strategies serve the same. -/
theorem underMount_interchangeable {url : Text} (hmirrors : Mirrors v p b)
    (hurl : FileUrl.toPath url = .ok p) (hnames : ∀ n ∈ names, Request.IsCleanName n)
    (hne : names ≠ [])
    (hmarkers : ∀ marker ∈ Request.serveMarkers,
      Request.startsWith (join '/' names) marker = false) (other : Bundle) (mediaType : Text) :
    Interchangeable
      ((underMount .none (join '/' names) mediaType).run (World.answer ⟨b, w⟩)).outcome
      ((underMount (.file url) (join '/' names) mediaType).run
        (World.answer ⟨other, v⟩)).outcome := by
  have hiff := hmirrors names hnames
  rw [run_underMount_file, Request.stripMarkers_of_no_marker hmarkers, outcome_afterNotes,
    Request.removeDotSegments_join hnames, run_fromFile_join _ mediaType hurl hnames hne]
  show Interchangeable ((fromBundle (join '/' names) mediaType).run _).outcome _
  rw [run_fromBundle]
  -- Each run asks one thing, so it is enough that the two answers agree.
  show Interchangeable
    (runOfLookup (join '/' names) mediaType (b.lookup (join '/' names))).outcome
    (runOfRead ⟨p.root, p.segments ++ names⟩ (join '/' names) mediaType
      (v.read ⟨p.root, p.segments ++ names⟩)).outcome
  cases hread : v.read ⟨p.root, p.segments ++ names⟩ with
  | ok content =>
      rw [(hiff content).mp hread]
      exact .found content mediaType _
  | error reason =>
      cases hlookup : b.lookup (join '/' names) with
      | none => exact .missing mediaType _
      | some content =>
          rw [(hiff content).mpr hlookup] at hread
          cases hread

/-- Requests do not tell a directory from a bundle that mirrors its path. -/
theorem interchangeable_of_mirrors {directory : Text} (hrooted : directory.head? = some '/')
    (hmirrors : Mirrors v (Path.ofText directory) b) (c : Config) (url : Text)
    (hmarkers : ∀ name, nameUnderMount c url = some name →
      ∀ marker ∈ Request.serveMarkers, Request.startsWith name marker = false)
    (other : Bundle) (w : Volume) :
    Interchangeable
      ((resolve { c with frontend := none } url).run (World.answer ⟨b, w⟩)).outcome
      ((resolve { c with frontend := some (.word (FileUrl.ofDirectory directory)) } url).run
        (World.answer ⟨other, v⟩)).outcome := by
  rw [run_resolve, run_resolve, outcome_afterNotes, outcome_afterNotes]
  -- The mount alone decides what is handled, so both routers seek the same name.
  have hsame : ∀ frontend, nameUnderMount { c with frontend } url = nameUnderMount c url :=
    fun _ => rfl
  rw [hsame none, hsame (some (.word (FileUrl.ofDirectory directory)))]
  cases hname : nameUnderMount c url with
  | none => exact .unhandled _
  | some name =>
      obtain ⟨names, hnames, hne, rfl⟩ := exists_names_of_nameUnderMount hname
      have hoverride : Config.override
          { c with frontend := some (.word (FileUrl.ofDirectory directory)) }
          = .file (FileUrl.ofDirectory directory) := Override.value_ofText_ofDirectory hrooted
      rw [hoverride]
      exact underMount_interchangeable hmirrors (FileUrl.toPath_ofDirectory hrooted) hnames hne
        (hmarkers _ hname) other _

/-- Two paths to one place load the same bundle, if they load one at all. They differ in how long
the paths of the files beneath them are, so either of them may be refused where the other is not. -/
theorem value_ofFolder_eq (hload : Bundle.ofFolder v p = .ok loaded)
    (hnamed : Bundle.ofFolder v q = .ok named) (hsame : v.locate p = v.locate q) :
    loaded.value = named.value := by
  obtain ⟨inside, hlist, -, -, rfl⟩ := Bundle.ofFolder_eq_ok_iff.mp hload
  obtain ⟨inside', hlist', -, -, rfl⟩ := Bundle.ofFolder_eq_ok_iff.mp hnamed
  have hlists : v.list p = v.list q := by
    unfold Volume.list
    rw [hsame]
  obtain rfl : inside = inside' := Except.ok.inj (hlist.symm.trans (hlists.trans hlist'))
  rfl

/-- The bundle may have been loaded along any path that leads to the directory of the override, a
relative one or one with double dots: requests do not tell. The directory has to load along the path
of the override too (`hnamed`), since a file beneath it may have a path that is too long when it is
spelled that way. What is asked of the markers is put in terms of whole lowercase texts, which for
these beginnings is what the router looks for. -/
theorem resolve_interchangeable_of_locate_eq {directory : Text} (hroot : v.root.WellFormed)
    (hrooted : directory.head? = some '/') (hload : Bundle.ofFolder v p = .ok loaded)
    (hnamed : Bundle.ofFolder v (Path.ofText directory) = .ok named)
    (hsame : v.locate p = v.locate (Path.ofText directory)) (c : Config) (url : Text)
    (hmarkers : ∀ name, nameUnderMount c url = some name →
      ∀ marker ∈ Request.serveMarkers, ¬ Text.lower marker <+: Text.lower name)
    (other : Bundle) (w : Volume) :
    Interchangeable
      ((resolve { c with frontend := none } url).run (World.answer ⟨loaded.value, w⟩)).outcome
      ((resolve { c with frontend := some (.word (FileUrl.ofDirectory directory)) } url).run
        (World.answer ⟨other, v⟩)).outcome := by
  have hmirrors : Mirrors v (Path.ofText directory) loaded.value := by
    rw [value_ofFolder_eq hload hnamed hsame]
    exact mirrors_of_ofFolder hroot hnamed
  refine interchangeable_of_mirrors hrooted hmirrors c url ?_ other w
  intro name hname marker hmarker
  rw [← Bool.not_eq_true, Request.startsWith_marker_iff hmarker]
  exact hmarkers name hname marker hmarker

/-- A relative path with a double dot in it, and the absolute path of the same directory. -/
example :
    let v : Volume := ⟨.folder "site".toList (.file "main.js".toList [77] .empty) .empty, []⟩
    v.locate (Path.ofText "site/../site".toList) = v.locate (Path.ofText "/site".toList) := by
  decide

end Resolve

end FrontendAssets
