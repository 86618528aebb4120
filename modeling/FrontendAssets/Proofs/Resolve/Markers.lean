import FrontendAssets.Proofs.Request.MarkedNames
import FrontendAssets.Proofs.Resolve.Decomposition

/-!
# `FrontendAssets.Proofs.Resolve.Markers`: what an override seeks behind the serve markers

A file override and a remote one seek the same path: the names that the bundle would be asked for
without the serve markers in front (`resolve_drops_markers`). The two come to it on different ways.
The file strategy removes dot segments once more, which finds nothing to remove, since clean names
are left of clean names.
-/

set_option autoImplicit false

namespace FrontendAssets.Resolve

open Text (join splitOn)

variable {names : List Text}

/-- What any override seeks for clean names: those that are left behind the markers. -/
theorem sought_join (hnames : ∀ n ∈ names, Request.IsCleanName n) {o : Override} (h : o ≠ .none) :
    sought o (join '/' names) = join '/' (Request.behindMarkers names) := by
  have hstripped := Request.stripMarkers_join hnames
  have hleft : ∀ n ∈ Request.behindMarkers names, Request.IsCleanName n := fun n hn =>
    hnames n ((Request.behindMarkers_suffix names).mem hn)
  cases o with
  | none => exact absurd rfl h
  | file url =>
      show Request.removeDotSegments (Request.stripMarkers (join '/' names)).value = _
      rw [hstripped, Request.removeDotSegments_join hleft]
  | remote url => exact hstripped

/-- An override handles the addresses that are handled without one. The path that it reports is the
one reported without an override, from whose segments each marker is dropped once, in its order,
together with the segment behind it. Something is always left, with the same last segment, and
removing dot segments once more changes nothing. -/
theorem resolve_drops_markers (answer other : (q : Query) → q.Answer) (c : Config) (url : Text)
    (h : c.override ≠ .none) :
    ∃ plain r, ((resolve { c with frontend := none } url).run other).outcome = .ok plain
      ∧ ((resolve c url).run answer).outcome = .ok r
      ∧ r.handled = plain.handled
      ∧ (plain.handled = true →
        let left := (Request.stripMarkers plain.path).value
        r.path = left ∧ Request.removeDotSegments left = left
          ∧ splitOn '/' r.path = Request.behindMarkers (splitOn '/' plain.path)
          ∧ r.path ≠ []
          ∧ (splitOn '/' r.path).getLast? = (splitOn '/' plain.path).getLast?) := by
  obtain ⟨plain, hplain, -, hplainHandled⟩ :=
    exists_resolution other { c with frontend := none } url
  obtain ⟨r, hr, -, hhandled⟩ := exists_resolution answer c url
  -- The mount alone decides what is handled, so both routers seek the same name.
  have hsame : nameUnderMount { c with frontend := none } url = nameUnderMount c url := rfl
  rw [hsame] at hplainHandled
  refine ⟨plain, r, hplain, hr, hhandled.trans hplainHandled.symm, ?_⟩
  intro hyes left
  obtain ⟨name, hname⟩ : ∃ name, nameUnderMount c url = some name :=
    Option.isSome_iff_exists.mp (hplainHandled ▸ hyes)
  obtain ⟨names, hnames, hne, rfl⟩ := exists_names_of_nameUnderMount hname
  have hpath : plain.path = join '/' names := path_of_resolve hplain (hsame.trans hname)
  -- Two paths are told by their names from here on: that of the bundle, and that of the override.
  have hrpath : r.path = join '/' (Request.behindMarkers names) :=
    (path_of_resolve hr hname).trans (sought_join hnames h)
  have hleft : ∀ n ∈ Request.behindMarkers names, Request.IsCleanName n := fun n hn =>
    hnames n ((Request.behindMarkers_suffix names).mem hn)
  have hleftNe : Request.behindMarkers names ≠ [] := Request.behindMarkers_ne_nil hne
  have hstripped : left = join '/' (Request.behindMarkers names) := by
    rw [← Request.stripMarkers_join hnames, ← hpath]
  have hsegments : splitOn '/' plain.path = names := by
    rw [hpath, Text.splitOn_join hne fun n hn => (hnames n hn).slash_not_mem]
  have hrsegments : splitOn '/' r.path = Request.behindMarkers names := by
    rw [hrpath, Text.splitOn_join hleftNe fun n hn => (hleft n hn).slash_not_mem]
  refine ⟨hrpath.trans hstripped.symm, ?_, by rw [hrsegments, hsegments], ?_, ?_⟩
  · rw [hstripped, Request.removeDotSegments_join hleft]
  · rw [hrpath]
    exact fun he => hleftNe ((Text.join_eq_nil_iff fun n hn => (hleft n hn).ne_nil).mp he)
  · rw [hrsegments, hsegments, Request.getLast?_behindMarkers hne]

/-- Two markers in front of a file, the first in capital letters. A third one, which has its turn
before the second, stays. -/
theorem resolve_drops_markers_twice :
    let url : Text := "bundled/SERVE_REV/@1/serve_file/a/serve_rev/@2/main.js".toList
    let c : Config := { Config.default with frontend := some (.word "file:///site".toList) }
    let w : World := ⟨.empty, .bare []⟩
    c.override ≠ .none ∧ ∃ plain r,
      ((resolve { c with frontend := none } url).run w.answer).outcome = .ok plain
        ∧ ((resolve c url).run w.answer).outcome = .ok r
        ∧ plain.path = "SERVE_REV/@1/serve_file/a/serve_rev/@2/main.js".toList
        ∧ r.path = "serve_rev/@2/main.js".toList := by
  intro url c w
  have hoverride : c.override ≠ .none := by decide +kernel
  obtain ⟨plain, r, hplain, hr, -, hpaths⟩ :=
    resolve_drops_markers w.answer w.answer c url hoverride
  let path : Text := "SERVE_REV/@1/serve_file/a/serve_rev/@2/main.js".toList
  have hrun : ((resolve { c with frontend := none } url).run w.answer).outcome
      = .ok ⟨.bundleMiss, none, "application/javascript".toList, path⟩ := by decide +kernel
  obtain rfl := Except.ok.inj (hrun.symm.trans hplain)
  have hleft : (Request.stripMarkers path).value = "serve_rev/@2/main.js".toList := by
    decide +kernel
  exact ⟨hoverride, _, r, hplain, hr, rfl, (hpaths rfl).1.trans hleft⟩

end FrontendAssets.Resolve
