import FrontendAssets.Proofs.Text.Segments
import FrontendAssets.Request.ServeMarker

/-!
# `FrontendAssets.Proofs.Request.ServeMarker`: the segment that a serve marker takes with it

A serve marker goes together with the segment behind it, and this segment must not be empty.
`StripsSegment` says what this leaves of a path. Stripping looks for the slash that ends the segment
from the second character on, and so takes it for granted that the first one is no slash. If it is
one and another slash follows, the empty segment is passed over, and the segment behind it goes too
(`stripMarker_of_slash`). On all other paths exactly one segment is dropped, or none
(`stripMarker_stripsSegment_iff`).
-/

set_option autoImplicit false

namespace FrontendAssets.Request

variable {marker path rest front tail : Text} {c : Char}

/-- What stripping a marker should give: the path itself if it does not begin with the marker, the
text behind the non-empty segment that follows the marker, and the path with a report if no such
segment ends in a slash. -/
inductive StripsSegment (marker path : Text) : Noted Text → Prop
  /-- The path does not begin with the marker. -/
  | other (h : startsWith path marker = false) : StripsSegment marker path { value := path }
  /-- A segment follows the marker, it is not empty, and a slash ends it: marker, segment and slash
  are dropped. -/
  | segment {segment tail : Text} (h : startsWith path marker = true)
    (hrest : path.drop marker.length = segment ++ '/' :: tail) (hne : segment ≠ [])
    (hslash : '/' ∉ segment) : StripsSegment marker path { value := tail }
  /-- No such segment follows the marker: the path is kept, and reported. -/
  | unexpected (h : startsWith path marker = true)
    (hno : ∀ segment tail, path.drop marker.length = segment ++ '/' :: tail → segment ≠ [] →
      '/' ∈ segment) :
    StripsSegment marker path { value := path, notes := [.unexpectedFormat path] }

/-- Whether an empty segment follows the marker, and more segments follow the empty one. Of the text
behind the marker this says that it begins with a slash and holds another one. -/
def SkipsEmptySegment (marker path : Text) : Prop :=
  startsWith path marker = true
    ∧ ∃ rest, path.drop marker.length = '/' :: rest ∧ '/' ∈ rest

/-! ### Where the cut is made -/

/-- The slash is looked for behind the first character, whatever this character is. -/
theorem stripMarker_of_slash (h : startsWith path marker = true)
    (hrest : path.drop marker.length = c :: front ++ '/' :: tail) (hfront : '/' ∉ front) :
    stripMarker marker path = { value := tail } := by
  have hbehind : path.drop (marker.length + 1) = front ++ '/' :: tail := by
    rw [← List.drop_drop, hrest]
    rfl
  rw [stripMarker, if_pos h, hbehind, Text.cut_append_cons hfront]

/-- Without a slash behind the first character the path is reported. -/
theorem stripMarker_of_no_slash (h : startsWith path marker = true)
    (hrest : '/' ∉ (path.drop marker.length).drop 1) :
    stripMarker marker path = { value := path, notes := [.unexpectedFormat path] } := by
  rw [List.drop_drop] at hrest
  rw [stripMarker, if_pos h, Text.cut_of_not_mem hrest]

/-! ### One segment or two -/

/-- A segment in front of a slash begins with the first character. -/
theorem mem_of_cons_eq_append {segment : Text} (h : c :: rest = segment ++ '/' :: tail)
    (hne : segment ≠ []) : c ∈ segment := by
  obtain ⟨d, more, rfl⟩ := List.exists_cons_of_ne_nil hne
  rw [(List.cons.inj h).1]
  exact List.mem_cons_self ..

/-- Unless the search passes over an empty segment, it finds the end of the segment behind the
marker, or there is none to find. -/
theorem stripsSegment_of_not_skips (h : ¬ SkipsEmptySegment marker path) :
    StripsSegment marker path (stripMarker marker path) := by
  cases hstarts : startsWith path marker with
  | false =>
      rw [stripMarker, if_neg (by simp [hstarts])]
      exact .other hstarts
  | true =>
      cases hrest : path.drop marker.length with
      | nil =>
          rw [stripMarker_of_no_slash hstarts (by simp [hrest])]
          exact .unexpected hstarts fun segment tail heq => absurd heq (by simp [hrest])
      | cons c rest =>
          by_cases hslash : '/' ∈ rest
          · have hc : c ≠ '/' := fun he => h ⟨hstarts, rest, by rw [hrest, he], hslash⟩
            obtain ⟨front, tail, rfl, hfront⟩ := List.eq_append_cons_of_mem hslash
            rw [stripMarker_of_slash hstarts hrest hfront]
            exact .segment hstarts hrest (List.cons_ne_nil c front)
              (by simp [Ne.symm hc, hfront])
          · rw [stripMarker_of_no_slash hstarts (by simpa [hrest] using hslash)]
            refine .unexpected hstarts fun segment tail heq hne => ?_
            -- The only slash is the first character, so a segment in front of it would be empty.
            rw [hrest] at heq
            -- If the first character were a slash too, an empty segment would be passed over.
            have hc := mem_of_cons_eq_append heq hne
            have hall : '/' ∈ c :: rest := by
              rw [heq]
              simp
            rcases List.mem_cons.mp hall with rfl | hm
            · exact hc
            · exact absurd hm hslash

/-- Where it does pass over one, two segments are gone without a report, which is none of the three
things that stripping should give. -/
theorem not_stripsSegment_of_skips (h : SkipsEmptySegment marker path) :
    ¬ StripsSegment marker path (stripMarker marker path) := by
  obtain ⟨hstarts, rest, hrest, hslash⟩ := h
  obtain ⟨front, tail, rfl, hfront⟩ := List.eq_append_cons_of_mem hslash
  rw [stripMarker_of_slash hstarts hrest hfront]
  -- Without a report a segment was dropped, and there is none behind the marker.
  rintro (hother | ⟨-, heq, hne, hno⟩)
  · rw [hstarts] at hother
    cases hother
  · rw [hrest] at heq
    exact hno (mem_of_cons_eq_append heq hne)

/-- Stripping a marker drops exactly one non-empty segment, or reports that there is none, unless an
empty segment with more segments behind it follows the marker. -/
theorem stripMarker_stripsSegment_iff (marker path : Text) :
    StripsSegment marker path (stripMarker marker path) ↔ ¬ SkipsEmptySegment marker path :=
  ⟨fun h hskips => not_stripsSegment_of_skips hskips h, stripsSegment_of_not_skips⟩

/-- An empty segment is dropped together with the one behind it, and nothing is reported. -/
theorem stripMarker_skips_empty :
    let marker : Text := "serve_rev/".toList
    let path : Text := "serve_rev//40/main.js".toList
    marker ∈ serveMarkers ∧ stripMarker marker path = { value := "main.js".toList }
      ∧ ¬ StripsSegment marker path (stripMarker marker path) := by
  intro marker path
  have hskips : SkipsEmptySegment marker path :=
    ⟨by decide, "40/main.js".toList, by decide, by decide⟩
  exact ⟨by decide, by decide, not_stripsSegment_of_skips hskips⟩

end FrontendAssets.Request
