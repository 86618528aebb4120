import FrontendAssets.Diagnostic
import FrontendAssets.Request.Mount

/-!
# `FrontendAssets.Request.ServeMarker`: serve-mode segments in front of a path

In serve mode a path begins with a marker and one more segment, a revision or the like, neither of
which belongs to the name of the resource. The markers are stripped in a fixed order, each at most
once, so one that was passed is not stripped when it turns up later.
-/

set_option autoImplicit false

namespace FrontendAssets.Request

/-- Drop a marker, which ends in a slash, and the segment after it. A path that ends with that
segment, or has none, stays as it is and is reported. The slash is looked for behind the first
character of the segment, so that the segment is not empty; but if that character is itself a slash,
the one found ends the segment behind it. -/
def stripMarker (marker path : Text) : Noted Text :=
  if startsWith path marker then
    match (Text.cut '/' (path.drop (marker.length + 1))).2 with
    | some rest => { value := rest }
    | none => { value := path, notes := [.unexpectedFormat path] }
  else { value := path }

/-- The serve markers in the order in which they are stripped. -/
def serveMarkers : List Text :=
  ["serve_rev/".toList, "serve_file/".toList, "serve_internal_file/".toList]

/-- Strip one marker after the other. Each is looked for at the beginning of what the one before it
left. -/
def stripMarkers (path : Text) : Noted Text :=
  serveMarkers.foldl
    (fun stripped marker =>
      let next := stripMarker marker stripped.value
      { value := next.value, notes := stripped.notes ++ next.notes })
    { value := path }

end FrontendAssets.Request
