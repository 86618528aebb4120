import FrontendAssets.Proofs.Request.CleanNames
import FrontendAssets.Proofs.Text.Lowercase
import FrontendAssets.Request.Mount
import FrontendAssets.Request.ServeMarker

/-!
# `FrontendAssets.Proofs.Request.Mount`: the segment that a beginning takes

A beginning that ends in its only slash, as the mount does, takes exactly the first name of a clean
path, whatever the letter case (`exists_eq_cons_of_startsWith`). The cut is made by counting
characters while the comparison is made on lowered text, which may be longer; that the two agree
rests on the slash, which lowercasing does not move. The second section is about serve markers: a
path that begins with none of them is left alone (`stripMarkers_of_no_marker`), and any other one
keeps its last name (`afterLast_stripMarkers`).
-/

set_option autoImplicit false

namespace FrontendAssets.Request

open Text (join)

/-- What has the length and the lowercase of a head is recognized, whatever stands behind it. -/
theorem startsWith_of_lower_eq {front head : Text} (hlength : front.length = head.length)
    (hlower : Text.lower front = Text.lower head) (t : Text) :
    startsWith (front ++ t) head = true := by
  rw [startsWith, List.take_left' hlength, hlower]
  exact beq_self_eq_true _

/-- A text that starts with a segment and a slash, in some letter case, has a segment and a slash of
the same number of characters in front. -/
theorem exists_take_eq_of_startsWith {t segment : Text} (hseg : '/' ∉ segment)
    (h : startsWith t (segment ++ ['/']) = true) :
    ∃ first : Text, '/' ∉ first ∧ t.take (segment ++ ['/']).length = first ++ ['/'] := by
  have hlower : Text.lower (t.take (segment ++ ['/']).length) = Text.lower segment ++ ['/'] := by
    rw [← Text.lower_concat_slash]
    exact eq_of_beq h
  have hfront : '/' ∉ Text.lower segment := Text.slash_not_mem_lowerFrom hseg false
  obtain ⟨first, rest, htake, hfirst, -, cased, hrest⟩ :=
    Text.exists_eq_append_slash_of_lower hfront hlower
  -- Nothing is left behind the slash.
  rw [Text.eq_nil_of_lowerFrom hrest] at htake
  exact ⟨first, hfirst, htake⟩

/-- A clean path that starts with a segment and a slash has its first name there, and goes on behind
it. -/
theorem exists_eq_cons_of_startsWith {names : List Text} {segment : Text}
    (hnames : ∀ n ∈ names, '/' ∉ n) (hseg : '/' ∉ segment)
    (h : startsWith (join '/' names) (segment ++ ['/']) = true) :
    ∃ (first : Text) (more : List Text), names = first :: more ∧ more ≠ []
      ∧ (join '/' names).take (segment ++ ['/']).length = first ++ ['/']
      ∧ (join '/' names).drop (segment ++ ['/']).length = join '/' more := by
  obtain ⟨first, hfirst, htake⟩ := exists_take_eq_of_startsWith hseg h
  have hwhole : join '/' names
      = first ++ '/' :: (join '/' names).drop (segment ++ ['/']).length := by
    conv => lhs; rw [← List.take_append_drop (segment ++ ['/']).length (join '/' names), htake]
    simp
  have hne : names ≠ [] := by
    rintro rfl
    simp [join] at hwhole
  -- Splitting the path at its slashes, the first piece ends where the cut was made.
  have hsplit : names = first :: Text.splitOn '/'
      ((join '/' names).drop (segment ++ ['/']).length) := by
    conv => lhs; rw [← Text.splitOn_join hne hnames, hwhole]
    rw [Text.splitOn_cons_append hfirst]
  exact ⟨first, _, hsplit, Text.splitOn_ne_nil _ _, htake, (Text.join_splitOn _ _).symm⟩

/-! ### Serve markers -/

/-- A path that does not begin with a marker is left alone, without a report. -/
theorem stripMarker_of_not_startsWith {marker path : Text} (h : startsWith path marker = false) :
    stripMarker marker path = { value := path } := by
  rw [stripMarker, if_neg (by simp [h])]

/-- A path that begins with no marker keeps its text, and nothing is reported. The markers are tried
one after the other, and each finds the path as it was. -/
theorem stripMarkers_of_no_marker {path : Text}
    (h : ∀ marker ∈ serveMarkers, startsWith path marker = false) :
    stripMarkers path = { value := path } := by
  unfold stripMarkers
  refine List.foldlRecOn (motive := fun stripped : Noted Text => stripped = { value := path })
    serveMarkers _ rfl ?_
  rintro stripped rfl marker hmarker
  rw [stripMarker_of_not_startsWith (h marker hmarker)]
  rfl

/-- A marker and its segment end in front of a slash, so the last segment is not among them. -/
theorem afterLast_stripMarker (marker path : Text) :
    Text.afterLast '/' (stripMarker marker path).value = Text.afterLast '/' path := by
  unfold stripMarker
  split
  · split
    · rename_i rest hcut
      obtain ⟨front, hfront⟩ := Text.exists_eq_of_cut hcut
      have hpath : path = (path.take (marker.length + 1) ++ front) ++ '/' :: rest := by
        rw [List.append_assoc, ← hfront, List.take_append_drop]
      show Text.afterLast '/' rest = _
      rw [hpath, Text.afterLast_append_cons_self]
    · rfl
  · rfl

/-- What is left behind the markers, one after the other, whatever was noted on the way. -/
theorem value_stripMarkers (path : Text) :
    (stripMarkers path).value
      = serveMarkers.foldl (fun left marker => (stripMarker marker left).value) path :=
  (List.foldl_hom Noted.value fun _ _ => rfl).symm

/-- All markers together keep the last segment, too. -/
theorem afterLast_stripMarkers (path : Text) :
    Text.afterLast '/' (stripMarkers path).value = Text.afterLast '/' path := by
  rw [value_stripMarkers]
  generalize serveMarkers = markers
  induction markers generalizing path with
  | nil => rfl
  | cons marker markers ih => rw [List.foldl_cons, ih, afterLast_stripMarker]

end FrontendAssets.Request
