import FrontendAssets.Proofs.Request.MarkedNames
import FrontendAssets.Proofs.Text.LowercaseCut

/-!
# `FrontendAssets.Proofs.Request.LetterCase`: beginnings in any letter case

A text begins with a head in some letter case if the lowercase of the text begins with that of the
head. `startsWith` cuts first and lowers then, and so takes it for granted that lowercasing neither
moves a cut nor sees across it. Both fail: a capital I with a dot becomes two characters, and the
form of a capital sigma depends on what follows. `startsWith_iff_isPrefix_iff` says that the two
tests agree in all other cases, and `startsWith_misses_dotted` is a text that is the lowercase of
the head and not recognized.

Of heads that end in a slash, as mounts do, nothing is recognized that is not there
(`isPrefix_of_startsWith`). If their lowercase is ASCII besides, as that of the serve markers is,
nothing is missed either, in texts of any script (`startsWith_marker_iff`).
-/

set_option autoImplicit false

namespace FrontendAssets.Request

open Text (lower lowerLength lowerBefore endsAtSigma startsCased)

variable {segment t head : Text}

/-- Lowercasing respects a cut behind as many characters as `head` has: the beginning is to become
as long as the head, and it does not end with a capital sigma inside of a word. -/
structure CutsCleanly (head t : Text) : Prop where
  lowerLength_eq : lowerLength (t.take head.length) = lowerLength head
  not_at_sigma :
    (endsAtSigma false (t.take head.length) && startsCased (t.drop head.length)) = false

/-- Cutting a text first and lowering it first agree on whether it begins with a head exactly if
neither finds the head, or lowercasing respects the cut. -/
theorem startsWith_iff_isPrefix_iff (t head : Text) :
    (startsWith t head = true ↔ lower head <+: lower t)
      ↔ (startsWith t head = true ∨ lower head <+: lower t → CutsCleanly head t) := by
  have hstarts : startsWith t head = true ↔ lower (t.take head.length) = lower head :=
    beq_iff_eq
  -- Cut in front, the lowercase of the text is that of its beginning as it stands there, followed
  -- by more.
  have hbegins (h : lowerLength (t.take head.length) = lowerLength head) :
      lower head <+: lower t
        ↔ lower head = lowerBefore (t.drop head.length) false (t.take head.length) := by
    conv => lhs; rw [← List.take_append_drop head.length t]
    exact Text.isPrefix_lower_append_iff (by rw [Text.length_lower, h])
  have hsigma := Text.lowerBefore_eq_iff (t.drop head.length) (t.take head.length) false
  -- If the tests agree, whichever of them finds the head, both do, and comparing the two finds
  -- gives both conditions.
  constructor
  · intro hagree heither
    have hlower := hstarts.mp (heither.elim id hagree.mpr)
    have hlength : lowerLength (t.take head.length) = lowerLength head := by
      rw [← Text.length_lower, hlower, Text.length_lower]
    have hbefore := (hbegins hlength).mp (hagree.mp (hstarts.mpr hlower))
    exact ⟨hlength, hsigma.mp (hbefore.symm.trans hlower.symm)⟩
  · intro hclean
    constructor
    · intro h
      obtain ⟨hlength, hcut⟩ := hclean (Or.inl h)
      exact (hbegins hlength).mpr ((hstarts.mp h).symm.trans (hsigma.mpr hcut).symm)
    · intro h
      obtain ⟨hlength, hcut⟩ := hclean (Or.inr h)
      exact hstarts.mpr ((hsigma.mpr hcut).symm.trans ((hbegins hlength).mp h).symm)

/-- An i and a combining dot are the lowercase of a capital I with a dot. The cut leaves the i
alone. -/
theorem startsWith_misses_dotted :
    let t : Text := ['i', '\u0307']
    let head : Text := ['İ']
    t = lower head ∧ ¬ (startsWith t head = true ↔ lower head <+: lower t) := by
  decide

/-- A capital sigma inside of a word is the final one of the head by itself. -/
example : startsWith "ΟΔΟΣ".toList "ΟΔΟΣ".toList = true
    ∧ startsWith "ΟΔΟΣΗ".toList "ΟΔΟΣ".toList = true
    ∧ ¬ lower "ΟΔΟΣ".toList <+: lower "ΟΔΟΣΗ".toList := by decide

/-! ### Heads that end in a slash -/

/-- What is recognized begins with the head in lowercase, whatever the two hold: behind a slash the
letter case is told anew. -/
theorem isPrefix_of_startsWith (hslash : '/' ∉ segment)
    (h : startsWith t (segment ++ ['/']) = true) : lower (segment ++ ['/']) <+: lower t := by
  obtain ⟨first, -, htake⟩ := exists_take_eq_of_startsWith hslash h
  have hlower : lower (first ++ ['/']) = lower (segment ++ ['/']) := by
    rw [← htake]
    exact eq_of_beq h
  -- The cut is behind a slash of the text itself.
  have hwhole : t = first ++ '/' :: t.drop (segment ++ ['/']).length := by
    conv => lhs; rw [← List.take_append_drop (segment ++ ['/']).length t, htake]
    simp
  obtain ⟨cased, hrest⟩ :=
    Text.exists_lowerFrom_append_slash first (t.drop (segment ++ ['/']).length) false
  rw [← hwhole] at hrest
  have hparts : lower t = lower first ++ '/' :: _ := hrest
  rw [← hlower, Text.lower_concat_slash, hparts]
  exact (List.prefix_append_right_inj (lower first)).mpr (List.prefix_append ['/'] _)

/-- A head in ASCII is recognized wherever the lowercase has it, in texts of any script. -/
theorem startsWith_slash_iff_isPrefix (hslash : '/' ∉ segment)
    (hascii : ∀ d ∈ lower segment, d.toNat < 0x80) (t : Text) :
    startsWith t (segment ++ ['/']) = true ↔ lower (segment ++ ['/']) <+: lower t := by
  refine ⟨isPrefix_of_startsWith hslash, ?_⟩
  rintro ⟨more, hmore⟩
  rw [Text.lower_concat_slash, ← List.append_cons] at hmore
  have hbefore : '/' ∉ lower segment := Text.slash_not_mem_lowerFrom hslash false
  obtain ⟨first, rest, rfl, -, hfirst, -⟩ :=
    Text.exists_eq_append_slash_of_lower hbefore hmore.symm
  -- Nothing is added by lowercasing on either side, so the cut is made at the slash.
  have hlength : first.length = segment.length := by
    rw [← Text.length_lower_of_ascii hascii, ← hfirst]
    exact (Text.length_lower_of_ascii (hfirst ▸ hascii)).symm
  have hhead : lower (first ++ ['/']) = lower (segment ++ ['/']) := by
    rw [Text.lower_concat_slash, Text.lower_concat_slash, hfirst]
  rw [List.append_cons]
  exact startsWith_of_lower_eq (by simp [hlength]) hhead rest

/-- The serve markers are recognized wherever the lowercase of a path begins with one. -/
theorem startsWith_marker_iff {marker : Text} (h : marker ∈ serveMarkers) (path : Text) :
    startsWith path marker = true ↔ lower marker <+: lower path := by
  rw [serveMarkers_eq] at h
  obtain ⟨name, hname, rfl⟩ := List.mem_map.mp h
  obtain ⟨hslash, hascii⟩ := ascii_lower_of_mem_markerNames hname
  exact startsWith_slash_iff_isPrefix hslash hascii path

end FrontendAssets.Request
