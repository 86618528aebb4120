import FrontendAssets.MediaType
import FrontendAssets.Text.Codec

/-!
# `FrontendAssets.Proofs.MediaType`: what content types can be

A content type is the fallback or one of the table, so what holds of these holds of the type of any
name (`ofFilename_of_types`) and of any address (`ofUrl_of_types`). Each has one byte for each
character, and stands on one line.
-/

set_option autoImplicit false

namespace FrontendAssets.MediaType

/-- What comes out of a table is one of its types, or the fallback. Which one is a matter of the
name and of the order of the rows, and is left open here. -/
theorem scan_eq_fallback_or (rows : List (List Text × Text)) (name : Text) :
    scan rows name = fallback ∨ ∃ row ∈ rows, scan rows name = row.2 := by
  unfold scan
  split
  · rename_i row type hfind
    exact Or.inr ⟨_, List.mem_of_find?_eq_some hfind, rfl⟩
  · exact Or.inl rfl

section Types

variable {P : Text → Prop} (hfallback : P fallback) (htable : ∀ row ∈ table, P row.2)

include hfallback htable

/-- What holds of the fallback and of every type in the table holds of the type of any name. -/
theorem ofFilename_of_types (name : Text) : P (ofFilename name) := by
  unfold ofFilename
  rcases scan_eq_fallback_or table (Text.lower name) with h | ⟨row, hrow, h⟩
  · rw [h]
    exact hfallback
  · rw [h]
    exact htable row hrow

/-- It holds of the type of any address, too: this is the type of its last segment, or the fallback
if it has none. -/
theorem ofUrl_of_types (url : Text) : P (ofUrl url) := by
  unfold ofUrl
  split
  · exact hfallback
  · exact ofFilename_of_types hfallback htable _

end Types

/-- The content type of an address has one byte for each character in Latin-1, so the header that
carries it can always be encoded. -/
theorem all_fits_ofUrl (url : Text) : (LooseText.ofText (ofUrl url)).all Codec.latin.fits = true :=
  ofUrl_of_types (P := fun type => (LooseText.ofText type).all Codec.latin.fits = true)
    (by decide) (by decide) url

/-- The content type of an address stands on one line, so it cannot end a header early. -/
theorem newline_not_mem_ofUrl (url : Text) : '\n' ∉ ofUrl url :=
  ofUrl_of_types (P := fun type => '\n' ∉ type) (by decide) (by decide) url

end FrontendAssets.MediaType
