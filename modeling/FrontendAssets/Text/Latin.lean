import FrontendAssets.Text.Codec

/-!
# `FrontendAssets.Text.Latin`: one byte for each character

The first 256 characters are written as one byte each, the byte being the code point. Message
headers and raw request targets are such text. What is encoded may be any loose text, and is refused
with its first run of code points without a byte. What is decoded is always a text, since the
surrogates lie beyond the bytes.

`encode_decode` and `decode_encode` say that the two directions undo each other.
-/

set_option autoImplicit false

namespace FrontendAssets.Latin

/-- A byte for each code point; beyond the first 256 code points the bytes mean nothing, and
`encode` never gives them out. -/
def bytes (t : LooseText) : Bytes := t.map fun p => UInt8.ofNat p.toNat

/-- The bytes of a text, if each of its code points has one. The number of bytes is then the number
of code points. -/
def encode (t : LooseText) : Except Unencodable Bytes := Codec.latin.checked t (bytes t)

/-- The text of some bytes, a character for each. Every byte has one, so this never fails. -/
def decode (bytes : Bytes) : Text :=
  bytes.map fun b => Char.ofNat b.toNat

/-! ## Laws -/

/-- Text in the first 256 code points is written byte for byte. -/
theorem encode_eq_ok {t : LooseText} (h : ∀ p ∈ t, Codec.latin.fits p = true) :
    encode t = .ok (bytes t) :=
  Codec.checked_eq_ok h

/-- A text is written exactly if each of its code points fits into a byte. -/
theorem encode_isOk_iff (t : LooseText) :
    (∃ bytes, encode t = .ok bytes) ↔ ∀ p ∈ t, Codec.latin.fits p = true :=
  Codec.checked_isOk_iff

/-- A byte is the number of the character that it is read as, since no byte is a surrogate. -/
theorem toNat_ofNat_byte (b : UInt8) : (Char.ofNat b.toNat).toNat = b.toNat := by
  have hb : b.toNat < 256 := b.toNat_lt
  have hv : b.toNat.isValidChar := Or.inl (by omega)
  rw [Char.ofNat, dif_pos hv]
  rfl

/-- Bytes that are read as text are written as the same bytes. So a raw target that was read
survives being written again, whatever bytes it holds. -/
theorem encode_decode (bytes : Bytes) : encode (decode bytes) = .ok bytes := by
  have hfit : ∀ p ∈ LooseText.ofText (decode bytes), Codec.latin.fits p = true := by
    intro p hp
    obtain ⟨c, hc, rfl⟩ := List.mem_map.mp hp
    obtain ⟨b, -, rfl⟩ := List.mem_map.mp hc
    have hb : b.toNat < 256 := b.toNat_lt
    simpa [Codec.fits, CodePoint.toNat, toNat_ofNat_byte] using hb
  rw [encode_eq_ok hfit, Latin.bytes, LooseText.ofText, decode, List.map_map, List.map_map]
  have : ((fun p : CodePoint => UInt8.ofNat p.toNat) ∘ CodePoint.char)
      ∘ (fun b : UInt8 => Char.ofNat b.toNat) = id := by
    funext b
    simp [CodePoint.toNat, toNat_ofNat_byte]
  rw [this, List.map_id]

/-- Text that is written is read as the same text. A half is never written, so what is read is all
that there was. A server that reads headers back therefore sees what was meant. -/
theorem decode_encode {t : LooseText} {bytes : Bytes} (h : encode t = .ok bytes) :
    LooseText.ofText (decode bytes) = t := by
  have hfit := (encode_isOk_iff t).mp ⟨bytes, h⟩
  rw [encode_eq_ok hfit] at h
  cases h
  rw [LooseText.ofText, decode, Latin.bytes, List.map_map, List.map_map]
  conv => rhs; rw [← List.map_id t]
  apply List.map_congr_left
  -- Both directions work code point by code point, so it is enough to look at one.
  intro p hp
  have hp : p.toNat < 256 := by simpa [Codec.fits] using hfit p hp
  cases p with
  | half n =>
      rw [CodePoint.toNat] at hp
      omega
  | char c =>
      rw [CodePoint.toNat] at hp
      simp only [Function.comp, CodePoint.toNat, UInt8.toNat_ofNat', id]
      rw [Nat.mod_eq_of_lt hp, Char.ofNat_toNat]

end FrontendAssets.Latin
