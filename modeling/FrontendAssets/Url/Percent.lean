import FrontendAssets.Text.Codec
import FrontendAssets.Text.Utf8

/-!
# `FrontendAssets.Url.Percent`: percent escapes

Encoding keeps the unreserved characters and those that the caller declares safe, and writes every
other character as the escapes of its bytes. Decoding reads escapes in either letter case as bytes
of text, leaves a percent sign that begins no escape alone, and lets every unescaped character stand
for itself. Decoding happens once: an escaped percent sign comes out as a percent sign. Main
statement: `decode_encode`, decoding undoes encoding as long as the percent sign is not safe.

The bytes that are escaped are those of UTF-8, so half a surrogate pair has no escape. `encode` is
about texts, which hold none; `encodeLoose` takes what a server hands over and may refuse it.
-/

set_option autoImplicit false

namespace FrontendAssets.Percent

/-- Letters, digits and the four marks that never need an escape. The letters are those of ASCII. -/
def isUnreserved (c : Char) : Bool :=
  c.isAlphanum || c == '_' || c == '.' || c == '-' || c == '~'

/-- The escape of a byte: a percent sign and two digits in capitals. -/
def escape (b : UInt8) : Text :=
  ['%', Text.hexUpper (b.toNat / 16), Text.hexUpper (b.toNat % 16)]

/-- A character, escaped unless it is unreserved or safe. A character beyond ASCII has an escape for
each of its bytes. -/
def encodeChar (safe : Text) (c : Char) : Text :=
  if isUnreserved c || safe.contains c then [c] else (Utf8.encodeChar c).flatMap escape

/-- Escape a text; `safe` lists ASCII characters to keep besides the unreserved ones. The callers
differ in what is safe, and comparing two escaped texts with different safe characters goes wrong
(`HttpScope.requestUrl`). -/
def encode (safe : Text) (t : Text) : Text := t.flatMap (encodeChar safe)

/-- Escape a loose text. This fails with the first run of halves of surrogate pairs in it, wherever
the run stands and whatever is safe. -/
def encodeLoose (safe : Text) (t : LooseText) : Except Unencodable Text :=
  t.toText.map (encode safe)

/-- The byte that two hexadecimal digits stand for, in capitals or small letters. -/
def byte? (high low : Char) : Option UInt8 :=
  match Text.hexValue? high, Text.hexValue? low with
  | some h, some l => some (UInt8.ofNat (h * 16 + l))
  | _, _ => none

/-- Read escapes as bytes and everything else as it stands. A percent sign without two digits behind
it stands for itself, and reading goes on right behind it, so `%%41` is a percent sign and an
escape. -/
def items : Text → List Utf8.Item
  | [] => []
  | '%' :: high :: low :: rest =>
    match byte? high low with
    | some b => .byte b :: items rest
    | none => .char '%' :: items (high :: low :: rest)
  | c :: rest => .char c :: items rest

/-- The text that an escaped text stands for. Escapes side by side are decoded together, since they
may be the bytes of one character. -/
def decode (t : Text) : Text := Utf8.decodeItems (items t)

/-! ## Laws -/

/-- Text without halves is escaped as ever, so the check for halves makes no difference to it. -/
@[simp] theorem encodeLoose_ofText (safe t : Text) :
    encodeLoose safe (LooseText.ofText t) = .ok (encode safe t) := by
  rw [encodeLoose, LooseText.toText_ofText]
  rfl

/-- The digits of an escape are read back as its byte. -/
theorem byte?_hexUpper (b : UInt8) :
    byte? (Text.hexUpper (b.toNat / 16)) (Text.hexUpper (b.toNat % 16)) = some b := by
  have hb : b.toNat < 256 := b.toNat_lt
  rw [byte?, Text.hexValue?_hexUpper (by omega), Text.hexValue?_hexUpper (by omega)]
  simp only [Option.some.injEq]
  have : b.toNat / 16 * 16 + b.toNat % 16 = b.toNat := by omega
  rw [this, UInt8.ofNat_toNat]

/-- An escape is read as its byte, whatever follows. -/
theorem items_escape_append (b : UInt8) (rest : Text) :
    items (escape b ++ rest) = .byte b :: items rest := by
  simp only [escape, List.cons_append, List.nil_append, items, byte?_hexUpper]

/-- A row of escapes is read as its bytes, whatever follows. -/
theorem items_escapes_append (bytes : Bytes) (rest : Text) :
    items (bytes.flatMap escape ++ rest) = bytes.map .byte ++ items rest := by
  induction bytes with
  | nil => rfl
  | cons b bytes ih =>
      rw [List.flatMap_cons, List.append_assoc, items_escape_append, ih]
      rfl

/-- Everything but a percent sign stands for itself, whatever follows it. -/
theorem items_cons_of_ne {c : Char} (h : c ≠ '%') (rest : Text) :
    items (c :: rest) = .char c :: items rest := by
  rw [items]
  intro high low rest' hc
  exact absurd hc h

/-- The percent sign is escaped unless it is safe. Otherwise what was escaped could not be told from
what was kept. -/
theorem ne_percent_of_kept {safe : Text} (h : '%' ∉ safe) {c : Char}
    (hc : (isUnreserved c || safe.contains c) = true) : c ≠ '%' := by
  rintro rfl
  rcases Bool.or_eq_true _ _ |>.mp hc with hu | hs
  · exact absurd hu (by decide)
  · exact h (List.contains_iff_mem.mp hs)

/-- Decoding undoes encoding, whatever follows, as long as the percent sign is not safe. The rest is
left open because escapes side by side are decoded together, so it is not clear from the outset that
the text ends where its encoding does. -/
theorem decode_encode_append {safe : Text} (h : '%' ∉ safe) (t rest : Text) :
    decode (encode safe t ++ rest) = t ++ decode rest := by
  unfold decode Utf8.decodeItems encode
  -- A character that is kept stands for itself; one that is escaped comes back from its bytes.
  induction t with
  | nil => rfl
  | cons c t ih =>
      rw [List.flatMap_cons, List.append_assoc, encodeChar]
      split
      · rename_i hc
        rw [List.singleton_append, items_cons_of_ne (ne_percent_of_kept h hc), Utf8.decodeFrom,
          Utf8.step, ih]
        rfl
      · rw [items_escapes_append, Utf8.decodeFrom_encodeChar, ih]
        rfl

/-- Decoding undoes encoding as long as the percent sign is not safe. In particular encoding loses
nothing. -/
theorem decode_encode {safe : Text} (h : '%' ∉ safe) (t : Text) :
    decode (encode safe t) = t := by
  have hwhole := decode_encode_append h t []
  rwa [List.append_nil, show decode [] = [] from rfl, List.append_nil] at hwhole

end FrontendAssets.Percent
