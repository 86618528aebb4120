import FrontendAssets.Text.Basic

/-!
# `FrontendAssets.Text.Utf8`: characters as bytes and back

Encoding is per character. Decoding keeps what the bytes read so far still owe, and accepts a byte
only if some character can begin that way, so overlong forms, surrogates and values past U+10FFFF
break off at their first wrong byte. Each broken-off beginning and each stray byte becomes one
replacement character, and the byte that broke it off is read afresh. Main statement:
`decode_encode`, every text survives.
-/

set_option autoImplicit false

namespace FrontendAssets.Utf8

/-- The bytes of one character: one for ASCII, and two to four beyond it, of which all but the first
carry six bits. A character is never a surrogate, so there are always bytes. -/
def encodeChar (c : Char) : Bytes :=
  let n := c.toNat
  if n < 0x80 then [UInt8.ofNat n]
  else if n < 0x800 then [UInt8.ofNat (0xC0 + n / 0x40), UInt8.ofNat (0x80 + n % 0x40)]
  else if n < 0x10000 then
    [UInt8.ofNat (0xE0 + n / 0x1000), UInt8.ofNat (0x80 + n / 0x40 % 0x40),
      UInt8.ofNat (0x80 + n % 0x40)]
  else
    [UInt8.ofNat (0xF0 + n / 0x40000), UInt8.ofNat (0x80 + n / 0x1000 % 0x40),
      UInt8.ofNat (0x80 + n / 0x40 % 0x40), UInt8.ofNat (0x80 + n % 0x40)]

/-- The bytes of a text, character by character. What a character is written as does not depend on
its neighbours, so encoding distributes over appending. -/
def encode (t : Text) : Bytes := t.flatMap encodeChar

/-- Something to decode: a byte, or a character that stands for itself. Unescaping a path gives
both, since its escapes are bytes and everything else is a character already. -/
inductive Item where
  | byte (b : UInt8)
  | char (c : Char)
  deriving DecidableEq, Repr

/-- What the bytes read so far still owe. This is the whole state of the decoder between two
items. -/
inductive Owed where
  /-- Nothing: a character has just ended. -/
  | nothing
  /-- A byte from `low` to `high`, then `further` continuations; `value` has the bits so far. -/
  | more (value low high further : Nat)
  deriving DecidableEq, Repr

/-- Stands in the place of bytes that are no character. -/
def replacement : Char := '\uFFFD'

/-- Read a byte where a character begins. ASCII is a character by itself, the lead of a longer form
owes its continuations, and everything else is replaced at once. -/
def begin (b : UInt8) : Text × Owed :=
  let n := b.toNat
  if n < 0x80 then ([Char.ofNat n], .nothing)
  -- Continuation bytes begin nothing, and two bytes would be too many for what is below 0x80.
  else if n < 0xC2 then ([replacement], .nothing)
  else if n < 0xE0 then ([], .more (n - 0xC0) 0x80 0xBF 0)
  -- The range of the second byte leaves out what fewer bytes hold, and the surrogates.
  else if n = 0xE0 then ([], .more 0 0xA0 0xBF 1)
  else if n = 0xED then ([], .more 0xD 0x80 0x9F 1)
  else if n < 0xF0 then ([], .more (n - 0xE0) 0x80 0xBF 1)
  else if n = 0xF0 then ([], .more 0 0x90 0xBF 2)
  else if n < 0xF4 then ([], .more (n - 0xF0) 0x80 0xBF 2)
  -- The last code point is 0x10FFFF.
  else if n = 0xF4 then ([], .more 4 0x80 0x8F 2)
  else ([replacement], .nothing)

/-- The replacement character for a beginning that is broken off. However many bytes it had, one
character stands for them. -/
def Owed.broken : Owed → Text
  | .nothing => []
  | .more .. => [replacement]

/-- Read one item. A byte that does not continue what was begun breaks it off and is then read as if
it stood at a beginning, so a good character behind a broken one is not lost. -/
def step (owed : Owed) : Item → Text × Owed
  | .char c => (owed.broken ++ [c], .nothing)
  | .byte b =>
    match owed with
    | .nothing => begin b
    | .more value low high further =>
      if low ≤ b.toNat ∧ b.toNat ≤ high then
        let value := value * 0x40 + (b.toNat - 0x80)
        match further with
        | 0 => ([Char.ofNat value], .nothing)
        | further + 1 => ([], .more value 0x80 0xBF further)
      else (replacement :: (begin b).1, (begin b).2)

/-- Read the rest of the items. At the end of the items a beginning that is still owed something is
broken off as well. -/
def decodeFrom (owed : Owed) : List Item → Text
  | [] => owed.broken
  | item :: items => (step owed item).1 ++ decodeFrom (step owed item).2 items

/-- The text of some items. A character between bytes ends what the bytes before it began, so bytes
on the two sides of a character are never taken together. -/
def decodeItems (items : List Item) : Text := decodeFrom .nothing items

/-- The text of some bytes. No bytes are refused: what is no character becomes a replacement
character. -/
def decode (bytes : Bytes) : Text := decodeItems (bytes.map .byte)

/-! ## Laws -/

/-- Numbers below 256 are the bytes that they are written as. -/
private theorem toNat_byte {n : Nat} (h : n < 256) : (UInt8.ofNat n).toNat = n := by
  simp [UInt8.toNat_ofNat', Nat.mod_eq_of_lt h]

/-- The code points of characters: all below 0x110000 but the surrogates. Both halves of the
statement are needed below, to keep the ranges of the second byte apart. -/
theorem toNat_range (c : Char) : c.toNat < 0xD800 ∨ 0xDFFF < c.toNat ∧ c.toNat < 0x110000 :=
  c.valid

/-- No character is without bytes, so a text is written as nothing only if it is empty. -/
theorem encodeChar_ne_nil (c : Char) : encodeChar c ≠ [] := by
  unfold encodeChar
  dsimp only
  split
  · simp
  split
  · simp
  split <;> simp

/-- The equation of the decoder for a byte whose step is known. The steps of one character are
chained by rewriting with it. -/
private theorem decodeFrom_byte {owed next : Owed} {b : UInt8} {t : Text} (items : List Item)
    (h : step owed (.byte b) = (t, next)) :
    decodeFrom owed (.byte b :: items) = t ++ decodeFrom next items := by
  rw [decodeFrom, h]

/-- A continuation in the range that is asked for, with more of them to come, adds its six bits. The
bound `hn` is that of a byte. -/
private theorem step_further {value low high further n : Nat} (hn : n < 256)
    (h : low ≤ n ∧ n ≤ high) :
    step (.more value low high (further + 1)) (.byte (UInt8.ofNat n))
      = ([], .more (value * 0x40 + (n - 0x80)) 0x80 0xBF further) := by
  simp only [step, toNat_byte hn, h, and_self, ↓reduceIte]

/-- The last continuation ends the character. The number that the bits make up is tied to the
character by `hc`, so that the arithmetic stays with the caller. -/
private theorem step_last {value low high n : Nat} {c : Char} (hn : n < 256)
    (h : low ≤ n ∧ n ≤ high) (hc : Char.ofNat (value * 0x40 + (n - 0x80)) = c) :
    step (.more value low high 0) (.byte (UInt8.ofNat n)) = ([c], .nothing) := by
  simp only [step, toNat_byte hn, h, and_self, ↓reduceIte, hc]

/-- The bytes of a character are read as that character, whatever follows. There is one case for
each number of bytes, and in each of them the lead byte is read first. -/
theorem decodeFrom_encodeChar (c : Char) (items : List Item) :
    decodeFrom .nothing ((encodeChar c).map .byte ++ items) = c :: decodeFrom .nothing items := by
  have hrange := toNat_range c
  have hback : ∀ n : Nat, n = c.toNat → Char.ofNat n = c := by
    rintro n rfl; exact Char.ofNat_toNat c
  -- The character is forgotten but for its number `n`, on which all comparisons are.
  unfold encodeChar
  generalize c.toNat = n at hrange hback
  dsimp only
  split
  · rename_i h
    have lead : step .nothing (.byte (UInt8.ofNat n)) = ([c], .nothing) := by
      simp only [step, begin, toNat_byte (show n < 256 by omega), h, ↓reduceIte, hback n rfl]
    simp only [List.map_cons, List.map_nil, List.cons_append, List.nil_append]
    rw [decodeFrom_byte _ lead]
    rfl
  split
  · have lead : step .nothing (.byte (UInt8.ofNat (0xC0 + n / 0x40)))
        = ([], .more (n / 0x40) 0x80 0xBF 0) := by
      simp only [step, begin, toNat_byte (show 0xC0 + n / 0x40 < 256 by omega)]
      rw [if_neg (by omega), if_neg (by omega), if_pos (by omega), Nat.add_sub_cancel_left]
    simp only [List.map_cons, List.map_nil, List.cons_append, List.nil_append]
    rw [decodeFrom_byte _ lead,
      decodeFrom_byte _ (step_last (by omega) (by omega) (hback _ (by omega)))]
    rfl
  split
  · have lead : ∃ low high, step .nothing (.byte (UInt8.ofNat (0xE0 + n / 0x1000)))
        = ([], .more (n / 0x1000) low high 1)
        ∧ low ≤ 0x80 + n / 0x40 % 0x40 ∧ 0x80 + n / 0x40 % 0x40 ≤ high := by
      simp only [step, begin, toNat_byte (show 0xE0 + n / 0x1000 < 256 by omega)]
      rw [if_neg (by omega), if_neg (by omega), if_neg (by omega)]
      -- A zero in the lead leaves out what two bytes can hold, so the second byte is 0xA0 or more.
      by_cases h0 : n / 0x1000 = 0
      · rw [if_pos (by omega), h0]
        exact ⟨_, _, rfl, by omega, by omega⟩
      rw [if_neg (by omega)]
      -- Behind this lead the surrogates would begin at 0xA0, and `hrange` says that `n` is none.
      by_cases hd : n / 0x1000 = 0xD
      · rw [if_pos (by omega), hd]
        exact ⟨_, _, rfl, by omega, by omega⟩
      rw [if_neg (by omega), if_pos (by omega), Nat.add_sub_cancel_left]
      exact ⟨_, _, rfl, by omega, by omega⟩
    obtain ⟨low, high, lead, hlow, hhigh⟩ := lead
    simp only [List.map_cons, List.map_nil, List.cons_append, List.nil_append]
    rw [decodeFrom_byte _ lead, decodeFrom_byte _ (step_further (by omega) ⟨hlow, hhigh⟩),
      decodeFrom_byte _ (step_last (by omega) (by omega) (hback _ (by omega)))]
    rfl
  · have lead : ∃ low high, step .nothing (.byte (UInt8.ofNat (0xF0 + n / 0x40000)))
        = ([], .more (n / 0x40000) low high 2)
        ∧ low ≤ 0x80 + n / 0x1000 % 0x40 ∧ 0x80 + n / 0x1000 % 0x40 ≤ high := by
      simp only [step, begin, toNat_byte (show 0xF0 + n / 0x40000 < 256 by omega)]
      rw [if_neg (by omega), if_neg (by omega), if_neg (by omega), if_neg (by omega),
        if_neg (by omega), if_neg (by omega)]
      -- The two ends of the range are cut short: at 0x10000, and at the last code point.
      by_cases h0 : n / 0x40000 = 0
      · rw [if_pos (by omega), h0]
        exact ⟨_, _, rfl, by omega, by omega⟩
      rw [if_neg (by omega)]
      by_cases h4 : n / 0x40000 = 4
      · rw [if_neg (by omega), if_pos (by omega), h4]
        exact ⟨_, _, rfl, by omega, by omega⟩
      rw [if_pos (by omega), Nat.add_sub_cancel_left]
      exact ⟨_, _, rfl, by omega, by omega⟩
    obtain ⟨low, high, lead, hlow, hhigh⟩ := lead
    simp only [List.map_cons, List.map_nil, List.cons_append, List.nil_append]
    rw [decodeFrom_byte _ lead, decodeFrom_byte _ (step_further (by omega) ⟨hlow, hhigh⟩),
      decodeFrom_byte _ (step_further (by omega) (by omega)),
      decodeFrom_byte _ (step_last (by omega) (by omega) (hback _ (by omega)))]
    rfl

/-- Every text survives encoding and decoding. The converse fails, since bytes that are no text are
replaced. -/
theorem decode_encode (t : Text) : decode (encode t) = t := by
  unfold decode decodeItems encode
  induction t with
  | nil => rfl
  | cons c rest ih =>
      rw [List.flatMap_cons, List.map_append, decodeFrom_encodeChar, ih]

end FrontendAssets.Utf8
