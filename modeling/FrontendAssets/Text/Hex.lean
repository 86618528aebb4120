import FrontendAssets.Text.Basic

/-!
# `FrontendAssets.Text.Hex`: hexadecimal digits

Digits in both letter cases are read, and each writer chooses one case. `hexValue?_hexUpper` says
that a written digit is read back.
-/

set_option autoImplicit false

namespace FrontendAssets.Text

/-- The digit of a number below sixteen, in capitals, as percent escapes are written. Larger numbers
give characters that are no digits, and nothing passes one. -/
def hexUpper (n : Nat) : Char :=
  if n < 10 then Char.ofNat (0x30 + n) else Char.ofNat (0x37 + n)

/-- The digit of a number below sixteen, in small letters, as quoted text writes its escapes. -/
def hexLower (n : Nat) : Char :=
  if n < 10 then Char.ofNat (0x30 + n) else Char.ofNat (0x57 + n)

/-- The value of a digit in either case, and nothing for any other character, the digits of other
scripts among them. -/
def hexValue? (c : Char) : Option Nat :=
  if 0x30 ≤ c.toNat ∧ c.toNat ≤ 0x39 then some (c.toNat - 0x30)
  else if 0x41 ≤ c.toNat ∧ c.toNat ≤ 0x46 then some (c.toNat - 0x37)
  else if 0x61 ≤ c.toNat ∧ c.toNat ≤ 0x66 then some (c.toNat - 0x57)
  else none

/-- Whether a character is a hexadecimal digit, in capital or small letters. -/
def isHexDigit (c : Char) : Bool := (hexValue? c).isSome

/-- The lowest `width` hexadecimal digits of a number, in small letters. Leading zeros are written,
so the width alone tells the length. -/
def hexFixed : (width : Nat) → Nat → Text
  | 0, _ => []
  | width + 1, n => hexFixed width (n / 16) ++ [hexLower (n % 16)]

/-! ## Laws -/

/-- A digit that was written is read back. There are sixteen of them, and each is tried. -/
theorem hexValue?_hexUpper {n : Nat} (h : n < 16) : hexValue? (hexUpper n) = some n := by
  have all : ∀ m ∈ List.range 16, hexValue? (hexUpper m) = some m := by decide
  exact all n (List.mem_range.mpr h)

end FrontendAssets.Text
