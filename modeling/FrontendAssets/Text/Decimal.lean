import FrontendAssets.Text.Basic

/-!
# `FrontendAssets.Text.Decimal`: numbers in decimal

Counts, lengths and status codes are written in the fewest decimal digits, a negative number with a
minus sign in front.
-/

set_option autoImplicit false

namespace FrontendAssets.Text

/-- The decimal digits of a natural number. Zero has one digit. -/
def ofNat (n : Nat) : Text := Nat.toDigits 10 n

/-- The decimal digits of an integer, after a minus sign if it is negative. Status codes are
integers, since a caller may give any number. -/
def ofInt : Int → Text
  | .ofNat n => ofNat n
  | .negSucc n => '-' :: ofNat (n + 1)

end FrontendAssets.Text
