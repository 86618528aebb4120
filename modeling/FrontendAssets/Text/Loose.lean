import FrontendAssets.Text.Lowercase

/-!
# `FrontendAssets.Text.Loose`: text that may hold half a surrogate pair

Two kinds of text come from outside: what a server says about a connection, and what a caller puts
into a response. Both are rows of code points, and 2048 of the code points are no characters. They
are the halves of surrogate pairs. A pair stands for one character, but a half that stands alone
stands for none, and UTF-8 has no bytes for it.

`Text` leaves the halves out, and `LooseText` keeps them. Every text is a loose one (`ofText`), and
the coercion is used wherever a text meets a loose one. Nothing in the library makes a half: only
what comes from outside can hold one, and it is compared, lowered and encoded, never taken apart.

A half is neither a letter nor skipped in looking for the end of a word, so it ends a word like a
space does. Lowercasing therefore works on the texts between the halves, each for itself
(`lower_ofText` is the case without halves).
-/

set_option autoImplicit false

namespace FrontendAssets

/-- A code point: a character, or half a surrogate pair that stands alone. The two kinds are
constructors of their own, so that a proof about characters never has to exclude a range of
numbers. -/
inductive CodePoint where
  | char (c : Char)
  /-- The half with the number `0xD800 + n`. -/
  | half (n : Fin 0x800)
  deriving DecidableEq, Repr

namespace CodePoint

/-- The number of a code point, by which Latin-1 and the messages about it go. -/
def toNat : CodePoint → Nat
  | .char c => c.toNat
  | .half n => 0xD800 + n

/-- The character that a code point is, if it is one. Dropping the halves of a text with it gives
the text that is left. -/
def char? : CodePoint → Option Char
  | .char c => some c
  | .half _ => none

end CodePoint

/-- Text as a row of code points, in which halves of surrogate pairs may stand alone. The fields of
a scope and of a response are of this type; everything that the library makes itself is a `Text`. -/
abbrev LooseText := List CodePoint

namespace LooseText

/-- A text as a loose text, which holds no half. The map is injective (`ofText_inj`), and its image
is what UTF-8 can write (`toText_eq_ok_iff`). -/
def ofText (t : Text) : LooseText := t.map .char

instance : Coe Text LooseText := ⟨ofText⟩

/-- The text in front of the first half, and each half with the text up to the next one. Nothing is
lost: the pieces in order are the loose text. -/
def runs : LooseText → Text × List (Fin 0x800 × Text)
  | [] => ([], [])
  | .char c :: rest => (c :: (runs rest).1, (runs rest).2)
  | .half n :: rest => ([], (n, (runs rest).1) :: (runs rest).2)

/-- The lowercase of a loose text. The texts between the halves are lowered each for itself, and the
halves stay as they are. Header names are the only loose texts that are lowered. -/
def lower (t : LooseText) : LooseText :=
  ofText (Text.lower (runs t).1)
    ++ (runs t).2.flatMap fun run => .half run.1 :: ofText (Text.lower run.2)

/-! ## Laws -/

/-- The coercion goes character by character. -/
theorem ofText_cons (c : Char) (t : Text) : ofText (c :: t) = .char c :: ofText t := rfl

/-- Different texts are different loose texts, so nothing is lost in comparing the loose ones: a
method is `GET` exactly if its text is. -/
theorem ofText_inj {s t : Text} : ofText s = ofText t ↔ s = t :=
  List.map_inj_right fun _ _ h => CodePoint.char.inj h

/-- Nothing is dropped from a text, since it has no half. -/
@[simp] theorem filterMap_char?_ofText (t : Text) : (ofText t).filterMap CodePoint.char? = t := by
  induction t with
  | nil => rfl
  | cons c t ih => rw [ofText_cons, List.filterMap_cons, CodePoint.char?, ih]

/-- A text is one run, with no half behind it. -/
theorem runs_ofText (t : Text) : runs (ofText t) = (t, []) := by
  induction t with
  | nil => rfl
  | cons c t ih => rw [ofText_cons, runs, ih]

/-- A text without halves is lowered as a whole, so the lowercase of names in plain text is the one
of `Text.lower`. -/
@[simp] theorem lower_ofText (t : Text) : lower (ofText t) = ofText (Text.lower t) := by
  rw [lower, runs_ofText, List.flatMap_nil, List.append_nil]

/-- A sigma in front of a half is at the end of a word, and the letter behind the half begins
one. -/
example : lower [.char 'Α', .char 'Σ', .half 0, .char 'Α']
    = [.char 'α', .char 'ς', .half 0, .char 'α'] := by decide +kernel

end LooseText

end FrontendAssets
