import FrontendAssets.Text.Hex
import FrontendAssets.Text.Printable

/-!
# `FrontendAssets.Text.Quoted`: text in quotes for people to read

Messages quote the text that they complain about. The quotes are single, unless the text holds a
single quote and no double one. The quote in use and the backslash are escaped, line breaks and tabs
have short escapes, and what is not printable is written as its code point in hexadecimal.
What is printable is in the table of `FrontendAssets.Text.Printable`.
-/

set_option autoImplicit false

namespace FrontendAssets.Text

/-- The number of a code point as an escape of two, four or eight hexadecimal digits, whichever is
the first to hold it. Code points that are no characters have such an escape too. -/
def codeEscape (n : Nat) : Text :=
  if n < 0x100 then '\\' :: 'x' :: hexFixed 2 n
  else if n < 0x10000 then '\\' :: 'u' :: hexFixed 4 n
  else '\\' :: 'U' :: hexFixed 8 n

/-- A character inside the given quotes. The short escapes come before the question whether a
character is printable, since no line break or tab is. -/
def escapeIn (quote c : Char) : Text :=
  if c = quote ∨ c = '\\' then ['\\', c]
  else if c = '\n' then ['\\', 'n']
  else if c = '\r' then ['\\', 'r']
  else if c = '\t' then ['\\', 't']
  else if isPrintable c then [c]
  else codeEscape c.toNat

/-- The quotes for a text: double ones only where that spares an escape, that is around a text with
a single quote and without a double one. -/
def quoteFor (t : Text) : Char :=
  if t.contains '\'' && !t.contains '"' then '"' else '\''

/-- A text in quotes. Two texts look the same in quotes only if they are the same, since the quote
and the backslash are escaped. -/
def quoted (t : Text) : Text :=
  quoteFor t :: t.flatMap (escapeIn (quoteFor t)) ++ [quoteFor t]

end FrontendAssets.Text
