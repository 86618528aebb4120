import FrontendAssets.Arguments.Grammar
import FrontendAssets.Text.DecimalDigit

/-!
# `FrontendAssets.Arguments.Token`: what each argument is

Each argument is judged for itself before any of them is read: it is a switch of the grammar, a
word, or something that looks like a switch and is none. A negative number and text with a space are
words although they begin with a hyphen.
-/

set_option autoImplicit false

namespace FrontendAssets.Arguments

/-- An argument and what it is. The argument itself is kept, since a remainder takes it as it was
given. -/
inductive Token (K : Type) where
  | word (w : Text)
  /-- A switch under one of its names, with the text attached to it. -/
  | switch (source : Text) (s : Switch K) (name : Text) (attached : Option Text)
  /-- Looks like a switch and is none. -/
  | unknown (source : Text)
  | divider
  deriving DecidableEq, Repr

/-- A hyphen and a decimal number of any script: digits, or digits after a point that may have
digits before it. A line break may follow, as the end of a line is matched in front of it too. -/
def isNegativeNumber : Text → Bool
  | '-' :: rest =>
    let body := if rest.getLast? = some '\n' then rest.dropLast else rest
    match Text.cut '.' body with
    | (digits, none) => !digits.isEmpty && digits.all Text.isDecimalDigit
    | (digits, some fraction) =>
      digits.all Text.isDecimalDigit && !fraction.isEmpty && fraction.all Text.isDecimalDigit
  | _ => false

namespace Token

variable {K : Type}

/-- The argument that was judged, as it was written. What takes everything behind it takes the
arguments and not what they were judged to be. -/
def source : Token K → Text
  | .word w => w
  | .switch source _ _ _ => source
  | .unknown source => source
  | .divider => Arguments.divider

/-- The switches that an argument may mean without naming one in full. After two hyphens that is a
name which begins so, where the grammar allows abbreviations; after one hyphen it is a short switch
with its word attached, or a name which begins so. -/
def candidates (g : Grammar K) (w : Text) : List (Token K) :=
  match w with
  | '-' :: '-' :: _ =>
    let (start, attached) := Text.cut '=' w
    if g.abbreviates then
      (g.named.filter fun entry => start.isPrefixOf entry.1).map
        fun entry => .switch w entry.2 entry.1 attached
    else []
  | _ =>
    g.named.filterMap fun entry =>
      if entry.1 = w.take 2 then some (.switch w entry.2 entry.1 (some (w.drop 2)))
      else if w.isPrefixOf entry.1 then some (.switch w entry.2 entry.1 none)
      else none

/-- The name under which a switch was found, as a complaint about several of them lists it. -/
def nameOf : Token K → Text
  | .switch _ _ name _ => name
  | token => token.source

/-- The switch that is named in full, alone or in front of an equals sign. A name in full goes
before every abbreviation, and an argument that is a name goes before what stands around an equals
sign in it. -/
def inFull? (g : Grammar K) (w : Text) : Option (Token K) :=
  match g.find? w with
  | some s => some (.switch w s w none)
  | none =>
    match Text.cut '=' w with
    | (name, some attached) =>
      (g.find? name).map fun s => .switch w s name (some attached)
    | (_, none) => none

/-- Judge an argument that is not the divider. What looks like a switch and could be none is a word
only if it is a number, or has a space in it. -/
def ofWord (g : Grammar K) (w : Text) : Except Fault (Token K) :=
  if w.head? ≠ some '-' then .ok (.word w)
  else
    match inFull? g w with
    | some token => .ok token
    | none =>
      if w.length = 1 then .ok (.word w)
      else
        match candidates g w with
        | [token] => .ok token
        | first :: second :: more =>
          .error (.ambiguous w ((first :: second :: more).map nameOf))
        | [] =>
          if isNegativeNumber w || w.contains ' ' then .ok (.word w) else .ok (.unknown w)

/-- Judge the arguments of a command line; after the divider all of them are words. An argument that
is ambiguous is a fault of the whole command line, wherever it stands. -/
def ofArguments (g : Grammar K) : List Text → Except Fault (List (Token K))
  | [] => .ok []
  | w :: rest =>
    if w = Arguments.divider then .ok (.divider :: rest.map .word)
    else do
      let token ← ofWord g w
      let tokens ← ofArguments g rest
      return token :: tokens

end Token

end FrontendAssets.Arguments
