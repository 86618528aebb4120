import FrontendAssets.Text.Quoted

/-!
# `FrontendAssets.Arguments.Grammar`: what a command line may hold

A command line holds switches, which begin with a hyphen and may take a word, and operands, which
are the words that belong to no switch. A lone double hyphen, the divider, makes everything after it
operands. The key type `K` names the switches of one grammar.

The rules of this directory are those of the standard library's reader of command lines in releases
3.11.0 to 3.11.7, 3.12.0 and 3.12.1. Later releases differ in one point that matters here: they keep
a divider that is attached to a switch as its word, where these drop it (`Value.ofAttached`).
-/

set_option autoImplicit false

namespace FrontendAssets.Arguments

/-- A switch with its names in the order of its declaration. Complaints about it list them all. -/
structure Switch (K : Type) where
  key : K
  names : List Text
  takesWord : Bool
  deriving DecidableEq, Repr

/-- How many operands a grammar reads. The words of an operand stand together, and a switch between
them ends it. -/
inductive Operand where
  | one
  /-- One or more that stand together. -/
  | several
  /-- One, and everything after it, whatever it looks like. -/
  | remainder
  deriving DecidableEq, Repr

/-- The switches and the operand of a command line. -/
structure Grammar (K : Type) where
  switches : List (Switch K)
  operand : Option Operand
  /-- Whether the beginning of a name will do, if no other name begins so. -/
  abbreviates : Bool
  deriving DecidableEq, Repr

/-- The divider. Only the first one divides; behind it another one is a word. -/
def divider : Text := ['-', '-']

/-- What a switch was given: a word, or nothing where one was expected. The second is what is left
of an attached divider, which the reading takes away. -/
inductive Value where
  | word (w : Text)
  /-- A divider attached to the switch, which is dropped and leaves no word. -/
  | wordless
  deriving DecidableEq, Repr

/-- The value that attached text gives. A switch with an attached divider has been counted as one
with a word by then, so nothing complains that the word is missing. -/
def Value.ofAttached (w : Text) : Value := if w = divider then .wordless else .word w

/-- Why a command line is refused. A fault ends the reading, and what was read before it has been
acted on. -/
inductive Fault where
  /-- A beginning that several names share. -/
  | ambiguous (word : Text) (names : List Text)
  /-- A switch that takes a word has none. -/
  | missingWord (names : List Text)
  /-- A switch that takes no word is given one. -/
  | unusedWord (names : List Text) (word : Text)
  /-- A word that is not among the choices. -/
  | unknownChoice (names : List Text) (word : Text) (choices : List Text)
  deriving DecidableEq, Repr

/-- A complaint about one argument, which is told by all of its names. -/
def complaint (names : List Text) (what : Text) : Text :=
  "argument ".toList ++ Text.join '/' names ++ ": ".toList ++ what

/-- The complaint for a reader, behind the line that says how the program is called. -/
def Fault.message : Fault → Text
  | .ambiguous word names =>
    "ambiguous option: ".toList ++ word ++ " could match ".toList
      ++ Text.joinWith ", ".toList names
  | .missingWord names => complaint names "expected one argument".toList
  | .unusedWord names word =>
    complaint names ("ignored explicit argument ".toList ++ Text.quoted word)
  | .unknownChoice names word choices =>
    complaint names ("invalid choice: ".toList ++ Text.quoted word ++ " (choose from ".toList
      ++ Text.joinWith ", ".toList (choices.map Text.quoted) ++ ")".toList)

namespace Grammar

variable {K : Type}

/-- Every name with its switch, in the order of declaration. -/
def named (g : Grammar K) : List (Text × Switch K) :=
  g.switches.flatMap fun s => s.names.map fun name => (name, s)

/-- The switch with a name. Names are compared in full and with their letter case. -/
def find? (g : Grammar K) (name : Text) : Option (Switch K) :=
  (g.named.find? fun entry => entry.1 == name).map Prod.snd

end Grammar

end FrontendAssets.Arguments
