import FrontendAssets.Arguments.Token

/-!
# `FrontendAssets.Arguments.Reading`: a command line as a list of events

A command line is read from left to right. Each switch takes the word attached to it or the word
after it, the operand takes the first words that no switch takes, and what nothing takes is left
over. The result lists these events in order; a fault ends it. Whoever reads the events may so act
on those before the fault.

What is read here are tokens, so each argument has been judged before. Two things follow that are
easy to miss: a fault in judging comes before every event, and a switch takes no word that looks
like a switch. Which releases of the standard library have these rules is said in
`FrontendAssets.Arguments.Grammar`; the point in which they differ is an attached divider, which
`unpack` passes on without a word.
-/

set_option autoImplicit false

namespace FrontendAssets.Arguments

/-- Something read from a command line. Reading makes a row of these, and what is to be done about
them is decided afterwards, in the order in which they were read. -/
inductive Event (K : Type) where
  /-- A switch that takes no word. -/
  | flag (key : K)
  | option (key : K) (value : Value)
  | operands (words : List Text)
  /-- An argument that nothing takes. -/
  | leftover (source : Text)
  deriving DecidableEq, Repr

/-- The events of a command line, and the fault that ended it. -/
structure Reading (K : Type) where
  events : List (Event K)
  fault : Option Fault
  deriving DecidableEq, Repr

/-- The state of the operand. It moves on from waiting to closed, and never back. -/
inductive Slot where
  | waiting (operand : Operand)
  /-- Several operands, of which these have been read. -/
  | filling (words : List Text)
  /-- The operand has just been read, and a divider right behind it is dropped. -/
  | settled
  | closed
  deriving DecidableEq, Repr

namespace Reading

variable {K : Type}

/-- Put events in front of a reading. If it ends in a fault, they have been read all the same. -/
def after (events : List (Event K)) (r : Reading K) : Reading K :=
  { r with events := events ++ r.events }

/-- Nothing more: no events, and no fault. -/
def nothing : Reading K := ⟨[], none⟩

end Reading

namespace Slot

variable {K : Type}

/-- The operands that end where a switch begins. Operands that have not begun are not there yet, and
may still come behind the switch. -/
def flushed : Slot → List (Event K)
  | .filling words => [.operands words]
  | _ => []

/-- The state of the operand behind a switch. An operand that is being collected ends there. -/
def behindSwitch : Slot → Slot
  | .waiting operand => .waiting operand
  | _ => .closed

end Slot

variable {K : Type}

/-- Read text attached to a switch. A short switch without a word may have more short switches
attached to it; the last of them may still need a word, which then is the next argument. -/
def unpack (g : Grammar K) (s : Switch K) (short : Bool) :
    Text → Except Fault (List (Event K) × Option (Switch K))
  | [] =>
    if s.takesWord then .ok ([.option s.key (Value.ofAttached [])], none)
    else .error (.unusedWord s.names [])
  | c :: more =>
    if s.takesWord then .ok ([.option s.key (Value.ofAttached (c :: more))], none)
    else if short then
      match g.find? ['-', c] with
      | none => .error (.unusedWord s.names (c :: more))
      | some next =>
        if more = [] then
          if next.takesWord then .ok ([.flag s.key], some next)
          else .ok ([.flag s.key, .flag next.key], none)
        else do
          let (events, pending) ← unpack g next true more
          return (.flag s.key :: events, pending)
    else .error (.unusedWord s.names (c :: more))

/-- The events of a switch, and the switch that still needs a word. A long switch with text attached
to it unpacks nothing. -/
def switchEvents (g : Grammar K) (s : Switch K) (name : Text) :
    Option Text → Except Fault (List (Event K) × Option (Switch K))
  | some attached => unpack g s ((name.drop 1).head? != some '-') attached
  | none => if s.takesWord then .ok ([], some s) else .ok ([.flag s.key], none)

/-- Read the rest of a command line. The cases go by the state of the operand and the next token,
and each event is put in front of the reading of the rest. -/
def read (g : Grammar K) : Slot → List (Token K) → Reading K
  | slot, [] => ⟨slot.flushed, none⟩
  -- Words go to the operand as long as it takes them.
  | .waiting .one, .word w :: rest => (read g .settled rest).after [.operands [w]]
  | .waiting .several, .word w :: rest => read g (.filling [w]) rest
  | .waiting .remainder, .word w :: rest => ⟨[.operands (w :: rest.map Token.source)], none⟩
  | .filling words, .word w :: rest => read g (.filling (words ++ [w])) rest
  | .settled, .word w :: rest => (read g .closed rest).after [.leftover w]
  | .closed, .word w :: rest => (read g .closed rest).after [.leftover w]
  -- The first divider belongs to the operand, in front of it or right behind it.
  | .waiting operand, .divider :: rest =>
    if rest = [] then ⟨[.leftover divider], none⟩
    else if operand = .remainder then
      ⟨[.operands (divider :: rest.map Token.source)], none⟩
    else read g (.waiting operand) rest
  | .filling words, .divider :: rest => read g (.filling words) rest
  | .settled, .divider :: rest => read g .closed rest
  | .closed, .divider :: rest => (read g .closed rest).after [.leftover divider]
  -- A switch, known or not, ends several operands that stand together.
  | slot, .unknown source :: rest =>
    (read g slot.behindSwitch rest).after (slot.flushed ++ [.leftover source])
  | slot, .switch _ s name attached :: rest =>
    match switchEvents g s name attached with
    | .error fault => ⟨slot.flushed, some fault⟩
    | .ok (events, none) => (read g slot.behindSwitch rest).after (slot.flushed ++ events)
    | .ok (events, some pending) =>
      match rest with
      | .word w :: rest =>
        (read g slot.behindSwitch rest).after
          (slot.flushed ++ events ++ [.option pending.key (.word w)])
      | _ => ⟨slot.flushed, some (.missingWord pending.names)⟩

/-- The operand before anything has been read: waiting if the grammar has one, closed if not. -/
def Grammar.slot (g : Grammar K) : Slot :=
  match g.operand with
  | none => .closed
  | some operand => .waiting operand

/-- Read a command line. A fault in judging the arguments comes alone, with no event before it. -/
def Grammar.readAll (g : Grammar K) (arguments : List Text) : Reading K :=
  match Token.ofArguments g arguments with
  | .error fault => ⟨[], some fault⟩
  | .ok tokens => read g g.slot tokens

end FrontendAssets.Arguments
