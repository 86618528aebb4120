import FrontendAssets.Arguments.Reading
import FrontendAssets.CommandLine.Usage
import FrontendAssets.Config.Basic

/-!
# `FrontendAssets.CommandLine.Invocation`: from arguments to a command

The events of a command line are acted on in order: help is shown as soon as it is asked for, and a
level that does not exist is refused as soon as it is met. Only at the end come the fault that ended
the reading, an operand that is missing, and arguments that nothing took.
-/

set_option autoImplicit false

namespace FrontendAssets.CommandLine

open Arguments (Event Fault Reading Value)

/-- What the command that resolves an address is told. A switch that is not given has its default
here, and one without a word is kept apart from it. -/
structure Options where
  url : Text
  bundle : Option Value := none
  frontend : Option Value := none
  mount : Value := .word Config.defaultMount
  output : Option Value := none
  /-- None for a level without a word. -/
  level : Option Level := some .warning
  deriving DecidableEq, Repr

/-- What the program is told to do. Without a command it shows the overview. -/
inductive Invocation where
  | overview
  | resolve (o : Options)
  | mime (names : List Text)
  deriving DecidableEq, Repr

/-- Why the program does nothing: it was asked for help, or its arguments are refused. The page
decides which usage a complaint shows. -/
inductive Stop where
  | help (p : Page)
  | refused (p : Page) (what : Text)
  deriving DecidableEq, Repr

/-- What has been read of a page: options, operands, and what nothing took. The address among the
options is empty here, and put in from the operands at the end. -/
structure Gathered where
  options : Options := { url := [] }
  operands : List Text := []
  leftovers : List Text := []
  deriving DecidableEq, Repr

/-- Read the value of a switch. Only the level has choices, and a level without a word is not
compared with them. -/
def setOption (o : Options) (key : Key) (value : Value) : Except Fault Options :=
  match key, value with
  | .help, _ => .ok o
  | .bundle, value => .ok { o with bundle := some value }
  | .frontend, value => .ok { o with frontend := some value }
  | .mount, value => .ok { o with mount := value }
  | .output, value => .ok { o with output := some value }
  | .level, .wordless => .ok { o with level := none }
  | .level, .word w =>
    match Level.ofName? w with
    | some level => .ok { o with level := some level }
    | none => .error (.unknownChoice Key.level.names w (Level.all.map Level.name))

/-- Act on one event. A switch that is given again takes the place of its earlier value. -/
def act (p : Page) (g : Gathered) : Event Key → Except Stop Gathered
  | .flag _ => .error (.help p)
  | .option key value =>
    match setOption g.options key value with
    | .ok options => .ok { g with options }
    | .error fault => .error (.refused p fault.message)
  | .operands words => .ok { g with operands := words }
  | .leftover source => .ok { g with leftovers := g.leftovers ++ [source] }

/-- Act on events in order. The first one that stops the program hides all behind it, a fault at the
end included. -/
def actAll (p : Page) (g : Gathered) : List (Event Key) → Except Stop Gathered
  | [] => .ok g
  | event :: events => do
    let g ← act p g event
    actAll p g events

/-- Read the arguments of a page. A fault is told only after all events before it have been acted
on. -/
def gather (p : Page) (arguments : List Text) : Except Stop Gathered := do
  let reading := p.grammar.readAll arguments
  let g ← actAll p {} reading.events
  match reading.fault with
  | some fault => .error (.refused p fault.message)
  | none => .ok g

/-- Refuse a command line without its operand, which the complaint names. -/
def required (p : Page) (name : String) (g : Gathered) : Except Stop Unit :=
  if g.operands = [] then
    .error (.refused p ("the following arguments are required: ".toList ++ name.toList))
  else .ok ()

/-- Refuse a command line with arguments that nothing took. They are listed as they were given,
without quotes, under the usage of the overview. -/
def refuseLeftovers (leftovers : List Text) : Except Stop Unit :=
  if leftovers = [] then .ok ()
  else
    .error (.refused .overview
      ("unrecognized arguments: ".toList ++ Text.join ' ' leftovers))

/-- Read the command behind its name; the result holds what nothing took. An unknown command is
refused before anything behind it is read. -/
def Invocation.ofCommand (command : Text) (arguments : List Text) :
    Except Stop (Invocation × List Text) :=
  match commands.lookup command with
  | some .resolve => do
    let g ← gather .resolve arguments
    required .resolve "url" g
    return (.resolve { g.options with url := g.operands.headD [] }, g.leftovers)
  | some .mime => do
    let g ← gather .mime arguments
    required .mime "names" g
    return (.mime g.operands, g.leftovers)
  | _ =>
    .error (.refused .overview
      (Fault.unknownChoice ["command".toList] command (commands.map Prod.fst)).message)

/-- Read a command line. What nothing took on the page of the command and in front of it is refused
together. -/
def Invocation.ofArguments (arguments : List Text) : Except Stop Invocation := do
  let reading := Page.overview.grammar.readAll arguments
  let g ← actAll .overview {} reading.events
  -- The command is read in full before anything left over is refused.
  let (invocation, leftovers) ←
    match g.operands with
    | [] => (.ok (.overview, []) : Except Stop (Invocation × List Text))
    | command :: rest => Invocation.ofCommand command rest
  match reading.fault with
  | some fault => .error (.refused .overview fault.message)
  | none =>
    refuseLeftovers (g.leftovers ++ leftovers)
    return invocation

end FrontendAssets.CommandLine
