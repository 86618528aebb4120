import FrontendAssets.Arguments.Reading
import FrontendAssets.Config.Basic

/-!
# `FrontendAssets.Config.Startup`: the configuration of a process

A process names its frontend with a switch or, failing that, with an environment variable. Arguments
that do not concern the frontend are left alone, abbreviations of the switch among them.
-/

set_option autoImplicit false

namespace FrontendAssets.Config

/-- The switch that names a frontend, with its hyphens. -/
def frontendSwitch : Text := "--custom-devtools-frontend".toList

/-- The environment variable that names a frontend. The switch goes before it. -/
def frontendVariable : Text := "PERCH_CUSTOM_DEVTOOLS_FRONTEND".toList

/-- A command line of which only the frontend switch matters. There is no operand and no
abbreviation, so whatever else the arguments hold is left over and does no harm. -/
def frontendGrammar : Arguments.Grammar Unit where
  switches := [{ key := (), names := [frontendSwitch], takesWord := true }]
  operand := none
  abbreviates := false

/-- The value of the frontend switch; the last one counts. The one thing that can be wrong here is a
switch with no word behind it. -/
def frontendArgument (arguments : List Text) : Except Arguments.Fault (Option Arguments.Value) :=
  let reading := frontendGrammar.readAll arguments
  match reading.fault with
  | some fault => .error fault
  | none =>
    .ok (reading.events.foldl
      (fun found event => match event with
        | .option _ value => some value
        | _ => found) none)

/-- The value of the environment variable; an empty one counts as none, so that a variable can be
switched off without being unset. -/
def frontendFromEnvironment (environment : List (Text × Text)) : Option Arguments.Value :=
  match environment.lookup frontendVariable with
  | some (c :: rest) => some (.word (c :: rest))
  | _ => none

/-- The configuration of a process from its arguments and environment. A switch without a word still
goes before the environment variable. -/
def ofStartup (arguments : List Text) (environment : List (Text × Text))
    (mount : Text) (readers : Int) : Except Invalid (Noted Config) := do
  let argument ← (frontendArgument arguments).mapError .arguments
  make (argument <|> frontendFromEnvironment environment) mount readers

end FrontendAssets.Config
