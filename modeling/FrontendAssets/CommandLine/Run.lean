import FrontendAssets.CommandLine.Invocation
import FrontendAssets.Resolve.Strategy

/-!
# `FrontendAssets.CommandLine.Run`: what the program does

The program is a plan that may list a directory, read and write files, print, and report lines on
the side. Diagnostics from the chosen level up are reported, then the outcome and the content type.
The exit code is 0 with a body, 1 without, and 2 where the arguments, the bundle or the
configuration are refused. `runOn` runs the program on a volume.
-/

set_option autoImplicit false

namespace FrontendAssets.CommandLine

open Arguments (Value)

/-- What the program may ask. The first three concern files, the others what is seen on a
terminal. -/
inductive Query where
  | list (path : Path)
  | read (path : Path)
  | write (path : Path) (content : Bytes)
  /-- Put bytes on the standard output. -/
  | print (content : Bytes)
  /-- Put text beside the output. -/
  | report (t : Text)
  deriving DecidableEq, Repr

/-- The answers to each query: what was read or listed, whether something was written, and nothing
for what is printed or reported. -/
abbrev Query.Answer : Query → Type
  | .list _ => Except Refusal Tree
  | .read _ => Except Refusal Bytes
  | .write _ _ => Except Refusal Unit
  | .print _ | .report _ => Unit

/-- Why the program breaks off. It ends without an exit code of its own then, and the surroundings
report the failure. -/
inductive Failure where
  | escape (e : Escape)
  /-- The output cannot be written. -/
  | refused (path : Path) (reason : Refusal)
  /-- The mount has no word. -/
  | wordlessMount
  /-- The level has no word. -/
  | wordlessLevel
  deriving DecidableEq, Repr

/-- The wording of a failure for a reader, where the program ends without an exit code of its
own. -/
def Failure.message : Failure → Text
  | .escape e => e.message
  | .refused path reason => reason.message path.text
  | .wordlessMount => "'list' object has no attribute 'strip'".toList
  | .wordlessLevel => "'list' object has no attribute 'upper'".toList

/-- A plan that may ask these queries. The program is one from its arguments on, so a run can be
looked at as a whole. -/
abbrev Steps (α : Type) := Plan Query Query.Answer Failure α

/-- Put bytes on the standard output. Nothing is added to them, not even a line break. -/
def print (content : Bytes) : Steps Unit := Plan.query (Query.print content)

/-- Put text beside the output, on the standard error. -/
def report (t : Text) : Steps Unit := Plan.query (Query.report t)

/-- A diagnostic as a line: its level, the channel, and the wording. -/
def noteLine (d : Diagnostic) : Text :=
  d.level.label ++ " ".toList ++ d.channel.name ++ ": ".toList ++ d.message ++ "\n".toList

/-- Report a diagnostic if it matters enough. One that does not leaves no trace in the plan. -/
def note (level : Level) (d : Diagnostic) : Steps Unit :=
  if level.rank ≤ d.level.rank then report (noteLine d) else .done ()

/-- Report the diagnostics that matter enough, in order. What does not matter enough leaves no empty
line. -/
def noteAll (level : Level) : List Diagnostic → Steps Unit
  | [] => .done ()
  | d :: more => do
    note level d
    noteAll level more

/-- Do what resolving a request takes, with a bundle in memory. Lookups are answered on the spot, so
what is left of them is nothing to ask. -/
def consult {α : Type} (level : Level) (b : Bundle) : Resolve.Steps α → Steps α
  | .done a => .done a
  | .failed e => .failed (.escape e)
  | .ask (.lookup name) next => consult level b (next (b.lookup name))
  | .ask (.read path) next => .ask (.read path) fun a => consult level b (next a)
  | .ask (.note d) next => do
    note level d
    consult level b (next ())

/-- The text of a value, if it has a word that is not empty. Switches for which an empty word means
the same as none are read through it. -/
def textOf : Option Value → Option Text
  | some (.word (c :: rest)) => some (c :: rest)
  | _ => none

/-- A complaint that ends the program, with exit code 2. -/
def refuse (what : Text) : Steps Nat := do
  report ("Error: ".toList ++ what ++ "\n".toList)
  return 2

/-- Load the bundle that the options name, or take the empty one. The listing is one query, and
everything else is made from its answer. -/
def loadBundle (o : Options) : Steps (Except Bundle.LoadError (Noted Bundle)) :=
  match textOf o.bundle with
  | none => return .ok { value := .empty }
  | some directory => do
    let path := Path.ofText directory
    let listing ← (Plan.query (Query.list path) : Steps (Except Refusal Tree))
    return Bundle.ofListing path listing

/-- Put the body where the options want it. A file that cannot be written ends the program, after
the outcome has been reported. -/
def deliver (o : Options) (body : Bytes) : Steps Nat :=
  match textOf o.output with
  | none => do
    print body
    return 0
  | some file => do
    let path := Path.ofText file
    match ← (Plan.query (Query.write path body) : Steps (Except Refusal Unit)) with
    | .ok () => return 0
    | .error reason => .failed (.refused path reason)

/-- The outcome and the content type of a resolution as a line. -/
def outcomeLine (r : Resolution) : Text :=
  r.outcome.name ++ " ".toList ++ r.mediaType ++ "\n".toList

/-- Put the body of a resolution where it belongs, if there is one. Exit code 1 means that there is
none, which for a missing file is not so: it has the bytes of a message. -/
def conclude (o : Options) (r : Resolution) : Steps Nat :=
  match r.body with
  | none => return 1
  | some body => deliver o body

/-- Resolve the address with a bundle and a configuration: diagnostics on the way, the line of the
outcome, and the body.

At the level `debug` the event loop that a request runs on reports a line of its own beside the
output, about the selector that it uses. It tells nothing about the request and depends on the
machine, so it is left out here. -/
def resolveWith (level : Level) (o : Options) (b : Bundle) (c : Config) : Steps Nat := do
  let resolution ← consult level b (Resolve.resolve c o.url)
  report (outcomeLine resolution)
  conclude o resolution

/-- Resolve the address with a bundle, once the configuration is made. The diagnostics of making it
come before those of the request. -/
def configure (level : Level) (o : Options) (b : Bundle) : Steps Nat :=
  match o.mount with
  | .wordless => .failed .wordlessMount
  | .word mount =>
    match Config.make o.frontend mount Config.defaultReaders with
    | .error e => refuse e.message
    | .ok config => do
      noteAll level config.notes
      resolveWith level o b config.value

/-- Resolve an address. The level is looked at first, since everything that follows may have
something to report. -/
def resolve (o : Options) : Steps Nat :=
  match o.level with
  | none => .failed .wordlessLevel
  | some level => do
    match ← loadBundle o with
    | .error e => refuse e.message
    | .ok bundle =>
      noteAll level bundle.notes
      configure level o bundle.value

/-- Print the content types of some names, a line for each. -/
def mime : List Text → Steps Nat
  | [] => .done 0
  | name :: more => do
    print (Utf8.encode (MediaType.ofUrl name ++ "\n".toList))
    mime more

/-- The program: its result is the exit code. Help and a complaint end it before any file is
touched. -/
def program (arguments : List Text) : Steps Nat :=
  match Invocation.ofArguments arguments with
  | .error (.help p) => do
    print (Utf8.encode p.help)
    return 0
  | .error (.refused p what) => do
    report (p.complaint what)
    return 2
  | .ok .overview => do
    print (Utf8.encode Page.overview.help)
    return 0
  | .ok (.resolve o) => resolve o
  | .ok (.mime names) => mime names

/-! ## Runs on a volume -/

/-- The answers of a volume, which writing changes. A file that cannot be written changes
nothing. -/
def serve (v : Volume) : (q : Query) → q.Answer × Volume
  | .list path => (v.list path, v)
  | .read path => (v.read path, v)
  | .write path content =>
    match v.write path content with
    | .ok next => (.ok (), next)
    | .error reason => (.error reason, v)
  | .print _ => ((), v)
  | .report _ => ((), v)

/-- A run of the program: how it ended, what it printed and reported, and the files it left. -/
structure Completed where
  ending : Except Failure Nat
  output : Bytes
  reports : Text
  volume : Volume

/-- What a run printed, from the queries that it asked. -/
def printed (asked : List Query) : Bytes :=
  asked.flatMap fun | .print content => content | _ => []

/-- What a run reported, from the queries that it asked. -/
def reported (asked : List Query) : Text :=
  asked.flatMap fun | .report t => t | _ => []

/-- Run the program on a volume. The result is all that can be seen of the run. -/
def runOn (v : Volume) (arguments : List Text) : Completed :=
  let (run, last) := (program arguments).runFrom serve v
  ⟨run.outcome, printed run.asked, reported run.asked, last⟩

end FrontendAssets.CommandLine
