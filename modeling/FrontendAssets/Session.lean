import FrontendAssets.App.Handle
import FrontendAssets.Plan.Together

/-!
# `FrontendAssets.Session`: one router over time

A session drives one application, and the router in it, through steps, some of which change the
files. The bundle never changes. Each step reports its result together with the names that the
bundle was asked for and the diagnostics that were noted. A step that fails leaves everything as it
was.

The router keeps one thing from step to step: the limiter that its reads go through, which it makes
at the first read unless it was given one.
-/

set_option autoImplicit false

namespace FrontendAssets.Session

/-- A step. The router's own steps, the application's, and changes of the files between them may
come in any order. -/
inductive Step where
  | resolve (url : Text)
  /-- Resolve several addresses at the same time, by a schedule. -/
  | resolveAll (urls : List Text) (schedule : List Nat)
  /-- Read a file beneath the directory of a `file` address, without a clean path. -/
  | resolveFile (url relative mediaType : Text)
  /-- Handle a connection on which messages of these types wait. -/
  | connect (scope : Scope) (inbox : List LooseText)
  | config
  | write (name : Text) (content : Bytes)
  | remove (name : Text)
  | fetch (path : Text)
  deriving DecidableEq, Repr

/-- What a connection got: messages of this application, or the other application. -/
inductive Reply where
  | message (m : Message)
  /-- The connection was handed over. -/
  | handedOver (scope : Scope)
  deriving DecidableEq, Repr

/-- What a connection got in order. What the router did in between is not seen from the
connection. -/
def replies (asked : List App.Query) : List Reply :=
  asked.filterMap fun
    | .send m => some (.message m)
    | .forward scope => some (.handedOver scope)
    | _ => none

/-- Why a step fails. A change of the files may be refused by the system, and reading a file beneath
a directory may lead out of it. -/
inductive Failure where
  | escape (e : Escape)
  | refused (path : Path) (reason : Refusal)
  deriving DecidableEq, Repr

/-- The wording of a failure for a reader, whichever part of the library it comes from. -/
def Failure.message : Failure → Text
  | .escape e => e.message
  | .refused path reason => reason.message path.text

/-- The result of a step. There is one constructor for each kind of step, and the two kinds of
changes have nothing to show. -/
inductive Result where
  | resolution (r : Resolution)
  | resolutions (rs : List Resolution)
  | connection (replies : List Reply) (unread : Nat) (failure : Option App.Failure)
  | config (c : Config)
  | nothing
  | content (body : Option Bytes)
  deriving DecidableEq

/-- What a step reports: its result, what the bundle was asked for, and the diagnostics. Reads of
files are not reported, since the bytes tell. -/
structure Report where
  outcome : Except Failure Result
  lookups : List Text := []
  notes : List Diagnostic := []

/-- The application, the bundle and the files. This is all that a step may look at, but for the
limiter. -/
structure State where
  setup : App.Setup
  world : Resolve.World

/-- How far a session has come: the state, and the limiter that the router keeps. -/
structure Stage where
  state : State
  /-- The limiter of the router, if it has one by now. -/
  limiter : Option Plan.Limiter := none

/-- The limiter for as many reads at once as a configuration allows. The configuration was checked,
so this is at least one. -/
def limiterOf (c : Config) : Plan.Limiter where
  tokens := c.readers.toNat
  tokens_pos := by
    have hreaders := c.one_le_readers
    omega

/-- The limiter that the next read goes through: the one that the router has, or a new one. -/
def Stage.nextLimiter (s : Stage) : Plan.Limiter :=
  s.limiter.getD (limiterOf s.state.setup.config)

/-- Whether a query goes through the limiter. Only reads of files do. -/
def needsToken : Resolve.Query → Bool
  | .read _ => true
  | _ => false

/-- The stage after the router has asked something: from its first read on it has a limiter. -/
def Stage.behind (s : Stage) (asked : List Resolve.Query) : Stage :=
  if asked.any needsToken then { s with limiter := some s.nextLimiter } else s

/-- The report of a run that resolves something: how it ended, and what was noted on the way. -/
def reportOf {α : Type} (result : α → Result) (run : Run Resolve.Query Escape α) : Report where
  outcome := (run.outcome.map result).mapError .escape
  lookups := Resolve.lookups run.asked
  notes := Resolve.notes run.asked

/-- What distinguishes a diagnostic for a reader. Diagnostics of runs at the same time are sorted by
it. -/
def noteKey (d : Diagnostic) : List Text := [d.level.label, d.channel.name, d.message]

/-- The resolutions of some runs in order, or the first failure. Runs behind the first failure ran
all the same, and only their resolutions are not seen. -/
def resolutionsOf : List (Run Resolve.Query Escape Resolution) → Except Escape (List Resolution)
  | [] => .ok []
  | run :: runs => do
    let first ← run.outcome
    let rest ← resolutionsOf runs
    return first :: rest

/-- The report of runs at the same time, whose lookups and diagnostics are sorted. Which of them
came first is up to the schedule, so their order tells nothing. -/
def reportOfAll (runs : List (Run Resolve.Query Escape Resolution)) : Report :=
  let asked := runs.flatMap Run.asked
  { outcome := ((resolutionsOf runs).map .resolutions).mapError .escape
    lookups := (Resolve.lookups asked).mergeSort fun a b => !decide (b < a)
    notes := (Resolve.notes asked).mergeSort fun a b => !decide (noteKey b < noteKey a) }

/-- The report of a handled connection. A failure of the application is part of the result, since
the connection got what was sent before it. -/
def reportOfConnection (inbox : List LooseText) (run : Run App.Query App.Failure Unit) :
    Report where
  outcome :=
    .ok (.connection (replies run.asked) (inbox.length - App.received run.asked)
      (match run.outcome with | .ok () => none | .error failure => some failure))
  lookups := Resolve.lookups (App.resolving run.asked)
  notes := Resolve.notes (App.resolving run.asked)

/-- The path of a file in the working directory. -/
def pathOf (v : Volume) (name : Text) : Path := v.herePath.append (Path.ofText name)

/-- Write a file, and make the directories above it. Making them may succeed where writing fails,
and then they are not kept. -/
def writeFile (v : Volume) (name : Text) (content : Bytes) : Except Failure Volume := do
  let path := pathOf v name
  let folder : Path := { path with segments := path.segments.dropLast }
  let v ← (v.makeFolders folder).mapError (.refused folder)
  (v.write path content).mapError (.refused path)

/-- Remove a file or a directory with all that is in it. What is not there cannot be removed. -/
def removeFile (v : Volume) (name : Text) : Except Failure Volume :=
  (v.remove (pathOf v name)).mapError (.refused (pathOf v name))

/-- A change of the files, and its report. A change that is refused leaves the stage as it was. -/
def changed (s : Stage) : Except Failure Volume → Report × Stage
  | .ok volume =>
    ({ outcome := .ok .nothing },
      { s with state := { s.state with world := { s.state.world with volume } } })
  | .error failure => ({ outcome := .error failure }, s)

/-- Do one step. What it reports depends on the stage alone, and so does the stage that it
leaves. -/
def perform (s : Stage) : Step → Report × Stage
  | .resolve url =>
    let run := (Resolve.resolve s.state.setup.config url).run s.state.world.answer
    (reportOf .resolution run, s.behind run.asked)
  | .resolveAll urls schedule =>
    let plans := urls.map (Resolve.resolve s.state.setup.config)
    let runs := Plan.runTogether needsToken s.nextLimiter s.state.world.answer schedule plans
    (reportOfAll runs, s.behind (runs.flatMap Run.asked))
  | .resolveFile url relative mediaType =>
    let run := (Resolve.fromFile url relative mediaType).run s.state.world.answer
    (reportOf .resolution run, s.behind run.asked)
  | .connect scope inbox =>
    let run := (App.handle s.state.setup scope inbox).run (App.answer s.state.world)
    (reportOfConnection inbox run, s.behind (App.resolving run.asked))
  | .config => ({ outcome := .ok (.config s.state.setup.config) }, s)
  | .write name content => changed s (writeFile s.state.world.volume name content)
  | .remove name => changed s (removeFile s.state.world.volume name)
  -- A file is read here without the router and its limiter.
  | .fetch path =>
    (reportOf .content ((Resolve.fetch (Path.ofText path)).run s.state.world.answer), s)

/-- Do steps in order, from some stage on. A step that fails does not end the session. -/
def performFrom (s : Stage) : List Step → List Report
  | [] => []
  | step :: steps =>
    let (report, next) := perform s step
    report :: performFrom next steps

/-- Do steps in order with a new router, whose limiter has all its tokens. -/
def performAll (s : State) (steps : List Step) : List Report := performFrom { state := s } steps

end FrontendAssets.Session
