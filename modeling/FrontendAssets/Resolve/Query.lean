import FrontendAssets.Bundle
import FrontendAssets.Plan.Basic
import FrontendAssets.Resolve.Outcome

/-!
# `FrontendAssets.Resolve.Query`: what resolving a request may ask

To resolve a request is to ask the bundle for a resource, the file system for a file, or someone to
take note of a diagnostic. `World.answer` gives the answers of a bundle and a file system.
-/

set_option autoImplicit false

namespace FrontendAssets.Resolve

/-- What resolving a request may ask. Nothing is written, so answers never change in the course of a
run. -/
inductive Query where
  | lookup (name : Text)
  | read (path : Path)
  | note (d : Diagnostic)
  deriving DecidableEq, Repr

/-- The answers to each query: the bytes of a resource if there is one, the bytes of a file or a
refusal, and nothing for a note. -/
abbrev Query.Answer : Query → Type
  | .lookup _ => Option Bytes
  | .read _ => Except Refusal Bytes
  | .note _ => Unit

/-- A plan that may ask these queries, and fails only with a path that leaves an override
directory. -/
abbrev Steps (α : Type) := Plan Query Query.Answer Escape α

/-- Take note of a diagnostic. It has no answer, and nothing waits for it. -/
def note (d : Diagnostic) : Steps Unit := Plan.query (Query.note d)

/-- Take note of several diagnostics in order, one query for each. -/
def noteAll : List Diagnostic → Steps Unit
  | [] => .done ()
  | d :: more => do
    note d
    noteAll more

/-- Take note of the diagnostics of a value, and go on with the value. -/
def noted {α : Type} (n : Noted α) : Steps α := do
  noteAll n.notes
  return n.value

/-- A bundle and a file system: all that a resolution can depend on besides the configuration and
the address. -/
structure World where
  bundle : Bundle
  volume : Volume
  deriving DecidableEq, Repr

/-- The answers of a bundle and a file system. Taking note has no answer. -/
def World.answer (w : World) : (q : Query) → q.Answer
  | .lookup name => w.bundle.lookup name
  | .read path => w.volume.read path
  | .note _ => ()

/-- The names that the bundle was asked for, in order. -/
def lookups (asked : List Query) : List Text :=
  asked.filterMap fun | .lookup name => some name | _ => none

/-- The files that were to be read, whether or not they could be. -/
def reads (asked : List Query) : List Path :=
  asked.filterMap fun | .read path => some path | _ => none

/-- The diagnostics that were noted, in order. -/
def notes (asked : List Query) : List Diagnostic :=
  asked.filterMap fun | .note d => some d | _ => none

end FrontendAssets.Resolve
