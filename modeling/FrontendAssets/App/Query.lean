import FrontendAssets.Http.Message
import FrontendAssets.Http.Scope
import FrontendAssets.Resolve.Query

/-!
# `FrontendAssets.App.Query`: what the application may ask

To handle a connection the application may ask whatever resolving a request may ask, take the next
message of the connection, send a message, or hand the connection over to another application.
-/

set_option autoImplicit false

namespace FrontendAssets.App

/-- What the application may ask. Looking up a resource, reading a file and noting a diagnostic are
queries of the router, and they go through unchanged. -/
inductive Query where
  | resolve (q : Resolve.Query)
  /-- Take the next message of the connection. -/
  | receive
  | send (m : Message)
  /-- Hand the connection over, with its scope as it came. -/
  | forward (s : Scope)
  deriving DecidableEq, Repr

/-- The answers to each query: sending, handing over and taking note have none to speak of, and what
the router asks is answered as it is for the router. -/
abbrev Query.Answer : Query → Type
  | .resolve q => q.Answer
  | .receive | .send _ | .forward _ => Unit

/-- Why the application fails. The call ends there with an error, and the server sees what was sent
before it. -/
inductive Failure where
  | missingKey (m : MissingKey)
  /-- Something that is to be sent or escaped holds code points without bytes. -/
  | unencodable (run : Unencodable)
  | escape (e : Escape)
  /-- The connection has no more messages. -/
  | noMoreMessages
  deriving DecidableEq, Repr

/-- The wording of a failure for a reader. -/
def Failure.message : Failure → Text
  | .missingKey m => m.message
  | .unencodable run => run.message
  | .escape e => e.message
  | .noMoreMessages => "no more messages".toList

/-- A plan that may ask these queries, and may fail. Everything that an application does is one. -/
abbrev Steps (α : Type) := Plan Query Query.Answer Failure α

/-- Send a message. The server takes every message that is sent, so there is nothing to wait for. -/
def send (m : Message) : Steps Unit := Plan.query (Query.send m)

/-- Take the next message. Its content is not in the answer: `lifespan` goes along the messages that
wait, and asks only that each be taken. -/
def receive : Steps Unit := Plan.query Query.receive

/-- Hand the connection over. What the other application does with it is not seen. -/
def forward (s : Scope) : Steps Unit := Plan.query (Query.forward s)

/-- Take note of a diagnostic. The application writes to the same log as the router. -/
def note (d : Diagnostic) : Steps Unit := Plan.query (Query.resolve (.note d))

/-- Go on with the value that there is, or fail with what kept it from being there. -/
def orFail {ε α : Type} (failure : ε → Failure) : Except ε α → Steps α
  | .ok a => .done a
  | .error e => .failed (failure e)

/-- Do what resolving a request takes. Each query of the router becomes one of the application, in
the same order. -/
def consult {α : Type} : Resolve.Steps α → Steps α
  | .done a => .done a
  | .failed e => .failed (.escape e)
  | .ask q next => .ask (.resolve q) fun a => consult (next a)

/-- The answers of a bundle and a file system; the other queries only take place. -/
def answer (w : Resolve.World) : (q : Query) → q.Answer
  | .resolve q => w.answer q
  | .receive | .send _ | .forward _ => ()

/-- What was asked in resolving requests. In what a call of the application asks, this is all that
the router asks. -/
def resolving (asked : List Query) : List Resolve.Query :=
  asked.filterMap fun | .resolve q => some q | _ => none

/-- How many messages were taken from the server. -/
def received (asked : List Query) : Nat := asked.countP (· == .receive)

end FrontendAssets.App
