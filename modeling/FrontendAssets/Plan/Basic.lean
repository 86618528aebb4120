/-!
# `FrontendAssets.Plan.Basic`: computations that ask their surroundings

A plan is a computation as a tree: it is done, it has failed, or it asks something and goes on with
the answer. What it may ask and which answers there are is up to its query type, so a plan can be
looked at without being run. A run gives the answers and keeps the list of what was asked.

Everything in the library that touches a bundle, a file system, a connection or a terminal is a
plan, and what it does there can be read off the list. `run_bind` says that a run of two plans in
sequence is one run after the other, and `runFrom_bind` says the same where answers depend on what
was asked before.
-/

set_option autoImplicit false

namespace FrontendAssets

/-- A computation that asks queries and ends with an `α` or fails with an `ε`. A failure cannot be
caught within a plan: what may go wrong and be handled is an answer, not a failure. -/
inductive Plan (Query : Type) (Answer : Query → Type) (ε α : Type) where
  | done (a : α)
  | failed (e : ε)
  | ask (q : Query) (next : Answer q → Plan Query Answer ε α)

/-- What a run asked, in order, and how it ended. A run that fails still has what it asked
before. -/
structure Run (Query ε α : Type) where
  asked : List Query
  outcome : Except ε α

namespace Plan

variable {Query : Type} {Answer : Query → Type} {ε α β : Type}

/-- Go on with the result of a plan. A failure stays one, and the continuation is not begun. -/
def andThen (f : α → Plan Query Answer ε β) : Plan Query Answer ε α → Plan Query Answer ε β
  | .done a => f a
  | .failed e => .failed e
  | .ask q next => .ask q fun a => (next a).andThen f

instance : Monad (Plan Query Answer ε) where
  pure := .done
  bind p f := p.andThen f

/-- Ask one query, and be done with its answer. -/
def query (q : Query) : Plan Query Answer ε (Answer q) := .ask q .done

/-- Run a plan against the answers. Each query has one answer throughout the run, as with a bundle
that never changes and files that nobody writes meanwhile. -/
def run (answer : (q : Query) → Answer q) : Plan Query Answer ε α → Run Query ε α
  | .done a => ⟨[], .ok a⟩
  | .failed e => ⟨[], .error e⟩
  | .ask q next =>
    let rest := (next (answer q)).run answer
    { rest with asked := q :: rest.asked }

/-- Run a plan where answers depend on what was asked before. The state goes from each query to the
next, and its last value is returned with the run. -/
def runFrom {σ : Type} (serve : σ → (q : Query) → Answer q × σ) (s : σ) :
    Plan Query Answer ε α → Run Query ε α × σ
  | .done a => (⟨[], .ok a⟩, s)
  | .failed e => (⟨[], .error e⟩, s)
  | .ask q next =>
    let served := serve s q
    let (rest, last) := (next served.1).runFrom serve served.2
    ({ rest with asked := q :: rest.asked }, last)

/-! ## Laws -/

/-- A plan that is done asks nothing, and ends well with its result. -/
@[simp] theorem run_done (answer : (q : Query) → Answer q) (a : α) :
    (done a : Plan Query Answer ε α).run answer = ⟨[], .ok a⟩ := rfl

/-- A plan that has failed asks nothing, and ends with its error. -/
@[simp] theorem run_failed (answer : (q : Query) → Answer q) (e : ε) :
    (failed e : Plan Query Answer ε α).run answer = ⟨[], .error e⟩ := rfl

/-- A query is asked first, and its answer decides on the rest. -/
@[simp] theorem run_ask (answer : (q : Query) → Answer q) (q : Query)
    (next : Answer q → Plan Query Answer ε α) :
    (ask q next).run answer
      = ⟨q :: ((next (answer q)).run answer).asked, ((next (answer q)).run answer).outcome⟩ := rfl

/-- A plan that is done, in the notation of monads. -/
@[simp] theorem run_pure (answer : (q : Query) → Answer q) (a : α) :
    (pure a : Plan Query Answer ε α).run answer = ⟨[], .ok a⟩ := rfl

/-- A run of two plans in sequence: the second one runs only if the first one ends well. What the
first one asked comes first in the list, however the second one ends. -/
theorem run_bind (answer : (q : Query) → Answer q) (p : Plan Query Answer ε α)
    (f : α → Plan Query Answer ε β) :
    (p >>= f).run answer
      = match (p.run answer).outcome with
        | .ok a => ⟨(p.run answer).asked ++ ((f a).run answer).asked, ((f a).run answer).outcome⟩
        | .error e => ⟨(p.run answer).asked, .error e⟩ := by
  show (p.andThen f).run answer = _
  -- The induction is on the first plan. The second one comes in only where the first is done.
  induction p with
  | done a => rfl
  | failed e => rfl
  | ask q next ih =>
      simp only [andThen, run_ask, ih]
      cases ((next (answer q)).run answer).outcome <;> rfl

/-- A run of two plans in sequence: the second one goes on where the first one left off. If the
first one fails, its last state is the one that is left. -/
theorem runFrom_bind {σ : Type} (serve : σ → (q : Query) → Answer q × σ) (s : σ)
    (p : Plan Query Answer ε α) (f : α → Plan Query Answer ε β) :
    (p >>= f).runFrom serve s
      = match (p.runFrom serve s).1.outcome with
        | .ok a =>
          (⟨(p.runFrom serve s).1.asked ++ ((f a).runFrom serve (p.runFrom serve s).2).1.asked,
              ((f a).runFrom serve (p.runFrom serve s).2).1.outcome⟩,
            ((f a).runFrom serve (p.runFrom serve s).2).2)
        | .error e => (⟨(p.runFrom serve s).1.asked, .error e⟩, (p.runFrom serve s).2) := by
  show (p.andThen f).runFrom serve s = _
  induction p generalizing s with
  | done a => rfl
  | failed e => rfl
  | ask q next ih =>
      simp only [andThen, runFrom, ih]
      cases ((next (serve s q).1).runFrom serve (serve s q).2).1.outcome <;> rfl

end Plan

end FrontendAssets
