import FrontendAssets.Plan.Basic

/-!
# `FrontendAssets.Plan.Together`: plans that run at the same time

Several plans take turns with one another: a schedule names whose turn it is, and at each turn one
plan asks one query. Some queries need a token of a limiter. Such a query takes a token at one turn,
if there is one left, and gives it back at a later turn, when it is answered; without a token left
the turn passes. Turns of plans that have ended, or that do not exist, pass too. When the schedule
is over, the queries that are under way are answered, and the plans that have not ended run to their
ends one after the other.

No more queries are ever under way than there are tokens (`countP_underWay_interleave_le`), and as
long as there is a plan that has not ended some plan can take its turn (`exists_turn_ne`). Main
statement: `runTogether_eq`, neither the schedule nor the limiter makes a difference to any of the
runs.
-/

set_option autoImplicit false

namespace FrontendAssets.Plan

variable {Query : Type} {Answer : Query → Type} {ε α : Type}

/-- Tokens, of which a query holds one as long as it is under way. There is at least one, since
without any a query that needs a token could never be answered. -/
structure Limiter where
  tokens : Nat
  tokens_pos : 0 < tokens
  deriving DecidableEq, Repr

/-- Whether a plan asks nothing more, be it done or failed. -/
def hasEnded : Plan Query Answer ε α → Bool
  | .ask .. => false
  | _ => true

/-- A plan on its way: what it has asked so far, and what is still to do. Its field `hasEnded_rest`
says that only a plan with a query left can have one under way. -/
structure Task (Query : Type) (Answer : Query → Type) (ε α : Type) where
  asked : List Query
  /-- Whether the next query has its token and waits for the answer. -/
  underWay : Bool
  rest : Plan Query Answer ε α
  hasEnded_rest : underWay = true → rest.hasEnded = false

namespace Task

/-- A plan that has not begun: nothing has been asked, and no token is held. -/
def fresh (p : Plan Query Answer ε α) : Task Query Answer ε α := ⟨[], false, p, nofun⟩

/-- The next query is answered. It is noted among those that were asked, and its token, if it had
one, is free again. -/
def proceed (answer : (q : Query) → Answer q) (t : Task Query Answer ε α) :
    Task Query Answer ε α :=
  match t.rest with
  | .ask q next => ⟨t.asked ++ [q], false, next (answer q), nofun⟩
  | _ => t

/-- One turn: a query that needs a token and has none takes one, if one is left, and any other is
answered. So a query that needs a token takes two turns, between which others may run. -/
def turn (needsToken : Query → Bool) (tokenLeft : Bool) (answer : (q : Query) → Answer q)
    (t : Task Query Answer ε α) : Task Query Answer ε α :=
  match h : t.rest with
  | .ask q _ =>
    if needsToken q && !t.underWay then
      { t with underWay := tokenLeft, hasEnded_rest := fun _ => by rw [h]; rfl }
    else t.proceed answer
  | _ => t

/-- A query that is under way is answered. This is what becomes of it when the schedule is over. -/
def settle (answer : (q : Query) → Answer q) (t : Task Query Answer ε α) : Task Query Answer ε α :=
  if t.underWay then t.proceed answer else t

/-- Run a task to its end. Together with what it has asked so far this is what the task comes to,
and no turn changes it. -/
def finish (answer : (q : Query) → Answer q) (t : Task Query Answer ε α) : Run Query ε α :=
  let run := t.rest.run answer
  { run with asked := t.asked ++ run.asked }

end Task

/-- Whether the limiter has a token left. The tokens in use are counted among the tasks, so there is
no counter that could disagree with them. -/
def Limiter.hasTokenLeft (limiter : Limiter) (tasks : List (Task Query Answer ε α)) : Bool :=
  decide (tasks.countP Task.underWay < limiter.tokens)

section Together

variable (needsToken : Query → Bool) (limiter : Limiter) (answer : (q : Query) → Answer q)

/-- Give turns to tasks by a schedule. The schedule names tasks by their positions, and any list of
numbers will do. -/
def interleave : List Nat → List (Task Query Answer ε α) → List (Task Query Answer ε α)
  | [], tasks => tasks
  | i :: schedule, tasks =>
    interleave schedule
      (tasks.modify i (Task.turn needsToken (limiter.hasTokenLeft tasks) answer))

/-- Run plans at the same time. What comes out is a run for each plan, in the order of the plans. -/
def runTogether (schedule : List Nat) (plans : List (Plan Query Answer ε α)) :
    List (Run Query ε α) :=
  (interleave needsToken limiter answer schedule (plans.map Task.fresh)).map fun t =>
    (t.settle answer).finish answer

end Together

/-! ## Laws -/

section Laws

variable {needsToken : Query → Bool} {limiter : Limiter} {answer : (q : Query) → Answer q}
  {tasks : List (Task Query Answer ε α)}

/-! ### What the tasks come to -/

namespace Task

/-- An answer does not change what a task comes to. -/
@[simp] theorem finish_proceed (t : Task Query Answer ε α) :
    (t.proceed answer).finish answer = t.finish answer := by
  unfold proceed
  split
  · rename_i q next h
    simp [finish, h]
  · rfl

/-- Answering what is under way does not change what a task comes to. -/
@[simp] theorem finish_settle (t : Task Query Answer ε α) :
    (t.settle answer).finish answer = t.finish answer := by
  unfold settle
  split
  · exact finish_proceed t
  · rfl

/-- A turn does not change what a task comes to, with a token or without. -/
@[simp] theorem finish_turn (tokenLeft : Bool) (t : Task Query Answer ε α) :
    (t.turn needsToken tokenLeft answer).finish answer = t.finish answer := by
  unfold turn
  split
  · split
    · rfl
    · exact finish_proceed t
  · rfl

end Task

/-- A turn of one task changes nothing of what any task comes to. A turn of a task that does not
exist changes nothing at all. -/
theorem map_finish_modify (tokenLeft : Bool) (i : Nat) (tasks : List (Task Query Answer ε α)) :
    (tasks.modify i (Task.turn needsToken tokenLeft answer)).map (Task.finish answer)
      = tasks.map (Task.finish answer) := by
  induction tasks generalizing i with
  | nil => cases i <;> rfl
  | cons t tasks ih =>
      cases i with
      | zero => simp
      | succ i => simp [ih]

/-- The same for a whole schedule, by induction on it. What the tasks come to is the invariant, so
the state of the limiter need not be known. -/
theorem map_finish_interleave (schedule : List Nat) (tasks : List (Task Query Answer ε α)) :
    (interleave needsToken limiter answer schedule tasks).map (Task.finish answer)
      = tasks.map (Task.finish answer) := by
  induction schedule generalizing tasks with
  | nil => rfl
  | cons i schedule ih => rw [interleave, ih, map_finish_modify]

variable (needsToken limiter answer) in
/-- Whatever the schedule and the limiter, each plan runs as it does alone. -/
theorem runTogether_eq (schedule : List Nat) (plans : List (Plan Query Answer ε α)) :
    runTogether needsToken limiter answer schedule plans = plans.map (Plan.run answer) := by
  have hfinish : (fun t : Task Query Answer ε α => (t.settle answer).finish answer)
      = Task.finish answer := funext fun t => t.finish_settle
  rw [runTogether, hfinish, map_finish_interleave, List.map_map]
  apply List.map_congr_left
  intro p _
  simp [Task.finish, Task.fresh]

/-! ### Tokens -/

/-- A task takes a token at its turn only if one is left. Otherwise it had the token before. -/
theorem Task.underWay_turn {tokenLeft : Bool} {t : Task Query Answer ε α}
    (h : (t.turn needsToken tokenLeft answer).underWay = true) :
    tokenLeft = true ∨ t.underWay = true := by
  unfold Task.turn at h
  split at h
  · split at h
    · exact Or.inl h
    · rename_i q next hrest hneeds
      rw [Task.proceed, hrest] at h
      cases h
  · exact Or.inr h

variable (needsToken answer) in
/-- One task more may be under way after a turn, and only if a token was left. The bound is all that
the next theorem needs: that a token is given back is not counted. -/
theorem countP_underWay_modify_le (tokenLeft : Bool) (i : Nat)
    (tasks : List (Task Query Answer ε α)) :
    (tasks.modify i (Task.turn needsToken tokenLeft answer)).countP Task.underWay
      ≤ tasks.countP Task.underWay + tokenLeft.toNat := by
  -- One turn changes one task, so the count can grow by that task alone.
  induction tasks generalizing i with
  | nil => cases i <;> exact Nat.zero_le _
  | cons t tasks ih =>
      cases i with
      | zero =>
          rw [List.modify_zero_cons, List.countP_cons, List.countP_cons]
          cases hturn : (t.turn needsToken tokenLeft answer).underWay with
          | false =>
              simp only [Bool.false_eq_true, if_false]
              omega
          | true =>
              -- A task is under way after its turn if it was before or if it took a token.
              rcases Task.underWay_turn hturn with hleft | hunder
              · simp only [hleft, if_true, Bool.toNat_true]
                omega
              · simp [hunder]
      | succ i =>
          have hrest := ih i
          rw [List.modify_succ_cons, List.countP_cons, List.countP_cons]
          omega

variable (needsToken answer) in
/-- No more queries are under way than there are tokens. The induction is on the schedule, and the
bound is its own invariant. -/
theorem countP_underWay_interleave_le (schedule : List Nat)
    (h : tasks.countP Task.underWay ≤ limiter.tokens) :
    (interleave needsToken limiter answer schedule tasks).countP Task.underWay
      ≤ limiter.tokens := by
  induction schedule generalizing tasks with
  | nil => exact h
  | cons i schedule ih =>
      apply ih
      have hturn := countP_underWay_modify_le needsToken answer (limiter.hasTokenLeft tasks) i tasks
      -- Only where a token is left can a turn take one, and then there is room for one task more.
      cases hleft : limiter.hasTokenLeft tasks with
      | false =>
          rw [hleft] at hturn
          exact Nat.le_trans hturn h
      | true =>
          rw [hleft] at hturn
          have hless : tasks.countP Task.underWay < limiter.tokens := of_decide_eq_true hleft
          exact Nat.le_trans hturn hless

/-- A plan that has not ended has a query to ask. -/
theorem exists_eq_ask {p : Plan Query Answer ε α} (h : p.hasEnded = false) :
    ∃ q next, p = .ask q next := by
  cases p with
  | ask q next => exact ⟨q, next, rfl⟩
  | done a => cases h
  | failed e => cases h

/-- An answer moves a task that has not ended. -/
theorem Task.proceed_ne {t : Task Query Answer ε α} (h : t.rest.hasEnded = false) :
    t.proceed answer ≠ t := by
  intro hsame
  unfold Task.proceed at hsame
  split at hsame
  · have hasked := congrArg (fun u => u.asked.length) hsame
    simp at hasked
  · rename_i hask
    obtain ⟨q, next, hrest⟩ := exists_eq_ask h
    exact hask q next hrest

/-- A turn moves a task that has not ended, if its query is under way or a token is left. -/
theorem Task.turn_ne {tokenLeft : Bool} {t : Task Query Answer ε α}
    (h : t.rest.hasEnded = false) (hmoves : t.underWay = true ∨ tokenLeft = true) :
    t.turn needsToken tokenLeft answer ≠ t := by
  intro hsame
  unfold Task.turn at hsame
  split at hsame
  · split at hsame
    · rename_i hneeds
      -- A task that waits is left alone except for being under way or not.
      have hunder : tokenLeft = t.underWay := congrArg Task.underWay hsame
      rcases hmoves with hunderWay | hleft
      · simp [hunderWay] at hneeds
      · simp [← hunder, hleft] at hneeds
    · exact Task.proceed_ne h hsame
  · rename_i hask
    obtain ⟨q, next, hrest⟩ := exists_eq_ask h
    exact hask q next hrest

variable (needsToken limiter answer) in
/-- The tasks do not wait for one another in a circle: as long as one of them has not ended, there
is one that its turn moves. -/
theorem exists_turn_ne {t : Task Query Answer ε α} (ht : t ∈ tasks)
    (h : t.rest.hasEnded = false) :
    ∃ u ∈ tasks, u.turn needsToken (limiter.hasTokenLeft tasks) answer ≠ u := by
  by_cases hunder : ∃ u ∈ tasks, u.underWay = true
  · obtain ⟨u, hu, hunderWay⟩ := hunder
    exact ⟨u, hu, Task.turn_ne (u.hasEnded_rest hunderWay) (Or.inl hunderWay)⟩
  · -- Then every token is left, and there is at least one.
    have hnone : tasks.countP Task.underWay = 0 := by
      rw [List.countP_eq_zero]
      exact fun u hu hunderWay => hunder ⟨u, hu, hunderWay⟩
    have hleft : limiter.hasTokenLeft tasks = true := by
      rw [Limiter.hasTokenLeft, hnone]
      exact decide_eq_true limiter.tokens_pos
    exact ⟨t, ht, Task.turn_ne h (Or.inr hleft)⟩

end Laws

end FrontendAssets.Plan
