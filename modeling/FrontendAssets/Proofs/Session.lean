import FrontendAssets.Proofs.App.Run
import FrontendAssets.Session
import Mathlib.Data.List.Forall2

/-!
# `FrontendAssets.Proofs.Session`: steps that do not disturb one another

Nothing but writing and removing files changes what later steps find. The setup and the bundle stay
as they are, a step that fails changes nothing, and the one thing that the router does keep from
step to step, its limiter, is not seen in any report (`perform_congr`). So other steps can be left
out of a session without a trace.

A router without a file override does not look at the files at all. Then the reports of requests are
the same whatever is written and removed, since the bundle was made before and holds the bytes
themselves. `steps_independent` puts these together, with requests at the same time in between: they
get what they would get one by one.
-/

set_option autoImplicit false

namespace FrontendAssets

/-! ### Runs with the same bundle -/

/-- Two plans in sequence run alike against two sorts of answers if each of them does. The lemmas
below take a plan apart with it, step by step. -/
theorem Plan.run_bind_congr {Query : Type} {Answer : Query → Type} {ε α β : Type}
    {answer other : (q : Query) → Answer q} {p : Plan Query Answer ε α}
    {f : α → Plan Query Answer ε β} (hp : p.run answer = p.run other)
    (hf : ∀ a, (f a).run answer = (f a).run other) :
    (p >>= f).run answer = (p >>= f).run other := by
  rw [Plan.run_bind, Plan.run_bind, hp]
  cases (p.run other).outcome with
  | ok a => simp only [hf a]
  | error e => rfl

namespace Resolve

variable {w v : World} {c : Config}

/-- Without a file override, what becomes of a name depends on the bundle alone. -/
theorem run_underMount_congr {o : Override} (ho : ∀ url, o ≠ .file url) (hw : w.bundle = v.bundle)
    (name mediaType : Text) :
    (underMount o name mediaType).run w.answer = (underMount o name mediaType).run v.answer := by
  cases o with
  | none =>
      show (fromBundle name mediaType).run w.answer = (fromBundle name mediaType).run v.answer
      rw [run_fromBundle, run_fromBundle]
      show runOfLookup name mediaType (w.bundle.lookup name) = _
      rw [hw]
      rfl
  | file url => exact absurd rfl (ho url)
  | remote url =>
      unfold underMount
      rw [run_noted_bind, run_noted_bind]
      rfl

/-- Without a file override, what becomes of an address depends on the bundle alone, too: the way to
the name under the mount asks nothing. -/
theorem run_resolve_congr (ho : ∀ url, c.override ≠ .file url) (hw : w.bundle = v.bundle)
    (url : Text) : (resolve c url).run w.answer = (resolve c url).run v.answer := by
  rw [run_resolve, run_resolve]
  cases nameUnderMount c url with
  | none => rfl
  | some name =>
      show afterNotes _ ((underMount c.override name _).run w.answer) = _
      rw [run_underMount_congr ho hw]

end Resolve

namespace App

variable {w v : Resolve.World} {a : Setup}

/-- A step that may fail by itself asks nothing, whatever the answers are. -/
theorem run_orFail_congr {ε α : Type} (failure : ε → Failure) (x : Except ε α) :
    (orFail failure x).run (answer w) = (orFail failure x).run (answer v) := by
  cases x <;> rfl

/-- A lifespan asks nothing that the world answers. -/
theorem run_lifespan_congr (inbox : List LooseText) :
    (lifespan inbox).run (answer w) = (lifespan inbox).run (answer v) := by
  induction inbox with
  | nil => rfl
  | cons message inbox ih =>
      unfold lifespan
      refine Plan.run_bind_congr rfl fun _ => ?_
      split
      · exact Plan.run_bind_congr rfl fun _ => ih
      · split
        · rfl
        · exact ih

/-- Sending a response asks nothing that the world answers. -/
theorem run_sendResponse_congr (r : Response) (head : Bool) :
    (sendResponse r head).run (answer w) = (sendResponse r head).run (answer v) := by
  unfold sendResponse
  exact Plan.run_bind_congr (run_orFail_congr _ _) fun _ => rfl

/-- Neither handing a connection over nor sending the plain 404 in its place does. -/
theorem run_fallThrough_congr (s : Scope) :
    (fallThrough a s).run (answer w) = (fallThrough a s).run (answer v) := by
  unfold fallThrough
  split
  · rfl
  · exact run_sendResponse_congr _ _

/-- Without a file override, the answer to a request depends on the bundle alone. -/
theorem run_answerRequest_congr (ho : ∀ url, a.config.override ≠ .file url)
    (hw : w.bundle = v.bundle) (s : Scope) (http : HttpScope) :
    (answerRequest a s http).run (answer w) = (answerRequest a s http).run (answer v) := by
  unfold answerRequest
  refine Plan.run_bind_congr (run_orFail_congr _ _) fun url => ?_
  refine Plan.run_bind_congr ?_ fun resolution => ?_
  · rw [run_consult, run_consult, Resolve.run_resolve_congr ho hw]
  · split
    · exact Plan.run_bind_congr rfl fun _ => run_sendResponse_congr _ _
    · exact run_fallThrough_congr s

/-- Without a file override, nothing about a connection depends on more than the bundle, whatever
kind of connection it is. -/
theorem run_handle_congr (ho : ∀ url, a.config.override ≠ .file url) (hw : w.bundle = v.bundle)
    (s : Scope) (inbox : List LooseText) :
    (handle a s inbox).run (answer w) = (handle a s inbox).run (answer v) := by
  -- The scope decides where the connection goes, on both sides in the same way.
  unfold handle
  refine Plan.run_bind_congr (run_orFail_congr _ _) fun type => ?_
  split
  · refine Plan.run_bind_congr (run_orFail_congr _ _) fun http => ?_
    split
    · exact run_answerRequest_congr ho hw s http
    · exact run_fallThrough_congr s
  · unfold handleOther
    split
    · rfl
    · split
      · exact run_lifespan_congr inbox
      · rfl

end App

namespace Session

variable {s t : Stage} {step : Step} {steps : List Step}

/-! ### One step -/

/-- The steps that change the files: writing and removing them. -/
def Step.changesFiles : Step → Bool
  | .write .. | .remove .. => true
  | _ => false

/-- The steps that resolve addresses or handle connections. -/
def Step.isRequest : Step → Bool
  | .resolve .. | .resolveAll .. | .connect .. => true
  | _ => false

/-- What was asked may move the limiter, and moves nothing else. -/
@[simp] theorem Stage.state_behind (s : Stage) (asked : List Resolve.Query) :
    (s.behind asked).state = s.state := by
  unfold Stage.behind
  split <;> rfl

/-- A change of the files reports the same whatever the limiter, and leaves the same files
behind. -/
theorem changed_congr (h : s.state = t.state) (result : Except Failure Volume) :
    (changed s result).1 = (changed t result).1
      ∧ (changed s result).2.state = (changed t result).2.state := by
  cases result with
  | ok volume => exact ⟨rfl, by simp [changed, h]⟩
  | error failure => exact ⟨rfl, h⟩

/-- The limiter is seen neither in the report of a step nor in the state that the step leaves. For
requests at the same time this is what `Plan.runTogether_eq` says: the turns they take do not
show. -/
theorem perform_congr (h : s.state = t.state) (step : Step) :
    (perform s step).1 = (perform t step).1
      ∧ (perform s step).2.state = (perform t step).2.state := by
  -- Of a stage each step looks at the state alone; only requests at the same time are handed the
  -- limiter.
  cases step with
  | resolve url => simp [perform, h]
  | resolveAll urls schedule => simp [perform, Plan.runTogether_eq, h]
  | resolveFile url relative mediaType => simp [perform, h]
  | connect scope inbox => simp [perform, h]
  | config => simp [perform, h]
  | write name content =>
      simp only [perform, h]
      exact changed_congr h _
  | remove name =>
      simp only [perform, h]
      exact changed_congr h _
  | fetch path => simp [perform, h]

/-- Only writing and removing changes anything, and only the files. -/
theorem state_perform (h : step.changesFiles = false) : (perform s step).2.state = s.state := by
  cases step with
  | write name content => cases h
  | remove name => cases h
  | _ => simp [perform]

/-- No step changes the setup or the bundle, those that write and remove files included. -/
theorem setup_perform (s : Stage) (step : Step) :
    (perform s step).2.state.setup = s.state.setup
      ∧ (perform s step).2.state.world.bundle = s.state.world.bundle := by
  have hchanged : ∀ result : Except Failure Volume,
      (changed s result).2.state.setup = s.state.setup
        ∧ (changed s result).2.state.world.bundle = s.state.world.bundle := by
    intro result
    cases result <;> exact ⟨rfl, rfl⟩
  cases hstep : step.changesFiles with
  | false => simp [state_perform hstep]
  | true =>
      cases step with
      | write name content => exact hchanged _
      | remove name => exact hchanged _
      | _ => cases hstep

/-- Without a file override, the report of a request depends on the bundle alone. -/
theorem report_congr (hstep : step.isRequest = true)
    (ho : ∀ url, s.state.setup.config.override ≠ .file url)
    (hsetup : t.state.setup = s.state.setup)
    (hbundle : t.state.world.bundle = s.state.world.bundle) :
    (perform t step).1 = (perform s step).1 := by
  have hresolve : ∀ url, (Resolve.resolve s.state.setup.config url).run t.state.world.answer
      = (Resolve.resolve s.state.setup.config url).run s.state.world.answer :=
    fun url => Resolve.run_resolve_congr ho hbundle url
  cases step with
  | resolve url => simp [perform, hsetup, hresolve]
  | resolveAll urls schedule =>
      simp only [perform, Plan.runTogether_eq, List.map_map, hsetup]
      exact congrArg reportOfAll (List.map_congr_left fun url _ => hresolve url)
  | connect scope inbox =>
      simp [perform, hsetup, App.run_handle_congr ho hbundle]
  | _ => cases hstep

/-! ### Steps in order -/

/-- What is left of a list if some positions are chosen and the others are deleted. The positions
are counted from the front, so behind the first one they are those of the rest, moved by one. -/
def keep {α : Type} (chosen : Nat → Bool) : List α → List α
  | [] => []
  | x :: xs =>
    let rest := keep (fun i => chosen (i + 1)) xs
    if chosen 0 then x :: rest else rest

/-- The first one is chosen and kept. -/
theorem keep_cons_of_chosen {α : Type} {chosen : Nat → Bool} (h : chosen 0 = true) (x : α)
    (xs : List α) : keep chosen (x :: xs) = x :: keep (fun i => chosen (i + 1)) xs :=
  if_pos h

/-- The first one is deleted. -/
theorem keep_cons_of_not_chosen {α : Type} {chosen : Nat → Bool} (h : chosen 0 = false) (x : α)
    (xs : List α) : keep chosen (x :: xs) = keep (fun i => chosen (i + 1)) xs :=
  if_neg (by simp [h])

/-- The first step reports, and the others go on from the stage that it leaves. -/
theorem performFrom_cons (s : Stage) (step : Step) (steps : List Step) :
    performFrom s (step :: steps)
      = (perform s step).1 :: performFrom (perform s step).2 steps := rfl

/-- Sessions that begin in the same state report the same. -/
theorem performFrom_congr (h : s.state = t.state) (steps : List Step) :
    performFrom s steps = performFrom t steps := by
  induction steps generalizing s t with
  | nil => rfl
  | cons step steps ih =>
      obtain ⟨hreport, hstate⟩ := perform_congr h step
      rw [performFrom_cons, performFrom_cons, hreport, ih hstate]

/-- Steps that do not change the files can be deleted. -/
theorem performFrom_keep {chosen : Nat → Bool}
    (h : ∀ i step, steps[i]? = some step → chosen i = false → step.changesFiles = false) :
    performFrom s (keep chosen steps) = keep chosen (performFrom s steps) := by
  induction steps generalizing s chosen with
  | nil => rfl
  | cons step steps ih =>
      have hrest : performFrom (perform s step).2 (keep (fun i => chosen (i + 1)) steps)
          = keep (fun i => chosen (i + 1)) (performFrom (perform s step).2 steps) :=
        ih fun i later hlater => h (i + 1) later hlater
      rw [performFrom_cons]
      cases hchosen : chosen 0 with
      | true =>
          rw [keep_cons_of_chosen hchosen, keep_cons_of_chosen hchosen, performFrom_cons, hrest]
      | false =>
          -- The step that is deleted leaves the state as it was.
          have hstate : (perform s step).2.state = s.state := state_perform (h 0 step rfl hchosen)
          rw [keep_cons_of_not_chosen hchosen, keep_cons_of_not_chosen hchosen, ← hrest]
          exact (performFrom_congr hstate _).symm

/-! ### Requests among other steps -/

/-- The steps of a session with their reports, so that it can be told which report is whose. -/
def transcript (s : Stage) (steps : List Step) : List (Step × Report) :=
  steps.zip (performFrom s steps)

/-- The part of a transcript that is about requests. -/
def requests (pairs : List (Step × Report)) : List (Step × Report) :=
  pairs.filter fun p => p.1.isRequest

/-- The first step of a transcript stands beside its report. -/
theorem transcript_cons (s : Stage) (step : Step) (steps : List Step) :
    transcript s (step :: steps)
      = (step, (perform s step).1) :: transcript (perform s step).2 steps :=
  rfl

/-- Two transcripts agree on their requests if they agree on those of the rest, and on the first
step if it is one. -/
theorem requests_cons_congr {report other : Report} {pairs others : List (Step × Report)}
    (hreport : step.isRequest = true → report = other) (hrest : requests pairs = requests others) :
    requests ((step, report) :: pairs) = requests ((step, other) :: others) := by
  unfold requests at hrest ⊢
  cases hstep : step.isRequest with
  | true => simp [hstep, hreport hstep, hrest]
  | false => simp [hstep, hrest]

/-- Without a file override, any steps can be deleted as far as the other requests are concerned.
The induction carries two stages with one setup and one bundle, whose files may differ by now. -/
theorem requests_transcript_keep (ho : ∀ url, s.state.setup.config.override ≠ .file url)
    (hsetup : t.state.setup = s.state.setup)
    (hbundle : t.state.world.bundle = s.state.world.bundle) (chosen : Nat → Bool)
    (steps : List Step) :
    requests (transcript t (keep chosen steps)) = requests (keep chosen (transcript s steps)) := by
  induction steps generalizing s t chosen with
  | nil => rfl
  | cons step steps ih =>
      obtain ⟨hsetupLater, hbundleLater⟩ := setup_perform s step
      have hoLater : ∀ url, (perform s step).2.state.setup.config.override ≠ .file url := by
        rw [hsetupLater]
        exact ho
      rw [transcript_cons]
      -- A step that is kept is done on both sides, a step that is deleted on one of them; either
      -- way setup and bundle stay the same.
      cases hchosen : chosen 0 with
      | true =>
          obtain ⟨hsetupOther, hbundleOther⟩ := setup_perform t step
          rw [keep_cons_of_chosen hchosen, keep_cons_of_chosen hchosen, transcript_cons]
          apply requests_cons_congr fun hstep => report_congr hstep ho hsetup hbundle
          apply ih hoLater
          · rw [hsetupOther, hsetupLater, hsetup]
          · rw [hbundleOther, hbundleLater, hbundle]
      | false =>
          rw [keep_cons_of_not_chosen hchosen, keep_cons_of_not_chosen hchosen]
          apply ih hoLater
          · rw [hsetupLater, hsetup]
          · rw [hbundleLater, hbundle]

/-! ### Requests at the same time -/

/-- Runs that all end well have their results in order. -/
theorem exists_resolutionsOf_eq {runs : List (Run Resolve.Query Escape Resolution)}
    (h : ∀ run ∈ runs, ∃ r, run.outcome = .ok r) :
    ∃ rs, resolutionsOf runs = .ok rs
      ∧ List.Forall₂ (fun run r => run.outcome = .ok r) runs rs := by
  induction runs with
  | nil => exact ⟨[], rfl, .nil⟩
  | cons run runs ih =>
      obtain ⟨r, hr⟩ := h run (List.mem_cons_self ..)
      obtain ⟨rs, hrs, hall⟩ := ih fun later hlater => h later (List.mem_cons_of_mem _ hlater)
      refine ⟨r :: rs, ?_, .cons hr hall⟩
      rw [resolutionsOf, hr, hrs]
      rfl

/-- Addresses that are resolved at the same time get what they get one by one. -/
theorem exists_resolutions_perform (s : Stage) (urls : List Text) (schedule : List Nat) :
    ∃ rs, (perform s (.resolveAll urls schedule)).1.outcome = .ok (.resolutions rs)
      ∧ List.Forall₂ (fun url r => (perform s (.resolve url)).1.outcome = .ok (.resolution r))
        urls rs := by
  have hruns : ∀ run ∈ urls.map fun url =>
      (Resolve.resolve s.state.setup.config url).run s.state.world.answer,
      ∃ r, run.outcome = .ok r := by
    intro run hrun
    obtain ⟨url, -, rfl⟩ := List.mem_map.mp hrun
    obtain ⟨r, hr, -⟩ := Resolve.exists_resolution s.state.world.answer s.state.setup.config url
    exact ⟨r, hr⟩
  obtain ⟨rs, hrs, hall⟩ := exists_resolutionsOf_eq hruns
  refine ⟨rs, ?_, ?_⟩
  · have htogether : Plan.runTogether needsToken s.nextLimiter s.state.world.answer schedule
        (urls.map (Resolve.resolve s.state.setup.config))
          = urls.map fun url =>
            (Resolve.resolve s.state.setup.config url).run s.state.world.answer := by
      rw [Plan.runTogether_eq, List.map_map]
      rfl
    show ((resolutionsOf (Plan.runTogether _ _ _ _ _)).map Result.resolutions).mapError _ = _
    rw [htogether, hrs]
    rfl
  · -- Each of the runs is the one that the address has alone.
    rw [List.forall₂_map_left_iff] at hall
    refine hall.imp fun url r hr => ?_
    show ((Run.outcome _).map Result.resolution).mapError Failure.escape = _
    rw [hr]
    rfl

/-! ### Whole sessions -/

/-- The steps of a session do not disturb one another. Any of them but those that write and remove
files can be deleted, and the others report the same. Addresses that are resolved at the same time
get what each of them gets alone, in whatever order their turns come. Without a file override,
writing and removing files can be deleted too, and all requests report the same. -/
theorem steps_independent (s : Stage) (steps : List Step) :
    (∀ chosen : Nat → Bool,
        (∀ i step, steps[i]? = some step → chosen i = false → step.changesFiles = false) →
        performFrom s (keep chosen steps) = keep chosen (performFrom s steps))
      ∧ (∀ (urls : List Text) (schedule : List Nat),
        ∃ rs, (perform s (.resolveAll urls schedule)).1.outcome = .ok (.resolutions rs)
          ∧ List.Forall₂ (fun url r => (perform s (.resolve url)).1.outcome = .ok (.resolution r))
            urls rs)
      ∧ ((∀ url, s.state.setup.config.override ≠ .file url) → ∀ chosen : Nat → Bool,
        requests (transcript s (keep chosen steps))
          = requests (keep chosen (transcript s steps))) := by
  refine ⟨fun chosen h => performFrom_keep h, exists_resolutions_perform s, ?_⟩
  exact fun ho chosen => requests_transcript_keep ho rfl rfl chosen steps

/-- A bundle that was loaded from a directory serves what the directory held then. Before the
request one step fails and another writes into that directory; the first can be deleted from every
session, and both from this one. -/
theorem steps_independent_snapshot :
    let file := "fe/main.js".toList
    let v : Volume := ⟨.folder "fe".toList (.file "main.js".toList [77] .empty) .empty, []⟩
    let bundle :=
      ((Bundle.ofFolder v (Path.ofText "fe".toList)).toOption.map Noted.value).getD .empty
    let s : Stage := { state := ⟨⟨Config.default, false⟩, ⟨bundle, v⟩⟩ }
    let failing : Step := .resolveFile "file:.".toList "/main.js".toList []
    let steps : List Step := [failing, .write file [78], .resolve "bundled/main.js".toList]
    let later : Nat → Bool := fun i => decide (0 < i)
    let last : Nat → Bool := fun i => decide (i = 2)
    (∀ url, s.state.setup.config.override ≠ .file url)
      ∧ (∀ i step, steps[i]? = some step → later i = false → step.changesFiles = false)
      ∧ (perform s failing).1.outcome.toOption = none
      ∧ (perform (perform s (.write file [78])).2 (.fetch file)).1.outcome.toOption
        = some (.content (some [78]))
      ∧ bundle.lookup "main.js".toList = some [77]
      ∧ performFrom s (keep later steps) = keep later (performFrom s steps)
      ∧ requests (transcript s (keep last steps)) = requests (keep last (transcript s steps)) := by
  intro file v bundle s failing steps later last
  have hoverride : ∀ url, s.state.setup.config.override ≠ .file url := fun _ => nofun
  have hlater : ∀ i step, steps[i]? = some step → later i = false → step.changesFiles = false := by
    intro i step hstep hdeleted
    -- The one position that is not chosen is the first.
    have hfirst : i = 0 := by
      have hle : ¬ 0 < i := of_decide_eq_false hdeleted
      omega
    subst hfirst
    obtain rfl : failing = step := Option.some.inj hstep
    rfl
  obtain ⟨hdelete, -, hrequests⟩ := steps_independent s steps
  refine ⟨hoverride, hlater, ?_, ?_, ?_, hdelete later hlater, hrequests hoverride last⟩
  · decide +kernel
  · decide +kernel
  · decide +kernel

end Session

end FrontendAssets
