import FrontendAssets.Resolve.Strategy

/-!
# `FrontendAssets.Proofs.Resolve.Run`: what a resolution asks and answers

Each strategy has its run equation: the queries that it asks, in order, and its outcome, for any
answers whatsoever. `run_resolve` puts them together: a request that is not under the mount asks
nothing but to be noted, and any other one runs the strategy of its override on the name under the
mount. `nameUnderMount` is that name and `mountNotes` are the diagnostics on the way to it; neither
depends on the answers.
-/

set_option autoImplicit false

namespace FrontendAssets.Resolve

variable {α β : Type}

/-! ### Noting -/

/-- A run in front of which some diagnostics were noted. Noting has no answer to wait for, so it
changes nothing about the run but what was asked. -/
def afterNotes (ds : List Diagnostic) (r : Run Query Escape α) : Run Query Escape α :=
  { r with asked := ds.map Query.note ++ r.asked }

/-- Nothing noted, nothing changed. -/
@[simp] theorem afterNotes_nil (r : Run Query Escape α) : afterNotes [] r = r := rfl

/-- Noting does not decide how a run ends. -/
@[simp] theorem outcome_afterNotes (ds : List Diagnostic) (r : Run Query Escape α) :
    (afterNotes ds r).outcome = r.outcome := rfl

/-- Two rows of notes are one. -/
theorem afterNotes_afterNotes (ds es : List Diagnostic) (r : Run Query Escape α) :
    afterNotes ds (afterNotes es r) = afterNotes (ds ++ es) r := by
  simp [afterNotes]

/-- Notes are no files to read. -/
@[simp] theorem reads_afterNotes (ds : List Diagnostic) (r : Run Query Escape α) :
    reads (afterNotes ds r).asked = reads r.asked := by
  induction ds with
  | nil => rfl
  | cons d ds ih => exact ih

/-- Noting a list of diagnostics asks for one after the other to be noted, and ends well. -/
theorem run_noteAll (answer : (q : Query) → q.Answer) (ds : List Diagnostic) :
    (noteAll ds).run answer = ⟨ds.map Query.note, .ok ()⟩ := by
  induction ds with
  | nil => rfl
  | cons d ds ih =>
      show (note d >>= fun _ => noteAll ds).run answer = _
      rw [Plan.run_bind]
      show Run.mk (Query.note d :: ((noteAll ds).run answer).asked)
        ((noteAll ds).run answer).outcome = _
      rw [ih]
      rfl

/-- Going on with a value whose diagnostics are noted: the notes come first, then what is done with
the value. Every stage of a request is one of these, so a run is taken apart stage by stage. -/
theorem run_noted_bind (answer : (q : Query) → q.Answer) (n : Noted α) (f : α → Steps β) :
    (noted n >>= f).run answer = afterNotes n.notes ((f n.value).run answer) := by
  -- Noting cannot fail, so what comes before `f` is known whatever the answers.
  have hnoted : (noted n).run answer = ⟨n.notes.map Query.note, .ok n.value⟩ := by
    show (noteAll n.notes >>= fun _ => Plan.done n.value).run answer = _
    rw [Plan.run_bind, run_noteAll]
    simp
  rw [Plan.run_bind, hnoted]
  rfl

/-! ### The strategies -/

/-- The run of the strategy that asks the bundle, from the answer to its query on. A resource that
is missing is noted, after it was asked for. -/
def runOfLookup (name mediaType : Text) : Option Bytes → Run Query Escape Resolution
  | some content => ⟨[.lookup name], .ok ⟨.bundled, some content, mediaType, name⟩⟩
  | none =>
    ⟨[.lookup name, .note (.missingResource name)], .ok ⟨.bundleMiss, none, mediaType, name⟩⟩

/-- The bundle is asked once, for the name itself. -/
theorem run_fromBundle (answer : (q : Query) → q.Answer) (name mediaType : Text) :
    (fromBundle name mediaType).run answer
      = runOfLookup name mediaType (answer (.lookup name)) := by
  unfold fromBundle
  rw [Plan.run_bind]
  show Run.mk _ _ = _
  -- The answer decides what comes next, and the two cases are those of `runOfLookup`.
  cases h : answer (.lookup name) with
  | none => simp [Plan.query, h, note, Plan.run_bind, runOfLookup]
  | some content => simp [Plan.query, h, runOfLookup]

/-- The run of the strategy that reads a file, from the answer to its query on. A refusal is noted
with its reason, and the request is answered all the same. -/
def runOfRead (path : Path) (relative mediaType : Text) :
    Except Refusal Bytes → Run Query Escape Resolution
  | .ok content => ⟨[.read path], .ok ⟨.file, some content, mediaType, relative⟩⟩
  | .error reason =>
    ⟨[.read path, .note (.unreadable path (reason.message path.text))],
      .ok (fileNotFound relative mediaType)⟩

/-- One file is read, whatever the answer. -/
theorem reads_runOfRead (path : Path) (relative mediaType : Text) (a : Except Refusal Bytes) :
    reads (runOfRead path relative mediaType a).asked = [path] := by
  cases a <;> rfl

section FromFile

variable (answer : (q : Query) → q.Answer) {url relative : Text} (mediaType : Text) {base : Path}

/-- An override address that names no local path: this is noted, and no file is found. -/
theorem run_fromFile_of_error {reason : FileUrl.Invalid} (h : FileUrl.toPath url = .error reason) :
    (fromFile url relative mediaType).run answer
      = ⟨[.note (.unusableOverride relative reason.message)],
        .ok (fileNotFound relative mediaType)⟩ := by
  unfold fromFile
  rw [h]
  rfl

/-- The override directory itself: it is no file, which is found out without asking. -/
theorem run_fromFile_of_nil (h : FileUrl.toPath url = .ok base) :
    (fromFile url [] mediaType).run answer
      = ⟨[.note (.emptyPath base)], .ok (fileNotFound [] mediaType)⟩ := by
  unfold fromFile
  rw [h]
  rfl

/-- A path outside of the override directory fails the request, and nothing is asked. The error
names both paths. -/
theorem run_fromFile_of_escape (h : FileUrl.toPath url = .ok base) (hne : relative ≠ [])
    (hguard : base.isParentOf (base.append (Path.ofText relative)) = false) :
    (fromFile url relative mediaType).run answer
      = ⟨[], .error ⟨base, base.append (Path.ofText relative)⟩⟩ := by
  unfold fromFile
  simp only [h, if_neg hne, hguard]
  rfl

/-- A path that the guard lets pass is read once. -/
theorem run_fromFile_of_guard (h : FileUrl.toPath url = .ok base) (hne : relative ≠ [])
    (hguard : base.isParentOf (base.append (Path.ofText relative)) = true) :
    (fromFile url relative mediaType).run answer
      = runOfRead (base.append (Path.ofText relative)) relative mediaType
        (answer (.read (base.append (Path.ofText relative)))) := by
  unfold fromFile
  simp only [h, if_neg hne, hguard, if_true]
  generalize base.append (Path.ofText relative) = path
  rw [Plan.run_bind]
  unfold fetch
  rw [Plan.run_bind]
  cases hr : answer (.read path) with
  | ok content => simp [Plan.query, hr, runOfRead]
  | error reason => simp [Plan.query, hr, note, Plan.run_bind, runOfRead]

/-- The ways to read beneath an override directory, with all that each of them asks. In the last one
the path is not said to be that of the directory and the text; see `run_fromFile_of_guard` for
this. -/
theorem run_fromFile_cases (url relative : Text) :
    (∃ reason, FileUrl.toPath url = .error reason
        ∧ (fromFile url relative mediaType).run answer
          = ⟨[.note (.unusableOverride relative reason.message)],
            .ok (fileNotFound relative mediaType)⟩)
      ∨ (∃ base, FileUrl.toPath url = .ok base ∧ relative = []
        ∧ (fromFile url relative mediaType).run answer
          = ⟨[.note (.emptyPath base)], .ok (fileNotFound relative mediaType)⟩)
      ∨ (∃ base, FileUrl.toPath url = .ok base
        ∧ (fromFile url relative mediaType).run answer
          = ⟨[], .error ⟨base, base.append (Path.ofText relative)⟩⟩)
      ∨ ∃ path, (fromFile url relative mediaType).run answer
          = runOfRead path relative mediaType (answer (.read path)) := by
  cases hbase : FileUrl.toPath url with
  | error reason => exact .inl ⟨reason, rfl, run_fromFile_of_error answer mediaType hbase⟩
  | ok base =>
      by_cases hne : relative = []
      · subst hne
        exact .inr (.inl ⟨base, rfl, rfl, run_fromFile_of_nil answer mediaType hbase⟩)
      cases hguard : base.isParentOf (base.append (Path.ofText relative)) with
      | false =>
          exact .inr (.inr (.inl ⟨base, rfl,
            run_fromFile_of_escape answer mediaType hbase hne hguard⟩))
      | true =>
          exact .inr (.inr (.inr ⟨_, run_fromFile_of_guard answer mediaType hbase hne hguard⟩))

end FromFile

/-- A file beneath an override directory is sought by its clean path without serve markers. What
stripping them had to report is noted in front. -/
theorem run_underMount_file (answer : (q : Query) → q.Answer) (url name mediaType : Text) :
    (underMount (.file url) name mediaType).run answer
      = afterNotes (Request.stripMarkers name).notes
        ((fromFile url (Request.removeDotSegments (Request.stripMarkers name).value)
          mediaType).run answer) :=
  run_noted_bind answer (Request.stripMarkers name) fun relative =>
    fromFile url (Request.removeDotSegments relative) mediaType

/-! ### Requests -/

/-- The clean path of a request below the mount, if the request is handled: its target is under the
mount both as it was written and in its clean form. -/
def nameUnderMount (c : Config) (url : Text) : Option Text :=
  let target := (Request.target url).value
  let clean := (Request.cleanPath target).value
  if Request.startsWith target c.mountHead && Request.startsWith clean c.mountHead then
    some (clean.drop c.mountHead.length)
  else none

/-- The diagnostics on the way to the name under the mount: those of the target, those of its clean
path if the target is under the mount, and one about a target that leaves it. -/
def mountNotes (c : Config) (url : Text) : List Diagnostic :=
  let target := Request.target url
  let clean := Request.cleanPath target.value
  if Request.startsWith target.value c.mountHead then
    target.notes ++ (clean.notes ++
      if Request.startsWith clean.value c.mountHead then []
      else [.leavesMount target.value c.mountHead])
  else target.notes

/-- A request is unhandled, or its strategy runs on the name under the mount. Every statement about
requests begins here. -/
theorem run_resolve (answer : (q : Query) → q.Answer) (c : Config) (url : Text) :
    (resolve c url).run answer
      = afterNotes (mountNotes c url)
        (match nameUnderMount c url with
          | none => ⟨[], .ok { outcome := .unhandled, mediaType := MediaType.ofUrl url }⟩
          | some name => (underMount c.override name (MediaType.ofUrl url)).run answer) := by
  unfold resolve nameUnderMount mountNotes
  rw [run_noted_bind]
  -- The target is tested first, and its clean form is looked at only if it passes.
  cases htarget : Request.startsWith (Request.target url).value c.mountHead with
  | false => simp [htarget, afterNotes]
  | true =>
      simp only [htarget, if_true, Bool.true_and]
      rw [run_noted_bind]
      -- The target starts with the mount. Its clean form may not, if double dots lead out of it.
      cases hclean : Request.startsWith (Request.cleanPath (Request.target url).value).value
        c.mountHead with
      | false =>
          simp only [Bool.false_eq_true, if_false]
          rw [afterNotes_afterNotes]
          simp [afterNotes, note, Plan.query, Plan.run_bind]
      | true =>
          simp only [if_true, List.append_nil]
          rw [afterNotes_afterNotes]

/-- Without an override a name under the mount is looked up. -/
theorem run_resolve_of_nameUnderMount (answer : (q : Query) → q.Answer) {c : Config}
    {url name : Text} (hoverride : c.override = .none) (h : nameUnderMount c url = some name) :
    (resolve c url).run answer
      = afterNotes (mountNotes c url)
        (runOfLookup name (MediaType.ofUrl url) (answer (.lookup name))) := by
  rw [run_resolve, h, hoverride, ← run_fromBundle]
  rfl

end FrontendAssets.Resolve
