import FrontendAssets.Proofs.Resolve.Decomposition

/-!
# `FrontendAssets.Proofs.Resolve.Alarms`: what is reported of a request that fails

The alarms of a request are its diagnostics that are warnings or worse and come from the router or
from reading files. `Tells` says which ones fit a resolution: none for a resource that is served,
and a single one for anything else, which says what is missing and why. Each strategy raises its
alarm at the place where it gives up, and the read that is refused raises it elsewhere than the
other three failures, so the statement is made of the run as a whole (`resolve_alarms`).

What is noted on the way to a strategy is no alarm: addresses and markers belong to the paths, and
malformed ones are for debugging. The one exception is a path that leaves the mount
(`alarms_mountNotes`).
-/

set_option autoImplicit false

namespace FrontendAssets

/-- Whether a diagnostic is a warning or worse, of the router or about a file. The other channel is
that of paths, on which every stage of a request may report for debugging. -/
def Diagnostic.isAlarm (d : Diagnostic) : Bool :=
  (d.channel == .router || d.channel == .files) && decide (Level.warning.rank ≤ d.level.rank)

namespace Request

/-- No diagnostic of a target is an alarm: an address that cannot be taken apart is nothing that a
maintainer has to look after. -/
theorem filter_isAlarm_target (url : Text) : (target url).notes.filter Diagnostic.isAlarm = [] := by
  unfold target
  split <;> rfl

/-- No diagnostic of a clean path is an alarm, either. -/
theorem filter_isAlarm_cleanPath (target : Text) :
    (cleanPath target).notes.filter Diagnostic.isAlarm = [] := by
  unfold cleanPath
  split <;> rfl

/-- Nor is one about a marker with nothing behind it. -/
theorem filter_isAlarm_stripMarker (marker path : Text) :
    (stripMarker marker path).notes.filter Diagnostic.isAlarm = [] := by
  unfold stripMarker
  split
  · split <;> rfl
  · rfl

/-- No marker raises an alarm, whatever was noted before it. -/
theorem filter_isAlarm_stripMarkers (path : Text) :
    (stripMarkers path).notes.filter Diagnostic.isAlarm = [] := by
  unfold stripMarkers
  refine List.foldlRecOn
    (motive := fun stripped : Noted Text => stripped.notes.filter Diagnostic.isAlarm = [])
    serveMarkers _ rfl ?_
  intro stripped hstripped marker _
  show (stripped.notes ++ (stripMarker marker stripped.value).notes).filter _ = []
  rw [List.filter_append, hstripped, filter_isAlarm_stripMarker, List.append_nil]

end Request

namespace Resolve

variable (answer : (q : Query) → q.Answer) {o : Override} {c : Config} {r : Resolution}
  {url name relative mediaType : Text}

/-- The alarms among what was asked, in the order in which they were raised. -/
def alarms (asked : List Query) : List Diagnostic := (notes asked).filter Diagnostic.isAlarm

/-- The alarms that fit the resolution of a handled request. An alarm carries what was sought and,
where there is one, the reason. -/
inductive Tells (r : Resolution) : List Diagnostic → Prop
  /-- A resource is served, in silence. -/
  | served (h : r.outcome = .bundled ∨ r.outcome = .file) : Tells r []
  /-- The bundle does not have the resource. -/
  | missing (h : r.outcome = .bundleMiss) : Tells r [.missingResource r.path]
  /-- The system refused to read the file. -/
  | unreadable (h : r.outcome = .fileNotFound) (path : Path) (reason : Text) :
    Tells r [.unreadable path reason]
  /-- The override names no local path. -/
  | unusableOverride (h : r.outcome = .fileNotFound) (reason : Text) :
    Tells r [.unusableOverride r.path reason]
  /-- The request names the override directory itself. -/
  | emptyPath (h : r.outcome = .fileNotFound) (hpath : r.path = []) (base : Path) :
    Tells r [.emptyPath base]
  /-- The override is a remote one. -/
  | remote (h : r.outcome = .remoteUnsupported) (url : Text) :
    Tells r [.remoteOverride url r.path]

variable {ds : List Diagnostic}

/-- Where a resource is served there is no alarm. -/
theorem Tells.eq_nil (h : Tells r ds) (hserved : r.outcome = .bundled ∨ r.outcome = .file) :
    ds = [] := by
  cases h with
  | served => rfl
  | _ h => simp [h] at hserved

/-- Where none is served there is exactly one. -/
theorem Tells.length_eq (h : Tells r ds)
    (hfailed : r.outcome = .bundleMiss ∨ r.outcome = .fileNotFound
      ∨ r.outcome = .remoteUnsupported) : ds.length = 1 := by
  cases h with
  | served h => rcases h with h | h <;> simp [h] at hfailed
  | _ => rfl

/-! ### On the way to a strategy -/

/-- What was noted and nothing else is found again among what was asked. -/
theorem notes_map_note (ds : List Diagnostic) : notes (ds.map Query.note) = ds := by
  induction ds with
  | nil => rfl
  | cons d ds ih => exact congrArg (d :: ·) ih

/-- The alarms of notes in front come before those of the run. -/
theorem alarms_afterNotes {α : Type} (ds : List Diagnostic) (run : Run Query Escape α) :
    alarms (afterNotes ds run).asked = ds.filter Diagnostic.isAlarm ++ alarms run.asked := by
  show (notes (ds.map Query.note ++ run.asked)).filter _ = _
  have happend : notes (ds.map Query.note ++ run.asked) = ds ++ notes run.asked := by
    conv => rhs; rw [← notes_map_note ds]
    exact List.filterMap_append
  rw [happend, List.filter_append]
  rfl

/-- The one alarm in front of a strategy: a path whose clean form lies outside of the mount. A
double dot leads there, and so does the mount with nothing behind it. -/
theorem alarms_mountNotes (c : Config) (url : Text) :
    (mountNotes c url).filter Diagnostic.isAlarm
      = if Request.startsWith (Request.target url).value c.mountHead = true
          ∧ Request.startsWith (Request.cleanPath (Request.target url).value).value c.mountHead
            = false
        then [.leavesMount (Request.target url).value c.mountHead] else [] := by
  have htarget := Request.filter_isAlarm_target url
  have hclean := Request.filter_isAlarm_cleanPath (Request.target url).value
  unfold mountNotes
  dsimp only
  cases Request.startsWith (Request.target url).value c.mountHead with
  | false => exact htarget
  | true =>
      rw [if_pos rfl, List.filter_append, htarget, List.nil_append, List.filter_append, hclean,
        List.nil_append]
      cases Request.startsWith (Request.cleanPath (Request.target url).value).value c.mountHead with
      | false => rfl
      | true => rfl

/-! ### The strategies -/

/-- Reading beneath an override directory, if it ends well, raises the alarm that fits. Two failures
are told before anything is read, and one by the answer. -/
theorem tells_of_fromFile (h : ((fromFile url relative mediaType).run answer).outcome = .ok r) :
    Tells r (alarms ((fromFile url relative mediaType).run answer).asked) := by
  have hpath := path_of_fromFile answer h
  -- Each way to read beneath a directory is a run that is known in full, alarm included.
  rcases run_fromFile_cases answer mediaType url relative with
    ⟨reason, -, hrun⟩ | ⟨base, -, hnil, hrun⟩ | ⟨_, -, hrun⟩ | ⟨path, hrun⟩
  · rw [hrun] at h ⊢
    obtain rfl := Except.ok.inj h
    exact .unusableOverride rfl reason.message
  · rw [hrun] at h ⊢
    obtain rfl := Except.ok.inj h
    exact .emptyPath rfl hnil base
  · rw [hrun] at h
    cases h
  · rw [hrun] at h ⊢
    cases hread : answer (.read path) with
    | ok content =>
        rw [hread] at h
        obtain rfl := Except.ok.inj h
        exact .served (Or.inr rfl)
    | error reason =>
        rw [hread] at h
        obtain rfl := Except.ok.inj h
        exact .unreadable rfl path (reason.message path.text)

/-- A request under the mount, if it ends well, raises the alarm that fits its resolution. -/
theorem tells_of_underMount (h : ((underMount o name mediaType).run answer).outcome = .ok r) :
    Tells r (alarms ((underMount o name mediaType).run answer).asked) := by
  cases o with
  | none =>
      have hrun : (underMount .none name mediaType).run answer
          = runOfLookup name mediaType (answer (.lookup name)) := run_fromBundle ..
      rw [hrun] at h ⊢
      cases hlookup : answer (.lookup name) with
      | none =>
          rw [hlookup] at h
          obtain rfl := Except.ok.inj h
          exact .missing rfl
      | some content =>
          rw [hlookup] at h
          obtain rfl := Except.ok.inj h
          exact .served (Or.inl rfl)
  | file url =>
      rw [run_underMount_file] at h ⊢
      rw [alarms_afterNotes, Request.filter_isAlarm_stripMarkers]
      exact tells_of_fromFile answer h
  -- Nothing is asked, so the alarm is raised whatever the answers.
  | remote url =>
      rw [underMount, run_noted_bind] at h ⊢
      rw [alarms_afterNotes, Request.filter_isAlarm_stripMarkers]
      obtain rfl := Except.ok.inj h
      exact .remote rfl url

/-! ### Requests -/

/-- A handled request raises the alarm that fits its resolution: under the mount there is none in
front of the strategy, since the clean path starts with the mount. -/
theorem tells_of_handled (hr : ((resolve c url).run answer).outcome = .ok r)
    (hname : nameUnderMount c url = some name) :
    Tells r (alarms ((resolve c url).run answer).asked) := by
  -- A name under the mount means that both comparisons with the mount went well.
  have hunder : ¬ (nameUnderMount c url = none) := by simp [hname]
  rw [nameUnderMount_eq_none_iff, not_or, Bool.not_eq_false, Bool.not_eq_false] at hunder
  rw [run_resolve, outcome_afterNotes, hname] at hr
  rw [run_resolve, alarms_afterNotes, alarms_mountNotes, if_neg (by simp [hunder.2]), hname]
  exact tells_of_underMount answer hr

/-- Outside of the mount no strategy is tried, so only the way there raises an alarm. -/
theorem alarms_of_unhandled (hname : nameUnderMount c url = none) :
    alarms ((resolve c url).run answer).asked = (mountNotes c url).filter Diagnostic.isAlarm := by
  rw [run_resolve, alarms_afterNotes, hname]
  exact List.append_nil _

/-- Nothing fails in silence, and nothing that succeeds raises an alarm. A request raises one alarm
if it is handled and no resource is served, and none if one is served. An unhandled request raises
an alarm only if its target is under the mount as it was written, but not in its clean form. -/
theorem resolve_alarms (c : Config) (url : Text) :
    let target := (Request.target url).value
    let clean := (Request.cleanPath target).value
    let run := (resolve c url).run answer
    ∃ r, run.outcome = .ok r
      ∧ (r.outcome = .bundleMiss ∨ r.outcome = .fileNotFound ∨ r.outcome = .remoteUnsupported →
        (alarms run.asked).length = 1)
      ∧ (r.outcome = .bundled ∨ r.outcome = .file → alarms run.asked = [])
      ∧ (r.outcome = .unhandled → alarms run.asked
        = if Request.startsWith target c.mountHead = true
            ∧ Request.startsWith clean c.mountHead = false
          then [.leavesMount target c.mountHead] else [])
      ∧ (r.outcome ≠ .unhandled → Tells r (alarms run.asked)) := by
  intro target clean run
  obtain ⟨r, hr, -, hhandled⟩ := exists_resolution answer c url
  -- A request is handled exactly if it has a name under the mount.
  have htells : r.outcome ≠ .unhandled → Tells r (alarms run.asked) := by
    intro hne
    have hsome : (nameUnderMount c url).isSome = true := hhandled.symm.trans (bne_iff_ne.mpr hne)
    obtain ⟨name, hname⟩ := Option.isSome_iff_exists.mp hsome
    exact tells_of_handled answer hr hname
  refine ⟨r, hr, fun hfailed => ?_, fun hserved => ?_, fun hout => ?_, htells⟩
  · have hne : r.outcome ≠ .unhandled := by
      rcases hfailed with h | h | h <;> simp [h]
    exact (htells hne).length_eq hfailed
  · have hne : r.outcome ≠ .unhandled := by
      rcases hserved with h | h <;> simp [h]
    exact (htells hne).eq_nil hserved
  · have hnone : nameUnderMount c url = none := by
      apply Option.not_isSome_iff_eq_none.mp
      rw [← hhandled, Resolution.handled, hout]
      decide
    exact (alarms_of_unhandled answer hnone).trans (alarms_mountNotes c url)

end Resolve

end FrontendAssets
