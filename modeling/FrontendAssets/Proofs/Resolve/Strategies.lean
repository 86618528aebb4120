import FrontendAssets.Proofs.Resolve.Confinement

/-!
# `FrontendAssets.Proofs.Resolve.Strategies`: one strategy for each request

What a request asks of the bundle and of the file system has to fit the resolution that comes out.
`Accords` lists the ways to fit, each with the override under which it can occur. A name under the
mount is resolved in accord with the override, whatever the answers (`underMount_accords`), so a
request either is unhandled and asks nothing, or runs the one strategy that its override stands for
(`resolve_accords`).

No strategy fails here. For files this is not the work of the guard but of clean paths, which the
guard always lets pass. Whatever comes out, the path that is reported is the one that was `sought`,
which depends on the override alone (`path_of_resolve`).
-/

set_option autoImplicit false

namespace FrontendAssets.Resolve

open Text (join)

variable (answer : (q : Query) → q.Answer) {names : List Text}

/-- How the look-ups, the files to read and the resolution of a handled request fit together under
an override. The constructors are the ways in which a handled request can end. Each fixes what was
asked in full, so no strategy asks what belongs to another one. -/
inductive Accords : Override → List Text → List Path → Resolution → Prop
  /-- The bundle has the resource, which may be empty. -/
  | bundled {name content mediaType} (h : answer (.lookup name) = some content) :
    Accords .none [name] [] ⟨.bundled, some content, mediaType, name⟩
  /-- The bundle does not have the resource, and nothing stands in for it. -/
  | bundleMiss {name mediaType} (h : answer (.lookup name) = none) :
    Accords .none [name] [] ⟨.bundleMiss, none, mediaType, name⟩
  /-- The file beneath the override directory was read. -/
  | file {url base relative content mediaType} (hbase : FileUrl.toPath url = .ok base)
    (h : answer (.read (base.append (Path.ofText relative))) = .ok content) :
    Accords (.file url) [] [base.append (Path.ofText relative)]
      ⟨.file, some content, mediaType, relative⟩
  /-- The file was asked for, and the system refused it for whatever reason. -/
  | unreadable {url base relative reason mediaType} (hbase : FileUrl.toPath url = .ok base)
    (h : answer (.read (base.append (Path.ofText relative))) = .error reason) :
    Accords (.file url) [] [base.append (Path.ofText relative)]
      ⟨.fileNotFound, some Resolution.notFoundBody, mediaType, relative⟩
  /-- Nothing is read where the override names no path, or the request the directory itself. -/
  | nothingToRead {url relative mediaType}
    (h : (∃ reason, FileUrl.toPath url = .error reason) ∨ relative = []) :
    Accords (.file url) [] [] ⟨.fileNotFound, some Resolution.notFoundBody, mediaType, relative⟩
  /-- A remote override is not followed. -/
  | remoteUnsupported {url path mediaType} :
    Accords (.remote url) [] [] ⟨.remoteUnsupported, none, mediaType, path⟩

/-! ### Look-ups -/

variable {answer} in
/-- Only without an override is the bundle asked for anything. -/
theorem Accords.eq_none_of_mem {o : Override} {name : Text} {asked : List Text} {files : List Path}
    {r : Resolution} (h : Accords answer o asked files r) (hname : name ∈ asked) : o = .none := by
  cases h with
  | bundled => rfl
  | bundleMiss => rfl
  | _ => exact absurd hname List.not_mem_nil

variable {answer} in
/-- The name that the bundle was asked for is the path that is reported. -/
theorem Accords.path_eq {o : Override} {name : Text} {files : List Path} {r : Resolution}
    (h : Accords answer o [name] files r) : r.path = name := by
  cases h with
  | bundled => rfl
  | bundleMiss => rfl

/-- Notes are no look-ups. -/
@[simp] theorem lookups_afterNotes {α : Type} (ds : List Diagnostic) (run : Run Query Escape α) :
    lookups (afterNotes ds run).asked = lookups run.asked := by
  induction ds with
  | nil => rfl
  | cons d ds ih => exact ih

/-- Without an override the bundle is asked once, for the name under the mount. -/
theorem lookups_underMount_none (name mediaType : Text) :
    lookups ((underMount .none name mediaType).run answer).asked = [name] := by
  show lookups ((fromBundle name mediaType).run answer).asked = [name]
  rw [run_fromBundle]
  cases answer (.lookup name) <;> rfl

/-! ### The strategies -/

/-- A run that ends in a handled resolution of a media type, in accord with an override. -/
def RunAccords (o : Override) (mediaType : Text) (run : Run Query Escape Resolution) : Prop :=
  ∃ r, run.outcome = .ok r ∧ r.outcome ≠ .unhandled ∧ r.mediaType = mediaType
    ∧ Accords answer o (lookups run.asked) (reads run.asked) r

/-- Notes in front do not matter: they are neither look-ups nor files to read. -/
theorem RunAccords.afterNotes {o : Override} {mediaType : Text} {run : Run Query Escape Resolution}
    (h : RunAccords answer o mediaType run) (ds : List Diagnostic) :
    RunAccords answer o mediaType (afterNotes ds run) := by
  simpa [RunAccords] using h

/-- The bundle has the resource or it does not. -/
theorem fromBundle_accords (name mediaType : Text) :
    RunAccords answer .none mediaType ((fromBundle name mediaType).run answer) := by
  rw [run_fromBundle]
  cases h : answer (.lookup name) with
  | none => exact ⟨_, rfl, by simp, rfl, .bundleMiss h⟩
  | some content => exact ⟨_, rfl, by simp, rfl, .bundled h⟩

/-- Clean names leave three ways: there is no directory, there is nothing to read, or the file is
read. The fourth way of `run_fromFile_cases`, a path outside of the directory, is not open to
them. -/
theorem fromFile_accords (url mediaType : Text) (hnames : ∀ n ∈ names, Request.IsCleanName n) :
    RunAccords answer (.file url) mediaType
      ((fromFile url (join '/' names) mediaType).run answer) := by
  cases hbase : FileUrl.toPath url with
  | error reason =>
      rw [run_fromFile_of_error answer mediaType hbase]
      exact ⟨_, rfl, by simp [fileNotFound], rfl, .nothingToRead (Or.inl ⟨reason, hbase⟩)⟩
  | ok base =>
      by_cases hne : names = []
      · subst hne
        rw [show join '/' [] = [] from rfl, run_fromFile_of_nil answer mediaType hbase]
        exact ⟨_, rfl, by simp [fileNotFound], rfl, .nothingToRead (Or.inr rfl)⟩
      · -- Appending the text of clean names to a path is appending the names.
        have hpath : Path.mk base.root (base.segments ++ names)
            = base.append (Path.ofText (join '/' names)) := by
          rw [Request.ofText_join hnames]
          rfl
        rw [run_fromFile_join answer mediaType hbase hnames hne, hpath]
        cases h : answer (.read (base.append (Path.ofText (join '/' names)))) with
        | ok content => exact ⟨_, rfl, by simp, rfl, .file hbase h⟩
        | error reason => exact ⟨_, rfl, by simp [fileNotFound], rfl, .unreadable hbase h⟩

/-- A remote override ends one way, without asking anything. -/
theorem fromRemote_accords (url path mediaType : Text) :
    RunAccords answer (.remote url) mediaType ((fromRemote url path mediaType).run answer) :=
  ⟨⟨.remoteUnsupported, none, mediaType, path⟩, rfl, by simp, rfl, .remoteUnsupported⟩

/-- A name under the mount is resolved in accord with the override. -/
theorem underMount_accords (o : Override) (name mediaType : Text) :
    RunAccords answer o mediaType ((underMount o name mediaType).run answer) := by
  cases o with
  | none => exact fromBundle_accords answer name mediaType
  | file url =>
      rw [run_underMount_file, Request.removeDotSegments_eq]
      refine RunAccords.afterNotes answer ?_ _
      exact fromFile_accords answer url mediaType fun _ hn =>
        Request.isCleanName_of_mem_cleanNames hn
  | remote url =>
      rw [underMount, run_noted_bind]
      exact RunAccords.afterNotes answer (fromRemote_accords answer url _ mediaType) _

/-! ### The path that is reported -/

/-- What is sought for a name under the mount: for a file the clean path behind the serve markers,
for a remote override what is behind the markers, and for the bundle the name as it is. -/
def sought (o : Override) (name : Text) : Text :=
  match o with
  | .none => name
  | .file _ => Request.removeDotSegments (Request.stripMarkers name).value
  | .remote _ => (Request.stripMarkers name).value

/-- Whatever becomes of a file, the path that was sought is reported, be it found or not. -/
theorem path_of_fromFile {url relative mediaType : Text} {r : Resolution}
    (h : ((fromFile url relative mediaType).run answer).outcome = .ok r) : r.path = relative := by
  rcases run_fromFile_cases answer mediaType url relative with
    ⟨_, -, hrun⟩ | ⟨_, -, -, hrun⟩ | ⟨_, -, hrun⟩ | ⟨path, hrun⟩
  · rw [hrun] at h
    exact Except.ok.inj h ▸ rfl
  · rw [hrun] at h
    exact Except.ok.inj h ▸ rfl
  · rw [hrun] at h
    cases h
  · rw [hrun] at h
    cases hread : answer (.read path) with
    | ok content =>
        rw [hread] at h
        exact Except.ok.inj h ▸ rfl
    | error reason =>
        rw [hread] at h
        exact Except.ok.inj h ▸ rfl

/-- The path of a resolution under the mount is the one that was sought. -/
theorem path_of_underMount {o : Override} {name mediaType : Text} {r : Resolution}
    (h : ((underMount o name mediaType).run answer).outcome = .ok r) : r.path = sought o name := by
  cases o with
  | none =>
      have hrun : ((fromBundle name mediaType).run answer).outcome = .ok r := h
      rw [run_fromBundle] at hrun
      -- Found or not, the name is reported as it was asked for.
      cases hlookup : answer (.lookup name) with
      | none =>
          rw [hlookup] at hrun
          exact Except.ok.inj hrun ▸ rfl
      | some content =>
          rw [hlookup] at hrun
          exact Except.ok.inj hrun ▸ rfl
  | file url =>
      rw [run_underMount_file, outcome_afterNotes] at h
      exact path_of_fromFile answer h
  | remote url =>
      rw [underMount, run_noted_bind, outcome_afterNotes] at h
      exact Except.ok.inj h ▸ rfl

/-! ### Requests -/

/-- Every request ends well, with the content type of its address, and is handled exactly if there
is a name under the mount. The answers have no part in the last two. -/
theorem exists_resolution (c : Config) (url : Text) :
    ∃ r, ((resolve c url).run answer).outcome = .ok r ∧ r.mediaType = MediaType.ofUrl url
      ∧ r.handled = (nameUnderMount c url).isSome := by
  rw [run_resolve, outcome_afterNotes]
  cases nameUnderMount c url with
  | none => exact ⟨_, rfl, rfl, rfl⟩
  | some name =>
      obtain ⟨r, hr, hhandled, htype, -⟩ :=
        underMount_accords answer c.override name (MediaType.ofUrl url)
      exact ⟨r, hr, htype, bne_iff_ne.mpr hhandled⟩

variable {answer} in
/-- The path that is reported is the one that was sought for the name under the mount. -/
theorem path_of_resolve {c : Config} {url name : Text} {r : Resolution}
    (hr : ((resolve c url).run answer).outcome = .ok r) (hname : nameUnderMount c url = some name) :
    r.path = sought c.override name := by
  rw [run_resolve, outcome_afterNotes, hname] at hr
  exact path_of_underMount answer hr

variable {answer} in
/-- A handled request has run the strategy of the override, and what it asked fits its
resolution. -/
theorem accords_of_handled {c : Config} {url : Text} {r : Resolution}
    (hr : ((resolve c url).run answer).outcome = .ok r) (h : r.handled = true) :
    Accords answer c.override (lookups ((resolve c url).run answer).asked)
      (reads ((resolve c url).run answer).asked) r := by
  rw [run_resolve, outcome_afterNotes] at hr
  rw [run_resolve, lookups_afterNotes, reads_afterNotes]
  cases hname : nameUnderMount c url with
  | none =>
      rw [hname] at hr
      obtain rfl := Except.ok.inj hr
      cases h
  | some name =>
      rw [hname] at hr
      obtain ⟨found, hfound, -, -, haccords⟩ :=
        underMount_accords answer c.override name (MediaType.ofUrl url)
      -- A run ends in one way, so the resolution is the one in accord.
      obtain rfl := Except.ok.inj (hr.symm.trans hfound)
      exact haccords

/-- Every request ends well, is unhandled or runs the strategy of the override, and nothing else is
asked. -/
theorem resolve_accords (c : Config) (url : Text) :
    ∃ r, ((resolve c url).run answer).outcome = .ok r
      ∧ r.mediaType = MediaType.ofUrl url
      ∧ (r.outcome = .unhandled ↔ nameUnderMount c url = none)
      ∧ (r.outcome = .unhandled → lookups ((resolve c url).run answer).asked = []
        ∧ reads ((resolve c url).run answer).asked = [] ∧ r.body = none ∧ r.path = [])
      ∧ (r.outcome ≠ .unhandled → Accords answer c.override
        (lookups ((resolve c url).run answer).asked)
        (reads ((resolve c url).run answer).asked) r) := by
  rw [run_resolve, outcome_afterNotes, lookups_afterNotes, reads_afterNotes]
  cases nameUnderMount c url with
  | none =>
      refine ⟨_, rfl, rfl, by simp, ?_, ?_⟩
      · exact fun _ => ⟨rfl, rfl, rfl, rfl⟩
      · exact fun h => absurd rfl h
  | some name =>
      obtain ⟨r, hr, hhandled, htype, haccords⟩ :=
        underMount_accords answer c.override name (MediaType.ofUrl url)
      refine ⟨r, hr, htype, by simp [hhandled], ?_, ?_⟩
      · exact fun h => absurd h hhandled
      · exact fun _ => haccords

end FrontendAssets.Resolve
