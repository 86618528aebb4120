import FrontendAssets.Proofs.CommandLine.Ends
import FrontendAssets.Proofs.Files.Writing
import FrontendAssets.Proofs.MediaType
import FrontendAssets.Proofs.Resolve.Strategies

/-!
# `FrontendAssets.Proofs.CommandLine.Agreement`: the program and the resolution

The program that resolves an address loads a bundle, makes a configuration, resolves the address,
and puts the body somewhere. `Agrees` says what is to be seen of this in each case: the exit code,
the standard output, the files, and the last line that is reported. The body is put somewhere last,
so a run that ends in any other way has printed nothing and changed no file.

`runOn_agrees_iff` says that every run agrees, but for two switches without a word. A level without
one ends the program before it does anything, and a mount without one ends it once the bundle is
loaded. Neither ends with an exit code (`runOn_wordless_level`). `course_runOn` goes through the
cases once, and what exit code 0 promises about the body (`runOn_delivers`) follows from the same
cases.
-/

set_option autoImplicit false

namespace FrontendAssets

/-- The name of an outcome stands on one line. -/
theorem Outcome.newline_not_mem_name (o : Outcome) : '\n' ∉ o.name := by
  cases o <;> decide

namespace CommandLine

/-! ### Lines -/

/-- A text that consists of whole lines, or of none. -/
def IsLines (t : Text) : Prop := t = [] ∨ ∃ front, t = front ++ ['\n']

/-- Lines behind lines are lines. -/
theorem IsLines.append {t more : Text} (h : IsLines t) (hmore : IsLines more) :
    IsLines (t ++ more) := by
  rcases hmore with rfl | ⟨front, rfl⟩
  · rw [List.append_nil]
    exact h
  · exact Or.inr ⟨t ++ front, (List.append_assoc ..).symm⟩

/-- What is reported of diagnostics are whole lines, although a message may break one of them in
two. -/
theorem isLines_noteLines (level : Level) (ds : List Diagnostic) :
    IsLines (noteLines level ds) := by
  unfold noteLines
  induction ds.filter fun d => level.rank ≤ d.level.rank with
  | nil => exact Or.inl rfl
  | cons d ds ih =>
      have hfirst : IsLines (noteLine d) := Or.inr ⟨_, rfl⟩
      rw [List.flatMap_cons]
      exact hfirst.append ih

/-- A text of whole lines, the last of which is `line`. -/
def EndsInLine (line t : Text) : Prop :=
  '\n' ∉ line ∧ ∃ before, IsLines before ∧ t = before ++ (line ++ ['\n'])

/-- The outcome and the content type of a resolution, as they stand on its line. -/
def summary (r : Resolution) : Text := r.outcome.name ++ " ".toList ++ r.mediaType

/-- The line of a resolution is one line: neither names of outcomes nor content types can break
it. -/
theorem endsInLine_outcomeLine {r : Resolution} {url before : Text}
    (htype : r.mediaType = MediaType.ofUrl url) (hbefore : IsLines before) :
    EndsInLine (summary r) (before ++ outcomeLine r) := by
  refine ⟨?_, before, hbefore, rfl⟩
  rw [summary, htype]
  simp [Outcome.newline_not_mem_name, MediaType.newline_not_mem_ofUrl]

/-! ### What is to be seen -/

section Agrees

variable (v : Volume) (o : Options)

/-- The configuration that the options name, if it can be made. -/
def configOf : Option Config :=
  match o.mount with
  | .wordless => none
  | .word mount => (Config.make o.frontend mount Config.defaultReaders).toOption.map Noted.value

/-- The options name a bundle and a configuration, and with these the address resolves to `r`. -/
def Resolves (r : Resolution) : Prop :=
  ∃ bundle config, bundleOf v o = .ok bundle ∧ configOf o = some config
    ∧ ((Resolve.resolve config o.url).run (Resolve.World.answer ⟨bundle.value, v⟩)).outcome = .ok r

/-- What is to be seen of a run on the volume `v`: it fits the resolution of the address. -/
inductive Agrees : Completed → Prop
  /-- The bundle or the configuration cannot be had. -/
  | unbuilt {reports} (h : (∃ e, bundleOf v o = .error e) ∨ configOf o = none) :
    Agrees ⟨.ok 2, [], reports, v⟩
  /-- The address resolves to something without a body: exit code 1, and nothing printed. -/
  | noBody {r reports} (h : Resolves v o r) (hbody : r.body = none)
    (hline : EndsInLine (summary r) reports) :
    Agrees ⟨.ok 1, [], reports, v⟩
  /-- The body is on the standard output: exit code 0, and no file changed. -/
  | printed {r body reports} (h : Resolves v o r) (hbody : r.body = some body)
    (houtput : textOf o.output = none) (hline : EndsInLine (summary r) reports) :
    Agrees ⟨.ok 0, body, reports, v⟩
  /-- The file is where its path leads to, and no other one is changed. -/
  | written {r body reports file goal next} (h : Resolves v o r) (hbody : r.body = some body)
    (houtput : textOf o.output = some file) (hgoal : next.locate (Path.ofText file) = .ok goal)
    (hputs : v.Puts goal body next) (hline : EndsInLine (summary r) reports) :
    Agrees ⟨.ok 0, [], reports, next⟩
  /-- A file that cannot be written ends the run without an exit code, behind the last line. -/
  | unwritable {r body reports file reason} (h : Resolves v o r) (hbody : r.body = some body)
    (houtput : textOf o.output = some file)
    (hwrite : v.write (Path.ofText file) body = .error reason)
    (hline : EndsInLine (summary r) reports) :
    Agrees ⟨.error (.refused (Path.ofText file) reason), [], reports, v⟩

end Agrees

/-! ### Runs that agree -/

variable {v : Volume} {o : Options} {arguments : List Text} {level : Level} {r : Resolution}

/-- The part behind the line of a resolution: exit code, output and files fit the body. -/
theorem exists_ends_conclude (h : Resolves v o r) (htype : r.mediaType = MediaType.ofUrl o.url) :
    ∃ code output last, Ends (conclude o r) v code output [] last
      ∧ ∀ before, IsLines before → Agrees v o ⟨code, output, before ++ outcomeLine r, last⟩ := by
  have hline : ∀ before, IsLines before → EndsInLine (summary r) (before ++ outcomeLine r) :=
    fun before hbefore => endsInLine_outcomeLine htype hbefore
  -- Without a body the exit code tells; with one it goes where the options say.
  cases hbody : r.body with
  | none =>
      refine ⟨.ok 1, [], v, ends_conclude_of_body_eq_none hbody v, ?_⟩
      exact fun before hbefore => .noBody h hbody (hline before hbefore)
  | some body =>
      rw [conclude_of_body_eq_some hbody]
      cases houtput : textOf o.output with
      | none =>
          refine ⟨.ok 0, body, v, ends_deliver_of_none houtput body v, ?_⟩
          exact fun before hbefore => .printed h hbody houtput (hline before hbefore)
      | some file =>
          cases hwrite : v.write (Path.ofText file) body with
          | ok next =>
              obtain ⟨goal, hgoal, hputs⟩ := Volume.exists_puts_of_write hwrite
              refine ⟨.ok 0, [], next, ends_deliver_of_write houtput hwrite, ?_⟩
              exact fun before hbefore =>
                .written h hbody houtput hgoal hputs (hline before hbefore)
          | error reason =>
              refine ⟨.error (.refused (Path.ofText file) reason), [], v,
                ends_deliver_of_refusal houtput hwrite, ?_⟩
              exact fun before hbefore =>
                .unwritable h hbody houtput hwrite (hline before hbefore)

/-- A run of the program that resolves an address is one of `resolve`. -/
theorem runOn_eq_of_ends_resolve (h : Invocation.ofArguments arguments = .ok (.resolve o))
    {code : Except Failure Nat} {output : Bytes} {reports : Text} {last : Volume}
    (hends : Ends (resolve o) v code output reports last) :
    runOn v arguments = ⟨code, output, reports, last⟩ := by
  apply runOn_eq_of_ends
  unfold program
  rw [h]
  exact hends

/-- A bundle that cannot be had ends the run with exit code 2, whatever the other options are. -/
theorem agrees_of_bundleOf_eq_error (h : Invocation.ofArguments arguments = .ok (.resolve o))
    (hlevel : o.level = some level) {e : Bundle.LoadError} (hbundle : bundleOf v o = .error e) :
    Agrees v o (runOn v arguments) := by
  rw [runOn_eq_of_ends_resolve h (ends_resolve_of_error hlevel hbundle)]
  exact .unbuilt (Or.inl ⟨e, hbundle⟩)

/-- With a bundle and a mount that has a word, the run comes to the resolution, or the configuration
cannot be had. -/
theorem agrees_of_bundleOf_eq_ok (h : Invocation.ofArguments arguments = .ok (.resolve o))
    (hlevel : o.level = some level) {bundle : Noted Bundle} (hbundle : bundleOf v o = .ok bundle)
    {mount : Text} (hmount : o.mount = .word mount) : Agrees v o (runOn v arguments) := by
  cases hmake : Config.make o.frontend mount Config.defaultReaders with
  | error e =>
      have hconfig : configOf o = none := by simp [configOf, hmount, hmake, Except.toOption]
      rw [runOn_eq_of_ends_resolve h
        (ends_resolve_of_ok hlevel hbundle (ends_configure_of_error hmount hmake))]
      exact .unbuilt (Or.inr hconfig)
  | ok config =>
      have hconfig : configOf o = some config.value := by
        simp [configOf, hmount, hmake, Except.toOption]
      -- No request fails, so there is a resolution, and its line ends the report.
      obtain ⟨r, hr, htype, -⟩ := Resolve.exists_resolution
        (Resolve.World.answer ⟨bundle.value, v⟩) config.value o.url
      obtain ⟨code, output, last, hends, hagrees⟩ :=
        exists_ends_conclude ⟨bundle, config.value, hbundle, hconfig, hr⟩ htype
      rw [runOn_eq_of_ends_resolve h (ends_resolve_of_ok hlevel hbundle
        (ends_configure_of_ok hmount hmake (ends_resolveWith hr hends)))]
      rw [← List.append_assoc, ← List.append_assoc]
      apply hagrees
      exact ((isLines_noteLines level _).append (isLines_noteLines level _)).append
        (isLines_noteLines level _)

/-! ### Switches without a word -/

/-- A run that agrees ends with an exit code, unless the body cannot be written. So it does not end
as one that a missing word cuts short. -/
theorem Agrees.ending_ne {done : Completed} (h : Agrees v o done) :
    done.ending ≠ .error .wordlessLevel ∧ done.ending ≠ .error .wordlessMount := by
  cases h <;> exact ⟨nofun, nofun⟩

/-- The run of options whose level has no word. -/
theorem ending_of_level_eq_none (h : Invocation.ofArguments arguments = .ok (.resolve o))
    (hlevel : o.level = none) : (runOn v arguments).ending = .error .wordlessLevel := by
  rw [runOn_eq_of_ends_resolve h (ends_resolve_of_level_eq_none hlevel)]

/-- The run of options whose mount has no word, where the bundle can be loaded. -/
theorem ending_of_mount_eq_wordless (h : Invocation.ofArguments arguments = .ok (.resolve o))
    (hlevel : o.level = some level) {bundle : Noted Bundle} (hbundle : bundleOf v o = .ok bundle)
    (hmount : o.mount = .wordless) : (runOn v arguments).ending = .error .wordlessMount := by
  rw [runOn_eq_of_ends_resolve h
    (ends_resolve_of_ok hlevel hbundle (ends_configure_of_wordless hmount))]

/-- The ways in which a run of the program that resolves an address can go. Two of them are cut
short by a switch without a word, and all others agree with the resolution. -/
inductive Course (v : Volume) (o : Options) (done : Completed) : Prop
  /-- The level has no word, which is found out before anything is done. -/
  | wordlessLevel (hlevel : o.level = none) (hending : done.ending = .error .wordlessLevel)
  /-- The mount is looked at behind the bundle, so a bundle that cannot be loaded comes first. -/
  | wordlessMount {bundle : Noted Bundle} (hlevel : o.level ≠ none) (hmount : o.mount = .wordless)
    (hbundle : bundleOf v o = .ok bundle) (hending : done.ending = .error .wordlessMount)
  /-- There is a word wherever one is looked for. -/
  | agrees (hlevel : o.level ≠ none)
    (hmount : o.mount = .wordless → ∃ e, bundleOf v o = .error e) (hagrees : Agrees v o done)

/-- Every run of the program that resolves an address goes in one of these ways. -/
theorem course_runOn (v : Volume) (h : Invocation.ofArguments arguments = .ok (.resolve o)) :
    Course v o (runOn v arguments) := by
  -- The cases stand in the order in which the program looks at the options.
  cases hlevel : o.level with
  | none => exact .wordlessLevel hlevel (ending_of_level_eq_none h hlevel)
  | some level =>
      have hworded : o.level ≠ none := by
        rw [hlevel]
        exact nofun
      cases hbundle : bundleOf v o with
      | error e =>
          exact .agrees hworded (fun _ => ⟨e, hbundle⟩)
            (agrees_of_bundleOf_eq_error h hlevel hbundle)
      | ok bundle =>
          cases hmount : o.mount with
          | wordless =>
              exact .wordlessMount hworded hmount hbundle
                (ending_of_mount_eq_wordless h hlevel hbundle hmount)
          | word mount =>
              refine .agrees hworded ?_ (agrees_of_bundleOf_eq_ok h hlevel hbundle hmount)
              intro hwordless
              cases hmount.symm.trans hwordless

/-- Every run of the program that resolves an address agrees with the resolution, but for two: one
whose level has no word, and one whose mount has none where the bundle can be loaded. -/
theorem runOn_agrees_iff (v : Volume) (h : Invocation.ofArguments arguments = .ok (.resolve o)) :
    Agrees v o (runOn v arguments)
      ↔ o.level ≠ none ∧ (o.mount = .wordless → ∃ e, bundleOf v o = .error e) := by
  cases course_runOn v h with
  | wordlessLevel hlevel hending =>
      exact iff_of_false (fun hagrees => hagrees.ending_ne.1 hending) fun hboth => hboth.1 hlevel
  | wordlessMount _ hmount hbundle hending =>
      refine iff_of_false (fun hagrees => hagrees.ending_ne.2 hending) fun hboth => ?_
      obtain ⟨e, he⟩ := hboth.2 hmount
      cases hbundle.symm.trans he
  | agrees hlevel hmount hagrees => exact iff_of_true hagrees ⟨hlevel, hmount⟩

/-- The bundle is loaded from a directory, and the body is written into that directory. -/
theorem runOn_agrees_output :
    let arguments :=
      ["resolve", "bundled/main.js", "--bundle", "fe", "-o", "fe/out.js"].map String.toList
    let o : Options := {
      url := "bundled/main.js".toList
      bundle := some (.word "fe".toList)
      output := some (.word "fe/out.js".toList) }
    let v : Volume := ⟨.folder "fe".toList (.file "main.js".toList [77] .empty) .empty, []⟩
    let done := runOn v arguments
    Invocation.ofArguments arguments = .ok (.resolve o)
      ∧ Agrees v o done
      ∧ done.ending = .ok 0
      ∧ done.output = []
      ∧ done.reports = "bundled application/javascript\n".toList
      ∧ done.volume.read (Path.ofText "fe/out.js".toList) = .ok [77] := by
  intro arguments o v done
  have hread : Invocation.ofArguments arguments = .ok (.resolve o) := by rfl
  have hagrees : Agrees v o done := (runOn_agrees_iff v hread).mpr ⟨nofun, nofun⟩
  refine ⟨hread, hagrees, ?_, ?_, ?_, ?_⟩ <;> decide +kernel

/-- A level without a word ends the program before it does anything, and without an exit code,
though there is a bundle and a configuration, and the address resolves to something without a
body. -/
theorem runOn_wordless_level :
    let arguments := ["resolve", "--log-level=--", "other"].map String.toList
    let o : Options := { url := "other".toList, level := none }
    let v : Volume := ⟨.empty, []⟩
    Invocation.ofArguments arguments = .ok (.resolve o)
      ∧ Resolves v o { outcome := .unhandled }
      ∧ (runOn v arguments).ending = .error .wordlessLevel
      ∧ (runOn v arguments).reports = []
      ∧ ¬ Agrees v o (runOn v arguments) := by
  intro arguments o v
  have hread : Invocation.ofArguments arguments = .ok (.resolve o) := by rfl
  have hresolves : Resolves v o { outcome := .unhandled } :=
    ⟨{ value := .empty }, Config.default, rfl, rfl, rfl⟩
  have hending := ending_of_level_eq_none (v := v) hread rfl
  exact ⟨hread, hresolves, rfl, rfl, fun hagrees => hagrees.ending_ne.1 hending⟩

/-! ### What exit code 0 means -/

/-- The body is where the options want it: on the standard output, with every file as it was, or in
the file that they name, with nothing printed. -/
def Delivered (v : Volume) (o : Options) (body : Bytes) (done : Completed) : Prop :=
  match textOf o.output with
  | none => done.output = body ∧ done.volume = v
  | some file => done.output = [] ∧ done.volume.read (Path.ofText file) = .ok body

/-- A run that agrees ends with exit code 0 only behind a body that it has delivered. -/
theorem Agrees.exists_delivered {done : Completed} (h : Agrees v o done)
    (hzero : done.ending = .ok 0) :
    ∃ r body, Resolves v o r ∧ r.body = some body ∧ Delivered v o body done := by
  cases h with
  | unbuilt => cases hzero
  | noBody => cases hzero
  | unwritable => cases hzero
  | printed h hbody houtput =>
      refine ⟨_, _, h, hbody, ?_⟩
      rw [Delivered, houtput]
      exact ⟨rfl, rfl⟩
  | written h hbody houtput hgoal hputs =>
      refine ⟨_, _, h, hbody, ?_⟩
      rw [Delivered, houtput]
      exact ⟨rfl, hputs.read_eq hgoal⟩

/-- Exit code 0 of any run, with whatever switches, says that the address resolves to something with
a body, and that the body has been delivered. Nothing is asked of the switches: the runs that a
missing word cuts short end without any exit code. -/
theorem runOn_delivers (h : Invocation.ofArguments arguments = .ok (.resolve o))
    (hzero : (runOn v arguments).ending = .ok 0) :
    ∃ r body, Resolves v o r ∧ r.body = some body ∧ Delivered v o body (runOn v arguments) := by
  cases course_runOn v h with
  | wordlessLevel _ hending => cases hending.symm.trans hzero
  | wordlessMount _ _ _ hending => cases hending.symm.trans hzero
  | agrees _ _ hagrees => exact hagrees.exists_delivered hzero

end CommandLine

end FrontendAssets
