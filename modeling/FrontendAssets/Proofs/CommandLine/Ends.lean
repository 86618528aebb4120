import FrontendAssets.CommandLine.Run

/-!
# `FrontendAssets.Proofs.CommandLine.Ends`: how parts of the program end

`Ends` says everything that can be seen of a part of the program that begins on some volume: how it
ends, what it prints and reports, and the volume it leaves. There is one rule for each query, one
for two parts in sequence, and one for each part of the program, so that a run of the whole is put
together from them.

`ends_consult` is the rule for the request itself. The program asks the volume as it goes, and the
resolution is defined on a world that stands still. Both come to the same, since resolving a request
changes no file.
-/

set_option autoImplicit false

namespace FrontendAssets.CommandLine

variable {α β : Type} {v w : Volume} {p : Steps α} {ending : Except Failure α}
  {output : Bytes} {reports : Text} {last : Volume}

/-- How a part of the program ends that begins on the volume `v`. The four things are kept apart, so
that a rule can be stated for each part without saying how it was run. -/
structure Ends (p : Steps α) (v : Volume) (ending : Except Failure α) (output : Bytes)
    (reports : Text) (last : Volume) : Prop where
  /-- The result, or the failure. -/
  outcome_eq : (p.runFrom serve v).1.outcome = ending
  /-- What is on the standard output. -/
  printed_eq : printed (p.runFrom serve v).1.asked = output
  /-- What is on the standard error. -/
  reported_eq : reported (p.runFrom serve v).1.asked = reports
  /-- The files behind it. -/
  volume_eq : (p.runFrom serve v).2 = last

/-- A run of the program, from how the program ends. -/
theorem runOn_eq_of_ends {arguments : List Text} {code : Except Failure Nat}
    (h : Ends (program arguments) v code output reports last) :
    runOn v arguments = ⟨code, output, reports, last⟩ := by
  obtain ⟨rfl, rfl, rfl, rfl⟩ := h
  rfl

/-! ### Rules -/

/-- A result is there without anything being done. -/
theorem ends_done (a : α) (v : Volume) : Ends (.done a) v (.ok a) [] [] v :=
  ⟨rfl, rfl, rfl, rfl⟩

/-- A failure is there without anything being done, too. -/
theorem ends_failed (e : Failure) (v : Volume) :
    Ends (.failed e : Steps α) v (.error e) [] [] v :=
  ⟨rfl, rfl, rfl, rfl⟩

/-- Printing adds to the standard output and nothing else. -/
theorem ends_print (content : Bytes) (v : Volume) : Ends (print content) v (.ok ()) content [] v :=
  ⟨rfl, List.append_nil content, rfl, rfl⟩

/-- Reporting adds to the standard error and nothing else. -/
theorem ends_report (t : Text) (v : Volume) : Ends (report t) v (.ok ()) [] t v :=
  ⟨rfl, rfl, List.append_nil t, rfl⟩

/-- Listing a directory is answered by the volume, and leaves it as it is. -/
theorem ends_list (path : Path) (v : Volume) :
    Ends (Plan.query (Query.list path) : Steps (Except Refusal Tree)) v (.ok (v.list path)) [] []
      v :=
  ⟨rfl, rfl, rfl, rfl⟩

/-- Writing that succeeds leaves the next volume. -/
theorem ends_write_of_ok {path : Path} {content : Bytes} (h : v.write path content = .ok w) :
    Ends (Plan.query (Query.write path content) : Steps (Except Refusal Unit)) v (.ok (.ok ()))
      [] [] w := by
  refine ⟨?_, rfl, rfl, ?_⟩ <;> simp [Plan.query, Plan.runFrom, serve, h]

/-- Writing that is refused leaves the volume as it is. The refusal is an answer and not yet a
failure. -/
theorem ends_write_of_error {path : Path} {content : Bytes} {reason : Refusal}
    (h : v.write path content = .error reason) :
    Ends (Plan.query (Query.write path content) : Steps (Except Refusal Unit)) v
      (.ok (.error reason)) [] [] v := by
  refine ⟨?_, rfl, rfl, ?_⟩ <;> simp [Plan.query, Plan.runFrom, serve, h]

/-- A file is read, and the plan goes on with the answer. -/
theorem Ends.ask_read {path : Path} {next : Except Refusal Bytes → Steps α}
    (h : Ends (next (v.read path)) v ending output reports last) :
    Ends (.ask (.read path) next) v ending output reports last := by
  obtain ⟨rfl, rfl, rfl, rfl⟩ := h
  exact ⟨rfl, rfl, rfl, rfl⟩

/-- What two rows of queries print, one after the other. -/
theorem printed_append (asked more : List Query) :
    printed (asked ++ more) = printed asked ++ printed more :=
  List.flatMap_append

/-- What two rows of queries report, one after the other. -/
theorem reported_append (asked more : List Query) :
    reported (asked ++ more) = reported asked ++ reported more :=
  List.flatMap_append

/-- Two parts in sequence: the second begins with the result of the first and on the volume that the
first leaves. -/
theorem Ends.bind {f : α → Steps β} {a : α} {outputBehind : Bytes} {reportsBehind : Text}
    {endingBehind : Except Failure β} (h : Ends p v (.ok a) output reports w)
    (hf : Ends (f a) w endingBehind outputBehind reportsBehind last) :
    Ends (p >>= f) v endingBehind (output ++ outputBehind) (reports ++ reportsBehind) last := by
  obtain ⟨houtcome, rfl, rfl, rfl⟩ := h
  obtain ⟨rfl, rfl, rfl, rfl⟩ := hf
  -- The second part begins on the volume that the first one leaves.
  have hrun := Plan.runFrom_bind serve v p f
  rw [houtcome] at hrun
  constructor
  · rw [hrun]
  · rw [hrun]
    exact printed_append _ _
  · rw [hrun]
    exact reported_append _ _
  · rw [hrun]

/-- A part that prints and reports nothing behind one that may. -/
theorem Ends.bind_quiet {f : α → Steps β} {a : α} {endingBehind : Except Failure β}
    (h : Ends p v (.ok a) output reports w) (hf : Ends (f a) w endingBehind [] [] last) :
    Ends (p >>= f) v endingBehind output reports last := by
  have hbind := h.bind hf
  rw [List.append_nil output, List.append_nil reports] at hbind
  exact hbind

/-! ### Diagnostics -/

/-- The lines of the diagnostics that matter enough, in their order. -/
def noteLines (level : Level) (ds : List Diagnostic) : Text :=
  (ds.filter fun d => level.rank ≤ d.level.rank).flatMap noteLine

/-- The line of the first diagnostic, if it has one, comes before the others. -/
theorem noteLines_cons (level : Level) (d : Diagnostic) (ds : List Diagnostic) :
    noteLines level (d :: ds) = noteLines level [d] ++ noteLines level ds := by
  unfold noteLines
  by_cases h : level.rank ≤ d.level.rank <;> simp [h]

/-- Noting a diagnostic reports its line or does nothing. -/
theorem ends_note (level : Level) (d : Diagnostic) (v : Volume) :
    Ends (note level d) v (.ok ()) [] (noteLines level [d]) v := by
  unfold note noteLines
  split
  · rename_i h
    simpa [h] using ends_report (noteLine d) v
  · rename_i h
    simpa [h] using ends_done () v

/-- Noting a list of diagnostics reports their lines. -/
theorem ends_noteAll (level : Level) (ds : List Diagnostic) (v : Volume) :
    Ends (noteAll level ds) v (.ok ()) [] (noteLines level ds) v := by
  induction ds with
  | nil => exact ends_done () v
  | cons d ds ih =>
      rw [noteLines_cons]
      exact (ends_note level d v).bind ih

/-! ### Requests -/

/-- A note is found among what was asked, in front of the other ones. -/
theorem notes_cons_note (d : Diagnostic) (asked : List Resolve.Query) :
    Resolve.notes (.note d :: asked) = d :: Resolve.notes asked := rfl

/-- Resolving a request ends as its resolution does, reports the diagnostics on the way to it,
prints nothing and changes no file. -/
theorem ends_consult (level : Level) (b : Bundle) (v : Volume) (p : Resolve.Steps α) :
    Ends (consult level b p) v ((p.run (Resolve.World.answer ⟨b, v⟩)).outcome.mapError .escape) []
      (noteLines level (Resolve.notes (p.run (Resolve.World.answer ⟨b, v⟩)).asked)) v := by
  -- The induction is on the plan. Its volume stays `v`, since nothing that it asks writes.
  induction p with
  | done a => exact ends_done a v
  | failed e => exact ends_failed (.escape e) v
  | ask q next ih =>
      cases q with
      | lookup name => exact ih (b.lookup name)
      | read path => exact (ih (v.read path)).ask_read
      | note d =>
          show Ends (note level d >>= fun _ => consult level b (next ())) v _ [] _ v
          rw [Plan.run_ask, notes_cons_note, noteLines_cons]
          exact (ends_note level d v).bind (ih ())

/-! ### Parts of the program -/

/-- Refusing to go on reports why, and ends with exit code 2. -/
theorem ends_refuse (what : Text) (v : Volume) :
    Ends (refuse what) v (.ok 2) [] ("Error: ".toList ++ what ++ "\n".toList) v :=
  (ends_report _ v).bind_quiet (ends_done 2 v)

/-- The bundle that the options name, on a volume: an empty one if they name none. -/
def bundleOf (v : Volume) (o : Options) : Except Bundle.LoadError (Noted Bundle) :=
  match textOf o.bundle with
  | none => .ok { value := .empty }
  | some directory => Bundle.ofFolder v (Path.ofText directory)

/-- Loading the bundle is silent. Its notes are for whoever goes on with it. -/
theorem ends_loadBundle (o : Options) (v : Volume) :
    Ends (loadBundle o) v (.ok (bundleOf v o)) [] [] v := by
  unfold loadBundle bundleOf
  cases textOf o.bundle with
  | none => exact ends_done _ v
  | some directory => exact (ends_list (Path.ofText directory) v).bind_quiet (ends_done _ v)

/-- Without a place to put it, the body is printed, and the program ends with exit code 0. -/
theorem ends_deliver_of_none {o : Options} (h : textOf o.output = none) (body : Bytes)
    (v : Volume) :
    Ends (deliver o body) v (.ok 0) body [] v := by
  unfold deliver
  rw [h]
  exact (ends_print body v).bind_quiet (ends_done 0 v)

section Deliver

variable {o : Options} {file : Text} {body : Bytes}

/-- A body that can be written to its place is, and nothing is printed. -/
theorem ends_deliver_of_write (h : textOf o.output = some file)
    (hwrite : v.write (Path.ofText file) body = .ok w) :
    Ends (deliver o body) v (.ok 0) [] [] w := by
  unfold deliver
  rw [h]
  exact (ends_write_of_ok hwrite).bind_quiet (ends_done 0 w)

/-- A body that cannot be written fails the program. This comes last, so the line of the resolution
has been reported. -/
theorem ends_deliver_of_refusal {reason : Refusal} (h : textOf o.output = some file)
    (hwrite : v.write (Path.ofText file) body = .error reason) :
    Ends (deliver o body) v (.error (.refused (Path.ofText file) reason)) [] [] v := by
  unfold deliver
  rw [h]
  exact (ends_write_of_error hwrite).bind_quiet (ends_failed _ v)

end Deliver

section Resolve

variable {o : Options} {level : Level} {b : Bundle} {c : Config} {r : Resolution}
  {code : Except Failure Nat}

/-- Without a body the exit code is 1. -/
theorem ends_conclude_of_body_eq_none (h : r.body = none) (v : Volume) :
    Ends (conclude o r) v (.ok 1) [] [] v := by
  unfold conclude
  rw [h]
  exact ends_done 1 v

/-- With a body, what is left is to deliver it. -/
theorem conclude_of_body_eq_some {body : Bytes} (h : r.body = some body) :
    conclude o r = deliver o body := by
  unfold conclude
  rw [h]

/-- What comes behind the line of a resolution depends on its body alone. In front of the line stand
those of the diagnostics. -/
theorem ends_resolveWith
    (hr : ((Resolve.resolve c o.url).run (Resolve.World.answer ⟨b, v⟩)).outcome = .ok r)
    (hrest : Ends (conclude o r) v code output [] last) :
    Ends (resolveWith level o b c) v code output
      (noteLines level
          (Resolve.notes ((Resolve.resolve c o.url).run (Resolve.World.answer ⟨b, v⟩)).asked)
        ++ outcomeLine r) last := by
  have hconsult := ends_consult level b v (Resolve.resolve c o.url)
  rw [hr] at hconsult
  have hline := (ends_report (outcomeLine r) v).bind (f := fun _ => conclude o r) hrest
  rw [List.append_nil (outcomeLine r)] at hline
  exact hconsult.bind hline

/-- A mount without a word fails before a configuration is made. -/
theorem ends_configure_of_wordless (h : o.mount = .wordless) :
    Ends (configure level o b) v (.error .wordlessMount) [] [] v := by
  unfold configure
  rw [h]
  exact ends_failed .wordlessMount v

/-- A configuration that cannot be made is refused with its message. -/
theorem ends_configure_of_error {mount : Text} {e : Config.Invalid} (hmount : o.mount = .word mount)
    (h : Config.make o.frontend mount Config.defaultReaders = .error e) :
    Ends (configure level o b) v (.ok 2) [] ("Error: ".toList ++ e.message ++ "\n".toList) v := by
  unfold configure
  simp only [hmount, h]
  exact ends_refuse e.message v

/-- A configuration that can be made is what the address is resolved with; what it had to report
comes first. -/
theorem ends_configure_of_ok {mount : Text} {config : Noted Config} (hmount : o.mount = .word mount)
    (h : Config.make o.frontend mount Config.defaultReaders = .ok config)
    (hrest : Ends (resolveWith level o b config.value) v code output reports last) :
    Ends (configure level o b) v code output (noteLines level config.notes ++ reports) last := by
  unfold configure
  simp only [hmount, h]
  exact (ends_noteAll level config.notes v).bind hrest

/-- A level without a word fails before anything is done. -/
theorem ends_resolve_of_level_eq_none (h : o.level = none) :
    Ends (resolve o) v (.error .wordlessLevel) [] [] v := by
  unfold resolve
  rw [h]
  exact ends_failed .wordlessLevel v

/-- A bundle that cannot be loaded is refused with its message. -/
theorem ends_resolve_of_error {e : Bundle.LoadError} (hlevel : o.level = some level)
    (h : bundleOf v o = .error e) :
    Ends (resolve o) v (.ok 2) [] ("Error: ".toList ++ e.message ++ "\n".toList) v := by
  have hload := ends_loadBundle o v
  rw [h] at hload
  unfold resolve
  rw [hlevel]
  exact hload.bind (ends_refuse e.message v)

/-- A bundle that can be loaded is what the rest goes on with. -/
theorem ends_resolve_of_ok {bundle : Noted Bundle} (hlevel : o.level = some level)
    (h : bundleOf v o = .ok bundle)
    (hrest : Ends (configure level o bundle.value) v code output reports last) :
    Ends (resolve o) v code output (noteLines level bundle.notes ++ reports) last := by
  have hload := ends_loadBundle o v
  rw [h] at hload
  unfold resolve
  rw [hlevel]
  exact hload.bind ((ends_noteAll level bundle.notes v).bind hrest)

end Resolve

end FrontendAssets.CommandLine
