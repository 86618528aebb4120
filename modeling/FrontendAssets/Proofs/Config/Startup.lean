import FrontendAssets.Config.Startup
import FrontendAssets.Proofs.Arguments.Reading

/-!
# `FrontendAssets.Proofs.Config.Startup`: the frontend that a process is given

A process reads the switch for its frontend off a command line that holds many other things. Reading
judges every argument first and takes the switch and its value from what was judged. `scanFrontend`
is the plain way to say the same: it goes from left to right, keeps the last value, passes over what
does not concern the switch, and refuses a switch with nothing plain behind it.

Both agree as long as no lone divider makes words of what follows it (`lastValue_read`). `judged` is
what carries the proof, since the scan looks at one argument at a time and so does judging. One
value comes out differently. A divider attached to the switch is found by the scan and dropped by
the reading, and then the switch has no word (`frontendArgument_loses_divider`).

From there `frontendArgument_eq_scanFrontend_iff` follows the value into the configuration, where it
goes before the environment.
-/

set_option autoImplicit false

namespace FrontendAssets.Config

open Arguments

variable {t w value : Text} {arguments : List Text}

/-! ### The scan -/

/-- An argument that can stand behind the switch as its value: neither the switch itself nor
anything that looks like another one. -/
def isPlainArgument (t : Text) : Bool :=
  !(t == frontendSwitch || (frontendSwitch ++ ['=']).isPrefixOf t
    || (t.head? == some '-' && 1 < t.length && !t.contains ' ' && !isNegativeNumber t))

/-- The complaint about a switch without a value. It names the switch. -/
def missingFrontend : Fault := .missingWord [frontendSwitch]

/-- Look for the switch from left to right; `found` is the value so far. A later value replaces an
earlier one, and a switch without a value is a fault wherever it stands. -/
def scanFrontend (found : Option Text) : List Text → Except Fault (Option Text)
  | [] => .ok found
  | t :: rest =>
    match Text.dropStart? (frontendSwitch ++ ['=']) t with
    | some value => scanFrontend (some value) rest
    | none =>
      if t = frontendSwitch then
        match rest with
        | [] => .error missingFrontend
        | w :: rest =>
          if isPlainArgument w then scanFrontend (some w) rest else .error missingFrontend
      else scanFrontend found rest

/-! ### Judging -/

/-- The one switch of the grammar. It takes a word, and has no other name. -/
def soleSwitch : Switch Unit := ⟨(), [frontendSwitch], true⟩

/-- What an argument is for the scan, put in terms of the grammar. It is one case each for a switch
with its value, a switch alone, a word, and anything else. -/
def judged (t : Text) : Token Unit :=
  match Text.dropStart? (frontendSwitch ++ ['=']) t with
  | some value => .switch t soleSwitch frontendSwitch (some value)
  | none =>
    if t = frontendSwitch then .switch t soleSwitch frontendSwitch none
    else if isPlainArgument t then .word t
    else .unknown t

/-- The grammar names one switch. -/
theorem named_frontendGrammar : frontendGrammar.named = [(frontendSwitch, soleSwitch)] := rfl

/-- By this name the switch is found. -/
theorem find?_frontendGrammar : frontendGrammar.find? frontendSwitch = some soleSwitch := rfl

/-- By any other name nothing is found. -/
theorem find?_frontendGrammar_of_ne (h : t ≠ frontendSwitch) : frontendGrammar.find? t = none := by
  rw [Grammar.find?, named_frontendGrammar, Option.map_eq_none_iff, List.find?_eq_none]
  intro entry hentry he
  obtain rfl := List.mem_singleton.mp hentry
  have heq : frontendSwitch = t := by simpa using he
  exact h heq.symm

/-- What begins with the name and an equals sign has its value behind them. -/
theorem dropStart?_eq_some_iff :
    Text.dropStart? (frontendSwitch ++ ['=']) t = some value
      ↔ t = frontendSwitch ++ '=' :: value := by
  constructor
  · intro h
    rw [Text.eq_append_of_dropStart? h, List.append_assoc]
    rfl
  · rintro rfl
    rw [List.append_cons]
    exact Text.dropStart?_append _ _

/-- Nothing but its full name, alone or in front of an equals sign, means the switch. -/
theorem inFull?_frontendGrammar (hstart : Text.dropStart? (frontendSwitch ++ ['=']) t = none)
    (hne : t ≠ frontendSwitch) : Token.inFull? frontendGrammar t = none := by
  rw [Token.inFull?, find?_frontendGrammar_of_ne hne]
  rcases hcut : Text.cut '=' t with ⟨name, _ | attached⟩
  · rfl
  · have hname : name ≠ frontendSwitch := by
      rintro rfl
      have ht := Text.eq_append_of_cut (congrArg Prod.snd hcut)
      rw [hcut] at ht
      rw [dropStart?_eq_some_iff.mpr ht] at hstart
      cases hstart
    simp [find?_frontendGrammar_of_ne hname]

/-- Nothing that begins with a hyphen can mean the switch in any other way: the grammar has no
abbreviations, and a name with two hyphens is no short one. -/
theorem candidates_frontendGrammar (hhead : t.head? = some '-') (hlength : t.length ≠ 1) :
    Token.candidates frontendGrammar t = [] := by
  obtain ⟨rest, hname⟩ : ∃ rest, frontendSwitch = '-' :: '-' :: 'c' :: rest := ⟨_, rfl⟩
  obtain ⟨more, rfl⟩ := List.head?_eq_some_iff.mp hhead
  cases more with
  | nil => exact absurd rfl hlength
  | cons c more =>
      by_cases hc : c = '-'
      · -- Behind two hyphens only an abbreviation is left, and the grammar has none.
        subst hc
        rfl
      · unfold Token.candidates
        split
        · rename_i he
          simp only [List.cons.injEq] at he
          exact absurd he.2.1 hc
        · rw [named_frontendGrammar]
          simp [hname, Ne.symm hc, hc]

/-- What does not name the switch is plain unless it looks like another one. -/
theorem isPlainArgument_eq (hstart : Text.dropStart? (frontendSwitch ++ ['=']) t = none)
    (hne : t ≠ frontendSwitch) :
    isPlainArgument t
      = !(t.head? == some '-' && 1 < t.length && !t.contains ' ' && !isNegativeNumber t) := by
  rw [isPlainArgument, Text.dropStart?_eq_none_iff.mp hstart, beq_eq_false_iff_ne.mpr hne]
  rfl

/-- Each argument is judged for itself, and as the scan takes it. The cases are those of
`judged`. -/
theorem ofWord_frontendGrammar (t : Text) :
    Token.ofWord frontendGrammar t = .ok (judged t) := by
  have hnames : ∀ entry ∈ frontendGrammar.named, '=' ∉ entry.1 := by
    rw [named_frontendGrammar]
    decide
  unfold judged
  cases hstart : Text.dropStart? (frontendSwitch ++ ['=']) t with
  | some value =>
      obtain rfl := dropStart?_eq_some_iff.mp hstart
      exact Token.ofWord_attached hnames rfl (by decide) find?_frontendGrammar value
  | none =>
      by_cases hne : t = frontendSwitch
      · subst hne
        rfl
      · show _ = Except.ok (if t = frontendSwitch then _ else _)
        rw [if_neg hne, isPlainArgument_eq hstart hne]
        by_cases hhead : t.head? = some '-'
        · -- A lone hyphen is a word for both.
          by_cases hlength : t.length = 1
          · rw [Token.ofWord_of_length_eq hhead (inFull?_frontendGrammar hstart hne) hlength]
            simp [hlength]
          · have hlong : 1 < t.length := by
              have hpos : 0 < t.length := List.length_pos_of_mem (List.mem_of_mem_head? hhead)
              omega
            rw [Token.ofWord_of_candidates_eq_nil hhead (inFull?_frontendGrammar hstart hne) hlength
              (candidates_frontendGrammar hhead hlength)]
            cases isNegativeNumber t <;> cases t.contains ' ' <;> simp [hhead, hlong]
        · rw [Token.ofWord_of_head?_ne hhead]
          simp [hhead]

/-- So is a whole command line without the divider. -/
theorem ofArguments_frontendGrammar (h : divider ∉ arguments) :
    Token.ofArguments frontendGrammar arguments = .ok (arguments.map judged) := by
  induction arguments with
  | nil => rfl
  | cons t arguments ih =>
      obtain ⟨ht, hrest⟩ := List.ne_and_not_mem_of_not_mem_cons h
      exact Token.ofArguments_cons ht.symm (ofWord_frontendGrammar t) (ih hrest)

/-! ### Reading -/

/-- The value of the switch after an event: the one of the event, if it is about the switch. -/
def valueBehind (found : Option Value) : Event Unit → Option Value
  | .option _ value => some value
  | _ => found

/-- The value of the switch at the end of a reading, given the value before it. -/
def lastValue (found : Option Value) (r : Reading Unit) : Except Fault (Option Value) :=
  match r.fault with
  | some fault => .error fault
  | none => .ok (r.events.foldl valueBehind found)

/-- Events in front of a reading give the value before it. -/
theorem lastValue_after (found : Option Value) (events : List (Event Unit)) (r : Reading Unit) :
    lastValue found (r.after events) = lastValue (events.foldl valueBehind found) r := by
  unfold lastValue Reading.after
  rw [List.foldl_append]

/-- The value of the switch is the last one of the reading. -/
theorem frontendArgument_eq_lastValue (h : divider ∉ arguments) :
    frontendArgument arguments
      = lastValue none (read frontendGrammar .closed (arguments.map judged)) := by
  have hread : frontendGrammar.readAll arguments
      = read frontendGrammar .closed (arguments.map judged) := by
    rw [Grammar.readAll, ofArguments_frontendGrammar h]
    rfl
  rw [frontendArgument, hread]
  rfl

/-- A switch with its value attached, whatever the value is. -/
theorem judged_of_dropStart?
    (h : Text.dropStart? (frontendSwitch ++ ['=']) t = some value) :
    judged t = .switch t soleSwitch frontendSwitch (some value) := by
  rw [judged, h]

/-- The switch alone, whose value has to stand behind it. -/
theorem judged_frontendSwitch :
    judged frontendSwitch = .switch frontendSwitch soleSwitch frontendSwitch none := rfl

/-- A plain argument is a word, and no other one is. -/
theorem judged_eq_word_iff : judged t = .word w ↔ t = w ∧ isPlainArgument t = true := by
  unfold judged
  cases hstart : Text.dropStart? (frontendSwitch ++ ['=']) t with
  | some value =>
      -- With a value attached an argument is not plain, so neither side holds.
      have hprefix : (frontendSwitch ++ ['=']).isPrefixOf t = true :=
        List.isPrefixOf_iff_prefix.mpr ⟨value, (Text.eq_append_of_dropStart? hstart).symm⟩
      simp [isPlainArgument, hprefix]
  | none =>
      by_cases hne : t = frontendSwitch
      · subst hne
        simp [isPlainArgument]
      · by_cases hplain : isPlainArgument t = true
        · simp [hne, hplain]
        · simp [hne, hplain]

/-- What does not name the switch is passed over. -/
theorem lastValue_cons_of_skipped (hstart : Text.dropStart? (frontendSwitch ++ ['=']) t = none)
    (hne : t ≠ frontendSwitch) (found : Option Value) (tokens : List (Token Unit)) :
    lastValue found (read frontendGrammar .closed (judged t :: tokens))
      = lastValue found (read frontendGrammar .closed tokens) := by
  rw [judged, hstart]
  show lastValue found
    (read frontendGrammar .closed ((if t = frontendSwitch then _ else _) :: _)) = _
  rw [if_neg hne]
  split
  · exact lastValue_after found [.leftover t] _
  · exact lastValue_after found [.leftover t] _

/-- The scan is the reading, but for what becomes of an attached divider. The induction follows the
scan, which takes two arguments at once where the switch has its value behind it. -/
theorem lastValue_read (h : divider ∉ arguments) (found : Option Text) :
    lastValue (found.map .ofAttached) (read frontendGrammar .closed (arguments.map judged))
      = (scanFrontend found arguments).map (Option.map .ofAttached) := by
  fun_induction scanFrontend found arguments with
  | case1 found => rfl
  | case2 found t rest value hstart ih =>
      obtain ⟨-, hrest⟩ := List.ne_and_not_mem_of_not_mem_cons h
      rw [List.map_cons, judged_of_dropStart? hstart, read_attached rfl, lastValue_after]
      exact ih hrest
  | case3 found hstart =>
      rw [List.map_cons, judged_frontendSwitch, read_missing rfl _ _ _ (by simp)]
      rfl
  | case4 found w rest hplain hstart ih =>
      obtain ⟨-, hbehind⟩ := List.ne_and_not_mem_of_not_mem_cons h
      obtain ⟨hw, hrest⟩ := List.ne_and_not_mem_of_not_mem_cons hbehind
      rw [List.map_cons, List.map_cons, judged_frontendSwitch,
        judged_eq_word_iff.mpr ⟨rfl, hplain⟩, read_apart rfl, lastValue_after]
      have hvalue : Value.ofAttached w = .word w := if_neg hw.symm
      rw [← ih hrest, Option.map_some, hvalue]
      rfl
  | case5 found w rest hplain hstart =>
      -- What is not plain is judged to be no word, so the switch lacks one.
      have hno : ∀ x more, judged w :: rest.map judged ≠ .word x :: more := by
        intro x more he
        exact hplain (judged_eq_word_iff.mp (List.cons.inj he).1).2
      rw [List.map_cons, List.map_cons, judged_frontendSwitch, read_missing rfl _ _ _ hno]
      rfl
  | case6 found t rest hstart hne ih =>
      obtain ⟨-, hrest⟩ := List.ne_and_not_mem_of_not_mem_cons h
      rw [List.map_cons, lastValue_cons_of_skipped hstart hne]
      exact ih hrest

/-- The value of the switch is that of the scan, but an attached divider leaves no word. This is the
one difference between the two. -/
theorem frontendArgument_eq (h : divider ∉ arguments) :
    frontendArgument arguments
      = (scanFrontend none arguments).map (Option.map .ofAttached) := by
  rw [frontendArgument_eq_lastValue h]
  exact lastValue_read h none

/-- The scan has one complaint, wherever on the command line it ends. -/
theorem eq_missingFrontend_of_scanFrontend {found : Option Text} {fault : Fault}
    (h : scanFrontend found arguments = .error fault) : fault = missingFrontend := by
  fun_induction scanFrontend found arguments with
  | case1 => cases h
  | case2 _ _ _ _ _ ih => exact ih h
  | case3 => exact (Except.error.inj h).symm
  | case4 _ _ _ _ _ ih => exact ih h
  | case5 => exact (Except.error.inj h).symm
  | case6 _ _ _ _ _ ih => exact ih h

/-! ### Configurations -/

/-- What is chosen for the frontend: the value of the switch, even an empty one, or else that of the
environment variable, unless it is empty. -/
def chosenFrontend (value : Option Text) (environment : List (Text × Text)) : Option Text :=
  value.or ((environment.lookup frontendVariable).filter (· ≠ []))

/-- What the program chooses is this, each value being a word by then. -/
theorem chosenFrontend_eq (value : Option Text) (environment : List (Text × Text)) :
    (value.map Value.word <|> frontendFromEnvironment environment)
      = (chosenFrontend value environment).map .word := by
  cases value with
  | some value => rfl
  | none =>
      show frontendFromEnvironment environment
        = ((environment.lookup frontendVariable).filter (· ≠ [])).map .word
      unfold frontendFromEnvironment
      rcases environment.lookup frontendVariable with _ | _ | ⟨c, rest⟩
      · rfl
      · rfl
      · rfl

/-- A configuration keeps what was given for its frontend. -/
theorem frontend_of_make {frontend : Option Value} {mount : Text} {readers : Int}
    {config : Noted Config} (h : make frontend mount readers = .ok config) :
    config.value.frontend = frontend := by
  unfold make at h
  split at h
  · cases h
  split at h
  · cases h
  split at h
  · cases h
  · cases h
    rfl

/-- A value other than the divider is read as a word. -/
theorem ofAttached_of_ne {value : Option Text} (h : value ≠ some divider) :
    value.map Value.ofAttached = value.map .word := by
  cases value with
  | none => rfl
  | some value =>
      have hvalue : value ≠ divider := fun he => h (congrArg some he)
      exact congrArg some (if_neg hvalue)

section Startup

variable {fault : Fault} {value : Option Text} (h : divider ∉ arguments)
  (environment : List (Text × Text)) (mount : Text) (readers : Int)

include h

/-- A command line is refused for one reason alone. -/
theorem eq_missingFrontend_of_frontendArgument
    (hfault : frontendArgument arguments = .error fault) : fault = missingFrontend := by
  rw [frontendArgument_eq h] at hfault
  cases hscan : scanFrontend none arguments with
  | error reason =>
      rw [hscan] at hfault
      cases hfault
      exact eq_missingFrontend_of_scanFrontend hscan
  | ok value =>
      rw [hscan] at hfault
      cases hfault

/-- Only an attached divider tells the value of the switch from what the scan finds. -/
theorem frontendArgument_eq_iff_ne_divider :
    frontendArgument arguments = (scanFrontend none arguments).map (Option.map .word)
      ↔ scanFrontend none arguments ≠ .ok (some divider) := by
  rw [frontendArgument_eq h]
  constructor
  · intro he hdivider
    rw [hdivider] at he
    cases he
  · intro hne
    cases hscan : scanFrontend none arguments with
    | error fault => rfl
    | ok value =>
        have hkept : value ≠ some divider := fun he => hne (hscan.trans (congrArg Except.ok he))
        exact congrArg Except.ok (ofAttached_of_ne hkept)

/-- What the scan refuses makes no configuration. -/
theorem ofStartup_of_scanFrontend_eq_error (hscan : scanFrontend none arguments = .error fault) :
    ofStartup arguments environment mount readers = .error (.arguments fault) := by
  rw [ofStartup, frontendArgument_eq h, hscan]
  rfl

/-- What it finds goes into the configuration, or else what the environment holds. -/
theorem ofStartup_of_scanFrontend_eq_ok (hscan : scanFrontend none arguments = .ok value)
    (hne : value ≠ some divider) :
    ofStartup arguments environment mount readers
      = make ((chosenFrontend value environment).map .word) mount readers := by
  rw [ofStartup, frontendArgument_eq h, hscan]
  show make (value.map .ofAttached <|> frontendFromEnvironment environment) mount readers = _
  rw [ofAttached_of_ne hne, chosenFrontend_eq]

end Startup

/-- On a command line without the divider, the value of the switch is what a scan from left to right
finds, exactly if this is not a divider attached to the switch. A command line is refused for one
reason alone. The value goes before the environment, and a configuration that is made of it has its
override from it. -/
theorem frontendArgument_eq_scanFrontend_iff (h : divider ∉ arguments) :
    (frontendArgument arguments = (scanFrontend none arguments).map (Option.map .word)
        ↔ scanFrontend none arguments ≠ .ok (some divider))
      ∧ (∀ fault, frontendArgument arguments = .error fault → fault = missingFrontend)
      ∧ ∀ environment mount readers,
        (∀ fault, scanFrontend none arguments = .error fault →
          ofStartup arguments environment mount readers = .error (.arguments fault))
        ∧ ∀ value, scanFrontend none arguments = .ok value → value ≠ some divider →
          let given := (chosenFrontend value environment).map Value.word
          ofStartup arguments environment mount readers = make given mount readers
            ∧ ∀ config, make given mount readers = .ok config →
              config.value.frontend = given
                ∧ config.value.override = (Override.ofGiven given).value := by
  refine ⟨frontendArgument_eq_iff_ne_divider h,
    fun fault => eq_missingFrontend_of_frontendArgument h,
    fun environment mount readers => ⟨fun fault => ?_, fun value hscan hne => ?_⟩⟩
  · exact ofStartup_of_scanFrontend_eq_error h environment mount readers
  · intro given
    refine ⟨ofStartup_of_scanFrontend_eq_ok h environment mount readers hscan hne, ?_⟩
    intro config hconfig
    -- The override is computed from what the configuration keeps, so it is the one of what was
    -- given.
    have hfrontend := frontend_of_make hconfig
    rw [Config.override, hfrontend]
    exact ⟨rfl, rfl⟩

/-- The last value is empty, and goes before the environment all the same. -/
theorem frontendArgument_eq_scanFrontend_empty :
    let arguments := [frontendSwitch, "a b".toList, "--custom-devtools=c".toList,
      frontendSwitch ++ ['=']]
    let environment := [(frontendVariable, "file:///opt/frontend".toList)]
    divider ∉ arguments
      ∧ frontendArgument arguments = .ok (some (.word []))
      ∧ ofStartup arguments environment defaultMount defaultReaders
        = make (some (.word [])) defaultMount defaultReaders := by
  intro arguments environment
  have hdivider : divider ∉ arguments := by decide
  have hscan : scanFrontend none arguments = .ok (some []) := by rfl
  obtain ⟨hiff, -, hstartup⟩ := frontendArgument_eq_scanFrontend_iff hdivider
  refine ⟨hdivider, ?_, ?_⟩
  · rw [hiff.mpr (by rw [hscan]; nofun), hscan]
    rfl
  · exact ((hstartup environment defaultMount defaultReaders).2 _ hscan nofun).1

/-- A divider attached to the switch leaves no word, where the scan finds the divider. The
environment does not count then either. -/
theorem frontendArgument_loses_divider :
    let arguments := [frontendSwitch ++ "=--".toList]
    let environment := [(frontendVariable, "file:///opt/frontend".toList)]
    divider ∉ arguments
      ∧ scanFrontend none arguments = .ok (some divider)
      ∧ frontendArgument arguments = .ok (some .wordless)
      ∧ frontendArgument arguments ≠ (scanFrontend none arguments).map (Option.map .word)
      ∧ ofStartup arguments environment defaultMount defaultReaders
        = make (some .wordless) defaultMount defaultReaders := by
  intro arguments environment
  have hargument : frontendArgument arguments = .ok (some .wordless) := by rfl
  have hscan : scanFrontend none arguments = .ok (some divider) := by rfl
  refine ⟨by decide, hscan, hargument, ?_, ?_⟩
  · rw [hargument, hscan]
    nofun
  · rw [ofStartup, hargument]
    rfl

end FrontendAssets.Config
