import FrontendAssets.CommandLine.Run
import FrontendAssets.Proofs.Arguments.Reading
import Mathlib.Data.List.Nodup

/-!
# `FrontendAssets.Proofs.CommandLine.Arrangement`: the order and the spelling of switches

Whoever resolves an address chooses the address and values for some of the switches. A command line
that says so lists these in some order, and attaches each value to its switch or puts it behind. All
such command lines are read alike (`ofArguments_commandLine`), so the program does the same on all
of them (`runOn_commandLine_eq`).

The proof follows the two readings. The overview takes everything behind the command as it is
written, and has only to find no fault in it. The page of the command then makes one event of each
item, in the order of the command line, and the options come out the same in any order because
different items set different fields (`put_comm`). The values are any texts that do not begin with a
hyphen: the empty text and texts with spaces or equals signs are among them.
-/

set_option autoImplicit false

namespace FrontendAssets.CommandLine

open Arguments

/-- A text that cannot be taken for a switch. It may be empty, and may hold spaces and equals
signs. -/
structure Word where
  /-- What it says. -/
  text : Text
  /-- A hyphen in front would make a switch of it, or a fault. -/
  head?_ne : text.head? ≠ some '-'
  deriving DecidableEq

/-- An address to resolve, and values for some of the switches. -/
structure Choice where
  url : Word
  bundle : Option Word := none
  frontend : Option Word := none
  mount : Option Word := none
  output : Option Word := none
  level : Option Level := none

/-- One thing that was chosen: the address, or the value of one of the switches. -/
inductive Item where
  | url (w : Word)
  | bundle (w : Word)
  | frontend (w : Word)
  | mount (w : Word)
  | output (w : Word)
  | level (l : Level)
  deriving DecidableEq

/-- An item, and whether its value is attached to its switch. An address has no switch. -/
structure Piece where
  item : Item
  attached : Bool
  deriving DecidableEq

/-- The name of a switch that begins with two hyphens. -/
def Key.longName (k : Key) : Text := k.names.getLastD []

namespace Item

/-- The switch that an item is given by; the address is the one item without. -/
def key? : Item → Option Key
  | .url _ => none
  | .bundle _ => some .bundle
  | .frontend _ => some .frontend
  | .mount _ => some .mount
  | .output _ => some .output
  | .level _ => some .level

/-- The value of an item as it is written on a command line. -/
def text : Item → Text
  | .url w | .bundle w | .frontend w | .mount w | .output w => w.text
  | .level l => l.name

/-- What is read of an item: the switch with its value, or the operand. -/
def event (i : Item) : Event Key :=
  match i.key? with
  | none => .operands [i.text]
  | some key => .option key (.word i.text)

end Item

namespace Choice

/-- Everything that was chosen, in an order of its own that is of no account. -/
def items (c : Choice) : List Item :=
  .url c.url :: ((c.bundle.map Item.bundle).toList ++ (c.frontend.map Item.frontend).toList
    ++ (c.mount.map Item.mount).toList ++ (c.output.map Item.output).toList
    ++ (c.level.map Item.level).toList)

/-- The options that say what was chosen, with the defaults of the program for the rest. -/
def options (c : Choice) : Options where
  url := c.url.text
  bundle := c.bundle.map fun w => .word w.text
  frontend := c.frontend.map fun w => .word w.text
  mount := .word ((c.mount.map Word.text).getD Config.defaultMount)
  output := c.output.map fun w => .word w.text
  level := some (c.level.getD .warning)

/-- The pieces are everything that was chosen, each item once, in any order and spelling. This is
the relation between a choice and the command lines that say it. -/
def IsArrangement (c : Choice) (ps : List Piece) : Prop := (ps.map Piece.item).Perm c.items

end Choice

namespace Piece

/-- How a piece is written: the value alone for the address, and otherwise the switch and the value,
in one argument or in two. -/
def words (p : Piece) : List Text :=
  match p.item.key? with
  | none => [p.item.text]
  | some key =>
    if p.attached then [key.longName ++ '=' :: p.item.text] else [key.longName, p.item.text]

/-- What the words of a piece are judged to be. -/
def tokens (p : Piece) : List (Token Key) :=
  match p.item.key? with
  | none => [.word p.item.text]
  | some key =>
    if p.attached then
      [.switch (key.longName ++ '=' :: p.item.text) key.switch key.longName (some p.item.text)]
    else [.switch key.longName key.switch key.longName none, .word p.item.text]

end Piece

/-- The command line that resolves an address and gives the pieces in order. -/
def commandLine (ps : List Piece) : List Text := "resolve".toList :: ps.flatMap Piece.words

variable {c : Choice} {i : Item} {key : Key} {p : Piece} {ps qs : List Piece}

/-! ### Names and values -/

/-- The page of the command knows each switch by its long name. -/
theorem find?_longName (key : Key) :
    Page.resolve.grammar.find? key.longName = some key.switch := by
  cases key <;> rfl

/-- The long names begin with a hyphen, so they are looked up as switches. -/
theorem head?_longName (key : Key) : key.longName.head? = some '-' := by
  cases key <;> rfl

/-- They hold no equals sign, so the first one in an argument ends the name. -/
theorem equals_not_mem_longName (key : Key) : '=' ∉ key.longName := by
  cases key <;> decide

/-- None of them is the divider. -/
theorem longName_ne_divider (key : Key) : key.longName ≠ divider := by
  cases key <;> decide

/-- Nor is one with a value attached. -/
theorem longName_append_ne_divider (key : Key) (value : Text) :
    key.longName ++ '=' :: value ≠ divider := by
  intro h
  have hmem : '=' ∈ divider := h ▸ List.mem_append_right _ (List.mem_cons_self ..)
  exact absurd hmem (by decide)

namespace Item

/-- No value begins with a hyphen, those of the levels included. -/
theorem head?_text_ne (i : Item) : i.text.head? ≠ some '-' := by
  cases i with
  | level l => cases l <;> decide
  | _ w => exact w.head?_ne

/-- No value is the divider, which begins with a hyphen. -/
theorem text_ne_divider (i : Item) : i.text ≠ divider :=
  fun h => i.head?_text_ne (h ▸ rfl)

/-- A value that is attached is read as it is, since only the divider would not be. -/
theorem ofAttached_text (i : Item) : Value.ofAttached i.text = .word i.text :=
  if_neg i.text_ne_divider

/-- What gives an item takes a word. -/
theorem takesWord_of_key? (h : i.key? = some key) : key.switch.takesWord = true := by
  cases i <;> cases h <;> rfl

/-- No item is given by the switch that asks for help. -/
theorem key?_ne_help (i : Item) : i.key? ≠ some .help := by
  cases i <;> nofun

end Item

/-! ### The reading of the overview -/

/-- The overview knows none of the names behind which a value stands. -/
theorem overview_longName (hkey : key ≠ .help) :
    Token.inFull? Page.overview.grammar key.longName = none
      ∧ Token.candidates Page.overview.grammar key.longName = [] := by
  cases key with
  | help => exact absurd rfl hkey
  | _ => exact ⟨rfl, rfl⟩

/-- Nor does it know them with a value attached. -/
theorem overview_attached (hkey : key ≠ .help) (value : Text) :
    Token.inFull? Page.overview.grammar (key.longName ++ '=' :: value) = none
      ∧ Token.candidates Page.overview.grammar (key.longName ++ '=' :: value) = [] := by
  cases key with
  | help => exact absurd rfl hkey
  | _ => exact ⟨rfl, rfl⟩

/-- What looks like a switch and is none of the overview is no fault there. -/
theorem exists_ofWord_overview {w : Text} (hhead : w.head? = some '-') (hlength : w.length ≠ 1)
    (h : Token.inFull? Page.overview.grammar w = none
      ∧ Token.candidates Page.overview.grammar w = []) :
    ∃ token, Token.ofWord Page.overview.grammar w = .ok token := by
  rw [Token.ofWord_of_candidates_eq_nil hhead h.1 hlength h.2]
  split
  · exact ⟨.word w, rfl⟩
  · exact ⟨.unknown w, rfl⟩

namespace Piece

/-- The words of a piece are the value, the name, or both in one. -/
theorem eq_of_mem_words {w : Text} (hw : w ∈ p.words) :
    w = p.item.text ∨ ∃ key, p.item.key? = some key
      ∧ (w = key.longName ∨ w = key.longName ++ '=' :: p.item.text) := by
  unfold words at hw
  split at hw
  · exact Or.inl (List.mem_singleton.mp hw)
  · rename_i key hkey
    split at hw
    · exact Or.inr ⟨key, hkey, Or.inr (List.mem_singleton.mp hw)⟩
    · rcases List.mem_cons.mp hw with hname | htext
      · exact Or.inr ⟨key, hkey, Or.inl hname⟩
      · exact Or.inl (List.mem_singleton.mp htext)

/-- The overview finds no fault in any word of a piece. -/
theorem ofWord_overview {w : Text} (hw : w ∈ p.words) :
    w ≠ divider ∧ ∃ token, Token.ofWord Page.overview.grammar w = .ok token := by
  rcases eq_of_mem_words hw with rfl | ⟨key, hkey, hname⟩
  · exact ⟨p.item.text_ne_divider, _, Token.ofWord_of_head?_ne p.item.head?_text_ne⟩
  · -- The overview has a switch for help itself, and no item is given by it.
    have hne : key ≠ .help := fun h => p.item.key?_ne_help (h ▸ hkey)
    rcases hname with rfl | rfl
    · have hlength : key.longName.length ≠ 1 := by
        cases key <;> decide
      exact ⟨longName_ne_divider key,
        exists_ofWord_overview (head?_longName key) hlength (overview_longName hne)⟩
    · have hlength : (key.longName ++ '=' :: p.item.text).length ≠ 1 := by
        cases key <;> nofun
      have hhead : (key.longName ++ '=' :: p.item.text).head? = some '-' := by
        cases key <;> rfl
      exact ⟨longName_append_ne_divider key p.item.text,
        exists_ofWord_overview hhead hlength (overview_attached hne p.item.text)⟩

end Piece

/-- The overview hands the whole command line to the command. -/
theorem readAll_overview (ps : List Piece) :
    Page.overview.grammar.readAll (commandLine ps) = ⟨[.operands (commandLine ps)], none⟩ := by
  -- What the words are judged to be is lost again: a command takes what is behind it as written.
  obtain ⟨tokens, htokens⟩ : ∃ tokens,
      Token.ofArguments Page.overview.grammar (ps.flatMap Piece.words) = .ok tokens := by
    apply Token.exists_ofArguments
    intro w hw
    obtain ⟨p, -, hp⟩ := List.mem_flatMap.mp hw
    exact Piece.ofWord_overview hp
  exact readAll_remainder rfl (by decide) htokens

/-! ### The reading of the command -/

/-- The words of one piece are judged for themselves, whatever comes behind them. -/
theorem ofArguments_words {rest : List Text} {tokens : List (Token Key)}
    (h : Token.ofArguments Page.resolve.grammar rest = .ok tokens) (p : Piece) :
    Token.ofArguments Page.resolve.grammar (p.words ++ rest) = .ok (p.tokens ++ tokens) := by
  have htext := Token.ofWord_of_head?_ne (g := Page.resolve.grammar) p.item.head?_text_ne
  have hvalue := Token.ofArguments_cons p.item.text_ne_divider htext h
  unfold Piece.words Piece.tokens
  -- A value alone is the address; with a switch it is either an argument of its own or part of the
  -- switch's.
  cases p.item.key? with
  | none => exact hvalue
  | some key =>
      cases p.attached with
      | false =>
          exact Token.ofArguments_cons (longName_ne_divider key)
            (Token.ofWord_of_find? (head?_longName key) (find?_longName key)) hvalue
      | true =>
          have hnames : ∀ entry ∈ Page.resolve.grammar.named, '=' ∉ entry.1 := by decide
          exact Token.ofArguments_cons (longName_append_ne_divider key p.item.text)
            (Token.ofWord_attached hnames (head?_longName key) (equals_not_mem_longName key)
              (find?_longName key) p.item.text) h

/-- So the words of a command line are judged piece by piece. -/
theorem ofArguments_flatMap_words (ps : List Piece) :
    Token.ofArguments Page.resolve.grammar (ps.flatMap Piece.words)
      = .ok (ps.flatMap Piece.tokens) := by
  induction ps with
  | nil => rfl
  | cons p ps ih => exact ofArguments_words ih p

section Read

variable (g : Grammar Key)

/-- A switch with its value is one event, wherever it stands and however it is written. -/
theorem read_tokens_of_key? (slot : Slot) (h : p.item.key? = some key) (rest : List (Token Key)) :
    read g slot (p.tokens ++ rest)
      = (read g slot.behindSwitch rest).after (slot.flushed ++ [p.item.event]) := by
  have htakes := p.item.takesWord_of_key? h
  unfold Piece.tokens Item.event
  simp only [h]
  cases p.attached with
  | false => exact read_apart htakes slot _ _ _ rest
  | true =>
      rw [← p.item.ofAttached_text]
      exact read_attached htakes slot _ _ _ rest

/-- Switches with their values, where no operand is waiting: one event for each. -/
theorem read_flatMap_tokens_of_flushed (slot : Slot)
    (hslot : (slot.flushed : List (Event Key)) = [])
    (hps : none ∉ (ps.map Piece.item).map Item.key?) :
    read g slot (ps.flatMap Piece.tokens) = ⟨(ps.map Piece.item).map Item.event, none⟩ := by
  induction ps generalizing slot with
  | nil =>
      have hread : read g slot [] = ⟨slot.flushed, none⟩ := by
        cases slot <;> rfl
      rw [List.flatMap_nil, hread, hslot]
      rfl
  | cons p ps ih =>
      rw [List.map_cons, List.map_cons, List.mem_cons, not_or] at hps
      obtain ⟨key, hkey⟩ := Option.ne_none_iff_exists'.mp (Ne.symm hps.1)
      -- Behind a switch the slot has nothing to give out either.
      have hbehind : (slot.behindSwitch.flushed : List (Event Key)) = [] := by
        cases slot <;> rfl
      rw [List.flatMap_cons, read_tokens_of_key? g slot hkey, ih slot.behindSwitch hbehind hps.2,
        hslot]
      rfl

/-- Switches with their values, and one address among them at most. The operand waits until the
address comes, and then it is settled. -/
theorem read_flatMap_tokens (hps : ((ps.map Piece.item).map Item.key?).Nodup) :
    read g (.waiting .one) (ps.flatMap Piece.tokens)
      = ⟨(ps.map Piece.item).map Item.event, none⟩ := by
  induction ps with
  | nil => rfl
  | cons p ps ih =>
      rw [List.map_cons, List.map_cons, List.nodup_cons] at hps
      cases hkey : p.item.key? with
      | none =>
          -- This is the address, so only switches are left and the operand is settled.
          have hrest := read_flatMap_tokens_of_flushed g .settled rfl (hkey ▸ hps.1)
          have htokens : p.tokens = [.word p.item.text] := by rw [Piece.tokens, hkey]
          have hevent : p.item.event = .operands [p.item.text] := by rw [Item.event, hkey]
          rw [List.flatMap_cons, List.map_cons, List.map_cons, htokens, hevent]
          show (read g .settled (ps.flatMap Piece.tokens)).after _ = _
          rw [hrest]
          rfl
      | some key =>
          -- A switch leaves the operand waiting.
          rw [List.flatMap_cons, read_tokens_of_key? g _ hkey]
          show (read g (.waiting .one) (ps.flatMap Piece.tokens)).after _ = _
          rw [ih hps.2]
          rfl

end Read

/-- The page of the command reads one event for each item, in the order of the command line. -/
theorem readAll_resolve (hps : ((ps.map Piece.item).map Item.key?).Nodup) :
    Page.resolve.grammar.readAll (ps.flatMap Piece.words)
      = ⟨(ps.map Piece.item).map Item.event, none⟩ := by
  rw [Grammar.readAll, ofArguments_flatMap_words]
  exact read_flatMap_tokens Page.resolve.grammar hps

/-! ### Acting on what was read -/

/-- What an item adds to what has been read. -/
def Gathered.put (g : Gathered) : Item → Gathered
  | .url w => { g with operands := [w.text] }
  | .bundle w => { g with options.bundle := some (.word w.text) }
  | .frontend w => { g with options.frontend := some (.word w.text) }
  | .mount w => { g with options.mount := .word w.text }
  | .output w => { g with options.output := some (.word w.text) }
  | .level l => { g with options.level := some l }

/-- Acting on what was read of an item adds the item. -/
theorem act_event (page : Page) (g : Gathered) (i : Item) :
    act page g i.event = .ok (g.put i) := by
  cases i with
  | level l => cases l <;> rfl
  | _ w => rfl

/-- So acting on all events adds all items, one after the other. -/
theorem actAll_events (page : Page) (g : Gathered) (items : List Item) :
    actAll page g (items.map Item.event) = .ok (items.foldl Gathered.put g) := by
  induction items generalizing g with
  | nil => rfl
  | cons i items ih =>
      rw [List.map_cons, actAll, act_event]
      exact ih (g.put i)

/-- Items that are given by different switches set different fields. -/
theorem Gathered.put_comm {i j : Item} (h : i.key? ≠ j.key?) (g : Gathered) :
    (g.put i).put j = (g.put j).put i := by
  cases i <;> cases j <;> first | rfl | exact absurd rfl h

/-! ### Arrangements of one choice -/

namespace Choice

/-- No two items of a choice are given by the same switch. -/
theorem nodup_key?_items (c : Choice) : (c.items.map Item.key?).Nodup := by
  rcases c with ⟨_, _ | _, _ | _, _ | _, _ | _, _ | _⟩ <;> simp [items, Item.key?]

/-- What has been read at the end of a command line. -/
def gathered (c : Choice) : Gathered :=
  { options := { c.options with url := [] }, operands := [c.url.text] }

/-- Adding the items of a choice in their own order gives what was chosen. -/
theorem foldl_put_items (c : Choice) : c.items.foldl Gathered.put {} = c.gathered := by
  rcases c with ⟨_, _ | _, _ | _, _ | _, _ | _, _ | _⟩ <;> rfl

namespace IsArrangement

variable (h : c.IsArrangement ps)

include h

/-- No two pieces of an arrangement are given by the same switch: they are the items of the choice
in another order. -/
theorem nodup : ((ps.map Piece.item).map Item.key?).Nodup :=
  (h.map Item.key?).nodup_iff.mpr c.nodup_key?_items

/-- The order of the items does not matter. Adding two of them is the same either way, so adding all
of them is the same for every arrangement. -/
theorem foldl_put : (ps.map Piece.item).foldl Gathered.put {} = c.gathered := by
  rw [← c.foldl_put_items]
  refine List.Perm.foldl_eq' h ?_ ({} : Gathered)
  -- No switch is given twice, so any two items are equal or have different switches.
  intro i hi j hj g
  by_cases hij : i = j
  · rw [hij]
  · have hkey : i.key? ≠ j.key? := fun hkey =>
      hij (List.inj_on_of_nodup_map h.nodup hi hj hkey)
    exact Gathered.put_comm hkey g

/-- What is gathered from the words of an arrangement is the choice. -/
theorem gather_eq : gather .resolve (ps.flatMap Piece.words) = .ok c.gathered := by
  unfold gather
  rw [readAll_resolve h.nodup]
  show actAll .resolve {} ((ps.map Piece.item).map Item.event) >>= _ = _
  rw [actAll_events, h.foldl_put]
  rfl

/-- A command line that says what was chosen is read as what was chosen. -/
theorem ofArguments_commandLine :
    Invocation.ofArguments (commandLine ps) = .ok (.resolve c.options) := by
  have hcommand : Invocation.ofCommand "resolve".toList (ps.flatMap Piece.words)
      = .ok (.resolve c.options, []) := by
    have hlookup : commands.lookup "resolve".toList = some .resolve := by decide
    rw [Invocation.ofCommand, hlookup]
    show gather .resolve (ps.flatMap Piece.words) >>= _ = _
    rw [h.gather_eq]
    rfl
  unfold Invocation.ofArguments
  rw [readAll_overview]
  show Invocation.ofCommand "resolve".toList (ps.flatMap Piece.words) >>= _ = _
  rw [hcommand]
  rfl

end IsArrangement

end Choice

/-- The program knows of a command line only what is read of it. -/
theorem runOn_congr {arguments others : List Text}
    (h : Invocation.ofArguments arguments = Invocation.ofArguments others) (v : Volume) :
    runOn v arguments = runOn v others := by
  unfold runOn program
  rw [h]

/-- Command lines that give the same address and the same values do the same, in whatever order
they list them and however they write them. Each of them is read as that address with those values,
and none is refused. -/
theorem runOn_commandLine_eq (v : Volume) (hps : c.IsArrangement ps) (hqs : c.IsArrangement qs) :
    Invocation.ofArguments (commandLine ps) = .ok (.resolve c.options)
      ∧ runOn v (commandLine ps) = runOn v (commandLine qs) := by
  have hread := hps.ofArguments_commandLine
  exact ⟨hread, runOn_congr (hread.trans hqs.ofArguments_commandLine.symm) v⟩

/-- An empty value, and values with a space or an equals sign. -/
theorem runOn_commandLine_marks :
    let url : Word := ⟨"bundled/a b.js".toList, by decide⟩
    let bundle : Word := ⟨"fe=1".toList, by decide⟩
    let output : Word := ⟨[], by decide⟩
    let c : Choice := { url, bundle := some bundle, output := some output, level := some .info }
    let ps : List Piece :=
      [⟨.output output, true⟩, ⟨.bundle bundle, false⟩, ⟨.url url, false⟩, ⟨.level .info, true⟩]
    let qs : List Piece :=
      [⟨.level .info, false⟩, ⟨.url url, false⟩, ⟨.bundle bundle, true⟩, ⟨.output output, false⟩]
    let v : Volume := ⟨.folder "fe=1".toList (.file "a b.js".toList [77] .empty) .empty, []⟩
    commandLine ps
        = ["resolve", "--output=", "--bundle", "fe=1", "bundled/a b.js", "--log-level=info"].map
            String.toList
      ∧ commandLine qs
        = ["resolve", "--log-level", "info", "bundled/a b.js", "--bundle=fe=1", "--output", ""].map
            String.toList
      ∧ Invocation.ofArguments (commandLine ps) = .ok (.resolve c.options)
      ∧ runOn v (commandLine ps) = runOn v (commandLine qs)
      ∧ (runOn v (commandLine ps)).ending = .ok 0
      ∧ (runOn v (commandLine ps)).output = [77] := by
  intro url bundle output c ps qs v
  have hps : c.IsArrangement ps := by
    show List.Perm _ _
    decide
  have hqs : c.IsArrangement qs := by
    show List.Perm _ _
    decide
  obtain ⟨hread, hrun⟩ := runOn_commandLine_eq v hps hqs
  refine ⟨by decide, by decide, hread, hrun, ?_, ?_⟩ <;> decide +kernel

end FrontendAssets.CommandLine
