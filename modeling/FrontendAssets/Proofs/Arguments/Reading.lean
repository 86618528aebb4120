import FrontendAssets.Arguments.Reading
import FrontendAssets.Proofs.Checks
import FrontendAssets.Proofs.Text.Segments

/-!
# `FrontendAssets.Proofs.Arguments.Reading`: how switches and words are read

Each argument is judged for itself first, and then the judged arguments are read. The lemmas here
follow both steps for the arguments that a grammar expects: words, switches that are named in full
with their word behind them or attached to them, and switches without a word. They hold of every
grammar, so a command line is read by its grammar's names alone.

Judging keeps the argument that was judged (`source_of_ofWord`). That is what a grammar relies on
that hands everything behind its first word to another one (`readAll_remainder`).
-/

set_option autoImplicit false

namespace FrontendAssets.Arguments

variable {K : Type} {g : Grammar K} {s : Switch K} {slot : Slot} {token : Token K}
  {tokens rest : List (Token K)} {w name attached : Text} {arguments : List Text}

/-! ### Judging -/

namespace Token

/-- What does not begin with a hyphen is a word, whatever the grammar is. -/
theorem ofWord_of_head?_ne (h : w.head? ≠ some '-') : ofWord g w = .ok (.word w) := by
  rw [ofWord, if_pos h]

/-- A switch that is named in full and has nothing attached. -/
theorem ofWord_of_find? (hhead : w.head? = some '-') (h : g.find? w = some s) :
    ofWord g w = .ok (.switch w s w none) := by
  have hfull : inFull? g w = some (.switch w s w none) := by
    rw [inFull?, h]
  rw [ofWord, if_neg (fun hne => hne hhead), hfull]

/-- A name without an equals sign is found only for what holds none. -/
theorem find?_of_equals_mem (hnames : ∀ entry ∈ g.named, '=' ∉ entry.1) (h : '=' ∈ w) :
    g.find? w = none := by
  rw [Grammar.find?, Option.map_eq_none_iff, List.find?_eq_none]
  intro entry hentry he
  have hname : entry.1 = w := by simpa using he
  exact hnames entry hentry (hname ▸ h)

/-- A switch that is named in full, with text attached to it. The name goes up to the first equals
sign, so the text may hold more of them. -/
theorem ofWord_attached (hnames : ∀ entry ∈ g.named, '=' ∉ entry.1)
    (hhead : name.head? = some '-') (hname : '=' ∉ name) (h : g.find? name = some s)
    (attached : Text) :
    ofWord g (name ++ '=' :: attached)
      = .ok (.switch (name ++ '=' :: attached) s name (some attached)) := by
  have hwhole : g.find? (name ++ '=' :: attached) = none :=
    find?_of_equals_mem hnames (by simp)
  have hfull : inFull? g (name ++ '=' :: attached)
      = some (.switch (name ++ '=' :: attached) s name (some attached)) := by
    rw [inFull?, hwhole, Text.cut_append_cons hname]
    simp [h]
  have hstart : (name ++ '=' :: attached).head? = some '-' := by
    obtain ⟨more, rfl⟩ := List.head?_eq_some_iff.mp hhead
    rfl
  rw [ofWord, if_neg (fun hne => hne hstart), hfull]

section NoSwitch

variable (hhead : w.head? = some '-') (hfull : inFull? g w = none)

include hhead hfull

/-- A lone hyphen is a word. -/
theorem ofWord_of_length_eq (hlength : w.length = 1) : ofWord g w = .ok (.word w) := by
  rw [ofWord, if_neg (fun hne => hne hhead), hfull]
  show (if w.length = 1 then _ else _) = _
  rw [if_pos hlength]

/-- An argument that cannot mean any switch is a word or is unknown. Negative numbers and texts with
a space are words. -/
theorem ofWord_of_candidates_eq_nil (hlength : w.length ≠ 1) (hcandidates : candidates g w = []) :
    ofWord g w
      = if isNegativeNumber w || w.contains ' ' then .ok (.word w) else .ok (.unknown w) := by
  rw [ofWord, if_neg (fun hne => hne hhead), hfull]
  show (if w.length = 1 then _ else _) = _
  rw [if_neg hlength, hcandidates]

end NoSwitch

/-- Whatever switch an argument may mean, it is kept as it was written. -/
theorem source_of_mem_candidates (h : token ∈ candidates g w) : token.source = w := by
  -- Whatever is put into the list of candidates carries the argument along.
  unfold candidates at h
  split at h
  · dsimp only at h
    split at h
    · obtain ⟨entry, -, rfl⟩ := List.mem_map.mp h
      rfl
    · exact absurd h List.not_mem_nil
  · obtain ⟨entry, -, hentry⟩ := List.mem_filterMap.mp h
    split at hentry
    · cases hentry
      rfl
    · split at hentry
      · cases hentry
        rfl
      · cases hentry

/-- So it is where it names a switch in full. -/
theorem source_of_inFull? (h : inFull? g w = some token) : token.source = w := by
  unfold inFull? at h
  split at h
  · cases h
    rfl
  · split at h
    · obtain ⟨s, -, rfl⟩ := Option.map_eq_some_iff.mp h
      rfl
    · cases h

/-- Judging an argument keeps it, on each of the ways it can be judged. -/
theorem source_of_ofWord (h : ofWord g w = .ok token) : token.source = w := by
  -- Each way of judging ends in a token that is made of the argument.
  unfold ofWord at h
  split at h
  · cases h
    rfl
  split at h
  · rename_i hfull
    cases h
    exact source_of_inFull? hfull
  split at h
  · cases h
    rfl
  split at h
  · rename_i hcandidates
    cases h
    exact source_of_mem_candidates (hcandidates ▸ List.mem_singleton_self _)
  · cases h
  · split at h
    · cases h
      rfl
    · cases h
      rfl

/-- One argument is judged, and then the others, up to the divider. -/
theorem ofArguments_cons (hw : w ≠ Arguments.divider) (htoken : ofWord g w = .ok token)
    (htokens : ofArguments g arguments = .ok tokens) :
    ofArguments g (w :: arguments) = .ok (token :: tokens) := by
  rw [ofArguments, if_neg hw, htoken, htokens]
  rfl

/-- A command line can be judged if each of its arguments can, and none is the divider. -/
theorem exists_ofArguments
    (h : ∀ w ∈ arguments, w ≠ Arguments.divider ∧ ∃ token, ofWord g w = .ok token) :
    ∃ tokens, ofArguments g arguments = .ok tokens := by
  induction arguments with
  | nil => exact ⟨[], rfl⟩
  | cons w arguments ih =>
      obtain ⟨⟨hw, token, htoken⟩, hrest⟩ := List.forall_mem_cons.mp h
      obtain ⟨tokens, htokens⟩ := ih hrest
      exact ⟨token :: tokens, ofArguments_cons hw htoken htokens⟩

/-- Judging a command line keeps its arguments: none is dropped, and each comes out as it was
written. -/
theorem map_source_of_ofArguments (h : ofArguments g arguments = .ok tokens) :
    tokens.map source = arguments := by
  induction arguments generalizing tokens with
  | nil =>
      cases h
      rfl
  | cons w arguments ih =>
      rw [ofArguments] at h
      -- Behind the divider nothing is judged, and everything is a word.
      by_cases hw : w = Arguments.divider
      · rw [if_pos hw] at h
        cases h
        rw [List.map_cons, List.map_map, hw]
        exact congrArg (Arguments.divider :: ·) (List.map_id arguments)
      · rw [if_neg hw] at h
        obtain ⟨token, htoken, h⟩ := Checks.bind_eq_ok_iff.mp h
        obtain ⟨more, hmore, h⟩ := Checks.bind_eq_ok_iff.mp h
        cases h
        rw [List.map_cons, source_of_ofWord htoken, ih hmore]

end Token

/-! ### Reading -/

/-- A switch that takes a word takes all that is attached to it, and leaves nothing for another
switch. -/
theorem unpack_of_takesWord (h : s.takesWord = true) (short : Bool) (attached : Text) :
    unpack g s short attached = .ok ([.option s.key (.ofAttached attached)], none) := by
  cases attached with
  | nil => rw [unpack, if_pos h]
  | cons c more => rw [unpack, if_pos h]

/-- A switch with its word attached is one event, behind those that had to wait for it. -/
theorem read_attached (h : s.takesWord = true) (slot : Slot) (source name attached : Text)
    (rest : List (Token K)) :
    read g slot (.switch source s name (some attached) :: rest)
      = (read g slot.behindSwitch rest).after
          (slot.flushed ++ [.option s.key (.ofAttached attached)]) := by
  cases slot <;> simp [read, switchEvents, unpack_of_takesWord h]

/-- A switch with its word behind it is one event too, with the same word. -/
theorem read_apart (h : s.takesWord = true) (slot : Slot) (source name w : Text)
    (rest : List (Token K)) :
    read g slot (.switch source s name none :: .word w :: rest)
      = (read g slot.behindSwitch rest).after (slot.flushed ++ [.option s.key (.word w)]) := by
  cases slot <;> simp [read, switchEvents, h]

/-- A switch that lacks its word ends the reading. -/
theorem read_missing (h : s.takesWord = true) (slot : Slot) (source name : Text)
    (hrest : ∀ w more, rest ≠ .word w :: more) :
    read g slot (.switch source s name none :: rest)
      = ⟨slot.flushed, some (.missingWord s.names)⟩ := by
  cases slot <;> cases rest <;> simp [read, switchEvents, h]

/-- A first word that takes everything behind it takes it as it was written. The rest has to be
judged all the same, so that a fault in it would be found. -/
theorem readAll_remainder (hoperand : g.operand = some .remainder) (hw : w.head? ≠ some '-')
    (h : Token.ofArguments g arguments = .ok tokens) :
    g.readAll (w :: arguments) = ⟨[.operands (w :: arguments)], none⟩ := by
  have hne : w ≠ divider := by
    rintro rfl
    exact hw rfl
  rw [Grammar.readAll, Token.ofArguments_cons hne (Token.ofWord_of_head?_ne hw) h, Grammar.slot,
    hoperand]
  simp only [read, Token.map_source_of_ofArguments h]

end FrontendAssets.Arguments
