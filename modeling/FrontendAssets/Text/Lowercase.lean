import FrontendAssets.Text.CaseTables

/-!
# `FrontendAssets.Text.Lowercase`: lowercase in every script

Lowercasing works on whole texts and may change their length: a capital I with a dot becomes an i
and a combining dot, and a capital sigma takes its final form at the end of a word. Such a word end
is a cased letter before the sigma and none after it, case-ignorable characters between them not
counted. `lower_of_ascii` says that on ASCII text nothing of this matters.
-/

set_option autoImplicit false

namespace FrontendAssets.Text

/-- Cased, and not among the characters that are skipped in looking for a word end. A character is
never both, so one look at it is enough. -/
def isCased (c : Char) : Bool := inRanges c.toNat casedRanges

/-- Whether a character is skipped in looking for the end of a word, as apostrophes and combining
marks are. -/
def isCaseIgnorable (c : Char) : Bool := inRanges c.toNat caseIgnorableRanges

/-- The lowercase of a character away from its neighbours. All characters but one have a single
character for it, and most have themselves. -/
def lowerChar (c : Char) : Text :=
  if c.toNat < 0x80 then [c.toLower]
  else if c = 'İ' then ['i', '\u0307']
  else
    match lowercaseIn c.toNat lowercaseRuns with
    | some n => [Char.ofNat n]
    | none => [c]

/-- Whether the first character that is not case-ignorable is cased. This is what a capital sigma in
front of the text asks. -/
def startsCased (t : Text) : Bool :=
  match t.dropWhile isCaseIgnorable with
  | [] => false
  | c :: _ => isCased c

/-- Lowercase of the rest of a text; `afterCased` says whether the nearest character before it that
is not case-ignorable is cased. Carrying this along lets the definition go through the text once,
from left to right. -/
def lowerFrom (afterCased : Bool) : Text → Text
  | [] => []
  | c :: rest =>
    let here :=
      if c = 'Σ' then (if afterCased && !startsCased rest then ['ς'] else ['σ'])
      else lowerChar c
    here ++ lowerFrom (if isCaseIgnorable c then afterCased else isCased c) rest

/-- The lowercase of a text. There is nothing in front of the text, so nothing cased is. -/
def lower (t : Text) : Text := lowerFrom false t

/-! ## Laws -/

/-- The cased characters are those of the table, all of them. -/
theorem isCased_iff (c : Char) :
    isCased c = true ↔ ∃ r ∈ casedRanges, r.1 ≤ c.toNat ∧ c.toNat ≤ r.2 :=
  inRanges_iff ascendsFrom_casedRanges

/-- The characters that are skipped are those of the table, all of them. -/
theorem isCaseIgnorable_iff (c : Char) :
    isCaseIgnorable c = true ↔ ∃ r ∈ caseIgnorableRanges, r.1 ≤ c.toNat ∧ c.toNat ≤ r.2 :=
  inRanges_iff ascendsFrom_caseIgnorableRanges

/-- On ASCII text each character is lowered for itself, whatever stands before it. The only
character that looks at its neighbours is the sigma. -/
theorem lowerFrom_of_ascii {t : Text} (h : ∀ c ∈ t, c.toNat < 0x80) (afterCased : Bool) :
    lowerFrom afterCased t = t.map Char.toLower := by
  induction t generalizing afterCased with
  | nil => rfl
  | cons c rest ih =>
      have hc : c.toNat < 0x80 := h c (List.mem_cons_self ..)
      have hsigma : c ≠ 'Σ' := by rintro rfl; exact absurd hc (by decide)
      simp only [lowerFrom, hsigma, ↓reduceIte, lowerChar, hc, List.map_cons, List.singleton_append]
      rw [ih fun d hd => h d (List.mem_cons_of_mem _ hd)]

/-- The lowercase of an ASCII text is that of its letters, and has the same length. -/
theorem lower_of_ascii {t : Text} (h : ∀ c ∈ t, c.toNat < 0x80) : lower t = t.map Char.toLower :=
  lowerFrom_of_ascii h false

end FrontendAssets.Text
