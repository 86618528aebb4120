import FrontendAssets.Proofs.Text.LowercaseCut
import FrontendAssets.Proofs.Text.Segments

/-!
# `FrontendAssets.Proofs.Text.Lowercase`: slashes under lowercasing

Lowercasing moves no slash: the lowercase of a character holds a slash only if the character is one
(`slash_mem_lowerHere`), so the lowercase of a text with a slash in it is the lowercase of what
stands before, the slash, and the lowercase of what stands after
(`exists_lowerFrom_append_slash`). The final form of a sigma depends on its neighbours, but a slash
behind it counts as little as the end of the text.

The last sections are about texts whose lowercase is ASCII. Their characters need not be, as the
Kelvin sign shows, but none is added or lost (`length_lowerFrom_of_ascii`), and what is no letter
stands for itself (`mem_lowerFrom`). A word of ASCII letters in any letter case (`InAnyCase`) is the
plainest such text.
-/

set_option autoImplicit false

namespace FrontendAssets.Text

/-- Every small letter in the table stands beyond the slash. The rows are checked one by one, which
`key` carries over to the search. -/
theorem slash_lt_of_lowercaseIn {n m : Nat} (h : lowercaseIn n lowercaseRuns = some m) :
    '/'.toNat < m := by
  have hall : ∀ run ∈ lowercaseRuns, '/'.toNat < run.lower := by decide +kernel
  -- The search goes along the table, so the induction is on the part of it that is left.
  have key : ∀ runs : List CaseRun, (∀ run ∈ runs, '/'.toNat < run.lower) →
      lowercaseIn n runs = some m → '/'.toNat < m := by
    intro runs
    induction runs with
    | nil => intro _ hm; simp [lowercaseIn] at hm
    | cons run runs ih =>
        intro hruns hm
        have hrun := hruns run (List.mem_cons_self ..)
        rw [lowercaseIn] at hm
        split at hm
        · cases hm
        · split at hm
          · cases hm
            omega
          · exact ih (fun r hr => hruns r (List.mem_cons_of_mem _ hr)) hm
  exact key lowercaseRuns hall h

/-- No character but the slash has a slash in its lowercase. The four cases are those of the
definition: ASCII, the capital I with a dot, the table, and everything else. -/
theorem slash_mem_lowerChar {c : Char} (h : '/' ∈ lowerChar c) : c = '/' := by
  unfold lowerChar at h
  split at h
  · -- The 128 characters of ASCII are checked one by one.
    rename_i hascii
    have hall : ∀ n < 0x80, '/' = (Char.ofNat n).toLower → Char.ofNat n = '/' := by decide
    have hc := hall c.toNat hascii
    rw [Char.ofNat_toNat] at hc
    exact hc (List.mem_singleton.mp h)
  split at h
  · exact absurd h (by decide)
  split at h
  · rename_i m hm
    have hlt := slash_lt_of_lowercaseIn hm
    have he : '/' = Char.ofNat m := List.mem_singleton.mp h
    by_cases hvalid : m.isValidChar
    · have hnat : (Char.ofNat m).toNat = m := by
        rw [Char.ofNat, dif_pos hvalid]
        rfl
      rw [← he] at hnat
      omega
    · have hnull : Char.ofNat m = '\x00' := by
        rw [Char.ofNat, dif_neg hvalid]
        rfl
      rw [hnull] at he
      exact absurd he (by decide)
  · exact (List.mem_singleton.mp h).symm

/-- The same for a character among others. The two forms of a sigma hold no slash. -/
theorem slash_mem_lowerHere {afterCased : Bool} {c : Char} {rest : Text}
    (h : '/' ∈ lowerHere afterCased c rest) : c = '/' := by
  unfold lowerHere at h
  split at h
  · split at h
    · exact absurd h (by decide)
    · exact absurd h (by decide)
  · exact slash_mem_lowerChar h

/-- A slash is lowered to itself, whatever surrounds it. -/
theorem lowerHere_slash (afterCased : Bool) (rest : Text) : lowerHere afterCased '/' rest = ['/'] :=
  rfl

/-- Without a slash in the text there is none in its lowercase. -/
theorem slash_not_mem_lowerFrom {t : Text} (h : '/' ∉ t) (afterCased : Bool) :
    '/' ∉ lowerFrom afterCased t := by
  induction t generalizing afterCased with
  | nil => simp [lowerFrom]
  | cons c rest ih =>
      rw [lowerFrom_cons, List.mem_append]
      rintro (hm | hm)
      · exact h (by simp [slash_mem_lowerHere hm])
      · exact ih (fun hr => h (List.mem_cons_of_mem _ hr)) _ hm

/-- What stands before a slash is lowered as if nothing came after it: no word goes on with a slash.
What comes after it is lowered in a state that depends on what stood before, and callers need not
know in which. -/
theorem exists_lowerFrom_append_slash (before after : Text) (afterCased : Bool) :
    ∃ cased : Bool, lowerFrom afterCased (before ++ '/' :: after)
      = lowerFrom afterCased before ++ '/' :: lowerFrom cased after := by
  have hend : startsCased ('/' :: after) = false := rfl
  have hbefore : lowerBefore ('/' :: after) afterCased before = lowerFrom afterCased before :=
    (lowerBefore_eq_iff _ _ _).mpr (by rw [hend, Bool.and_false])
  refine ⟨casedBehind (before.foldl casedBehind afterCased) '/', ?_⟩
  rw [lowerFrom_append, hbefore, lowerFrom_cons, lowerHere_slash]
  rfl

/-- The first slash in the lowercase of a text comes from the first one in the text. This is what
makes it safe to compare lowered texts and then cut the texts themselves by counting: the cut is at
a slash on both sides. -/
theorem exists_eq_append_slash_of_lower {t before after : Text} (hbefore : '/' ∉ before)
    (h : lower t = before ++ '/' :: after) :
    ∃ first rest : Text, t = first ++ '/' :: rest ∧ '/' ∉ first ∧ lower first = before
      ∧ ∃ cased : Bool, lowerFrom cased rest = after := by
  -- Lowercasing makes no slashes, so the text has one where its lowercase has.
  have hslash : '/' ∈ t := by
    apply Decidable.byContradiction
    intro hno
    have hlow : '/' ∉ lower t := slash_not_mem_lowerFrom hno false
    rw [h] at hlow
    exact hlow (by simp)
  obtain ⟨first, rest, rfl, hfirst⟩ := List.eq_append_cons_of_mem hslash
  obtain ⟨cased, heq⟩ := exists_lowerFrom_append_slash first rest false
  rw [lower, heq] at h
  -- Both sides are cut at their first slash.
  have hcut := congrArg (cut '/') h
  rw [cut_append_cons (slash_not_mem_lowerFrom hfirst false), cut_append_cons hbefore] at hcut
  have hrest := Option.some.inj (congrArg Prod.snd hcut)
  exact ⟨first, rest, rfl, hfirst, congrArg Prod.fst hcut, cased, hrest⟩

/-- A slash at the end of a text is at the end of its lowercase. -/
theorem lower_concat_slash (t : Text) : lower (t ++ ['/']) = lower t ++ ['/'] := by
  obtain ⟨cased, heq⟩ := exists_lowerFrom_append_slash t [] false
  exact heq

/-! ### Lowercase in ASCII -/

/-- An ASCII character that is no capital letter stays in the text. Digits, marks and small letters
are such characters. -/
theorem mem_lowerFrom {c : Char} {t : Text} (hascii : c.toNat < 0x80) (hlow : c.toLower = c)
    (h : c ∈ t) (afterCased : Bool) : c ∈ lowerFrom afterCased t := by
  induction t generalizing afterCased with
  | nil => exact absurd h List.not_mem_nil
  | cons d rest ih =>
      rw [lowerFrom_cons, List.mem_append]
      rcases List.mem_cons.mp h with rfl | hrest
      · have hsigma : c ≠ 'Σ' := by
          rintro rfl
          exact absurd hascii (by decide)
        have hhere : lowerHere afterCased c rest = [c] := by
          rw [lowerHere, if_neg hsigma, lowerChar, if_pos hascii, hlow]
        exact Or.inl (by simp [hhere])
      · exact Or.inr (ih hrest _)

/-- A capital I with a dot leaves the dot behind. The dot is no ASCII character, and this is how
such capitals are excluded below. -/
theorem dot_mem_lowerFrom {t : Text} (h : 'İ' ∈ t) (afterCased : Bool) :
    '\u0307' ∈ lowerFrom afterCased t := by
  induction t generalizing afterCased with
  | nil => exact absurd h List.not_mem_nil
  | cons c rest ih =>
      rw [lowerFrom_cons, List.mem_append]
      rcases List.mem_cons.mp h with rfl | hrest
      · have hhere : lowerHere afterCased 'İ' rest = ['i', '\u0307'] := rfl
        exact Or.inl (by simp [hhere])
      · exact Or.inr (ih hrest _)

/-- A text whose lowercase is ASCII has as many characters as its lowercase: a capital I with a dot
would leave the dot behind. The text itself need not be ASCII, as the Kelvin sign shows. -/
theorem length_lowerFrom_of_ascii {afterCased : Bool} {t : Text}
    (h : ∀ d ∈ lowerFrom afterCased t, d.toNat < 0x80) :
    (lowerFrom afterCased t).length = t.length := by
  have hdotted : 'İ' ∉ t := fun hm =>
    absurd (h '\u0307' (dot_mem_lowerFrom hm afterCased)) (by decide)
  rw [length_lowerFrom, lowerLength, List.count_eq_zero_of_not_mem hdotted, Nat.add_zero]

/-- A text whose lowercase is ASCII has as many characters as its lowercase. -/
theorem length_lower_of_ascii {t : Text} (h : ∀ d ∈ lower t, d.toNat < 0x80) :
    (lower t).length = t.length :=
  length_lowerFrom_of_ascii h

/-! ### Letter case -/

/-- A text that differs from an ASCII word in small letters at most in letter case. Schemes and
hosts of addresses are compared with words in this way. -/
def InAnyCase (word t : Text) : Prop := t.map Char.toLower = word

/-- A character whose small letter is a letter of ASCII is one itself. -/
theorem isAlpha_of_toLower {c : Char} (h : c.toLower.isAlpha = true) : c.isAlpha = true := by
  unfold Char.toLower at h
  split at h
  · rename_i hupper
    have hcapital : c.isUpper = true := decide_eq_true hupper
    show (c.isUpper || c.isLower) = true
    rw [hcapital, Bool.true_or]
  · exact h

/-- A word of letters consists of letters in any letter case. -/
theorem InAnyCase.isAlpha_of_mem {word t : Text} (h : InAnyCase word t)
    (hword : word.all Char.isAlpha = true) : ∀ c ∈ t, c.isAlpha = true := by
  intro c hc
  have hlow : c.toLower ∈ word := h ▸ List.mem_map_of_mem hc
  exact isAlpha_of_toLower (List.all_eq_true.mp hword _ hlow)

end FrontendAssets.Text
