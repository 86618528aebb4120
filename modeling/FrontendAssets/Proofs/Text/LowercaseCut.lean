import FrontendAssets.Text.Lowercase

/-!
# `FrontendAssets.Proofs.Text.LowercaseCut`: the lowercase of a text that is cut in two

`lowerFrom` writes one character or two for each (`lowerHere`), and only the capital I with a dot
takes two, so the length of a lowercase is known beforehand (`length_lowerFrom`).

The lowercase of a whole text begins with that of its beginning, lowered with the rest in sight
(`lowerFrom_append`). By itself the beginning has as many characters in lowercase
(`length_lowerBefore`), but they may be others: a capital sigma at its end takes the final form, and
loses it again when the word goes on behind the cut. `lowerBefore_eq_iff` says that this is the only
difference. The proofs follow the recursion of `lowerFrom`, with what it remembers of the characters
before left open.
-/

set_option autoImplicit false

namespace FrontendAssets.Text

variable {s t : Text}

/-! ### One character -/

/-- What `lowerFrom` writes for one character, given whether a cased letter stands before it and
what stands after. Giving it a name is what lets the lemmas below speak of one step. -/
def lowerHere (afterCased : Bool) (c : Char) (rest : Text) : Text :=
  if c = 'Σ' then (if afterCased && !startsCased rest then ['ς'] else ['σ']) else lowerChar c

/-- Whether the next character stands after a cased letter. Case-ignorable characters pass on what
was there before them. -/
def casedBehind (afterCased : Bool) (c : Char) : Bool :=
  if isCaseIgnorable c then afterCased else isCased c

/-- The recursion of `lowerFrom` in terms of one step. It is true by definition, and all proofs
below go through it. -/
theorem lowerFrom_cons (afterCased : Bool) (c : Char) (rest : Text) :
    lowerFrom afterCased (c :: rest)
      = lowerHere afterCased c rest ++ lowerFrom (casedBehind afterCased c) rest := rfl

/-! ### Lengths -/

/-- The number of characters of a text in lowercase: a capital I with a dot becomes two, and every
other character one. -/
def lowerLength (t : Text) : Nat := t.length + t.count 'İ'

/-- The length counts one character after the other. -/
theorem lowerLength_cons (c : Char) (t : Text) :
    lowerLength (c :: t) = (if c = 'İ' then 2 else 1) + lowerLength t := by
  unfold lowerLength
  rw [List.length_cons, List.count_cons]
  by_cases hc : c = 'İ'
  · simp only [hc, beq_self_eq_true, if_true]
    omega
  · simp only [hc, beq_iff_eq, if_false]
    omega

/-- A character by itself becomes one character, but for the capital I with a dot. -/
theorem length_lowerChar (c : Char) : (lowerChar c).length = if c = 'İ' then 2 else 1 := by
  unfold lowerChar
  by_cases hc : c = 'İ'
  · subst hc
    rfl
  · rw [if_neg hc, if_neg hc]
    split
    · rfl
    · split <;> rfl

/-- A character among others becomes as many as by itself. The form of a sigma is one character
either way. -/
theorem length_lowerHere (afterCased : Bool) (c : Char) (rest : Text) :
    (lowerHere afterCased c rest).length = if c = 'İ' then 2 else 1 := by
  unfold lowerHere
  by_cases hsigma : c = 'Σ'
  · subst hsigma
    rw [if_pos rfl]
    split <;> rfl
  · rw [if_neg hsigma, length_lowerChar]

/-- The length of a lowercase depends neither on what stands before the text nor on the order of its
characters. -/
theorem length_lowerFrom (t : Text) (afterCased : Bool) :
    (lowerFrom afterCased t).length = lowerLength t := by
  induction t generalizing afterCased with
  | nil => rfl
  | cons c rest ih =>
      rw [lowerFrom_cons, List.length_append, length_lowerHere, ih, lowerLength_cons]

/-- The number of characters of the lowercase of a text is the sum over its characters. -/
theorem length_lower (t : Text) : (lower t).length = lowerLength t := length_lowerFrom t false

/-- Lowercasing leaves nothing only of nothing. -/
theorem eq_nil_of_lowerFrom {afterCased : Bool} (h : lowerFrom afterCased t = []) : t = [] := by
  have hlength := length_lowerFrom t afterCased
  rw [h, lowerLength, List.length_nil] at hlength
  exact List.eq_nil_of_length_eq_zero (by omega)

/-! ### The beginning of a text -/

/-- The lowercase of a text that goes on with `behind`. It differs from `lowerFrom` in what a sigma
sees, and in nothing else. -/
def lowerBefore (behind : Text) (afterCased : Bool) : Text → Text
  | [] => []
  | c :: rest =>
    lowerHere afterCased c (rest ++ behind) ++ lowerBefore behind (casedBehind afterCased c) rest

/-- The lowercase of a text is that of its beginning, with the rest in sight, and that of the rest.
The rest is lowered in the state in which the beginning leaves it. -/
theorem lowerFrom_append (s t : Text) (afterCased : Bool) :
    lowerFrom afterCased (s ++ t)
      = lowerBefore t afterCased s ++ lowerFrom (s.foldl casedBehind afterCased) t := by
  induction s generalizing afterCased with
  | nil => rfl
  | cons c rest ih =>
      rw [List.cons_append, lowerFrom_cons, ih, lowerBefore, List.append_assoc, List.foldl_cons]

/-- What comes behind a text has no influence on the length of its lowercase. -/
theorem length_lowerBefore (behind s : Text) (afterCased : Bool) :
    (lowerBefore behind afterCased s).length = lowerLength s := by
  induction s generalizing afterCased with
  | nil => rfl
  | cons c rest ih =>
      rw [lowerBefore, List.length_append, length_lowerHere, ih, lowerLength_cons]

/-- A text of the right length begins a lowercase if it is the lowercase of the beginning. Since
lengths are known beforehand, prefixes come down to equations. -/
theorem isPrefix_lower_append_iff {word : Text} (h : word.length = lowerLength s) :
    word <+: lower (s ++ t) ↔ word = lowerBefore t false s := by
  have hlength : word.length = (lowerBefore t false s).length := by rw [h, length_lowerBefore]
  rw [lower, lowerFrom_append]
  constructor
  · intro hprefix
    have hbefore : word <+: lowerBefore t false s :=
      List.prefix_of_prefix_length_le hprefix (List.prefix_append _ _) (Nat.le_of_eq hlength)
    exact hbefore.eq_of_length hlength
  · intro heq
    rw [heq]
    exact List.prefix_append _ _

/-! ### Capital sigmas in front of the cut -/

/-- Whether the last word of a text ends with a capital sigma: a cased letter stands before it,
perhaps in front of the text, and nothing but case-ignorable characters after it. Only such a text
can be lowered in another way when more text follows. -/
def endsAtSigma (afterCased : Bool) : Text → Bool
  | [] => false
  | c :: rest =>
    (c == 'Σ' && afterCased && rest.all isCaseIgnorable)
      || endsAtSigma (casedBehind afterCased c) rest

/-- Case-ignorable characters are passed over. -/
theorem startsCased_append_of_all (h : s.all isCaseIgnorable = true) (t : Text) :
    startsCased (s ++ t) = startsCased t := by
  unfold startsCased
  rw [List.dropWhile_append_of_pos fun c hc => List.all_eq_true.mp h c hc]

/-- Behind the first other character nothing counts. -/
theorem startsCased_append_of_not_all (h : s.all isCaseIgnorable = false) (t : Text) :
    startsCased (s ++ t) = startsCased s := by
  induction s with
  | nil => cases h
  | cons c rest ih =>
      unfold startsCased at ih ⊢
      rw [List.cons_append]
      by_cases hc : isCaseIgnorable c = true
      · rw [List.dropWhile_cons_of_pos hc, List.dropWhile_cons_of_pos hc]
        exact ih (by simpa [hc] using h)
      · rw [List.dropWhile_cons_of_neg hc, List.dropWhile_cons_of_neg hc]

/-- A character is lowered in another way with more text in sight only if it is a capital sigma that
would end a word, and the word goes on. -/
theorem lowerHere_append_eq_iff (afterCased : Bool) (c : Char) (s t : Text) :
    lowerHere afterCased c (s ++ t) = lowerHere afterCased c s
      ↔ (c == 'Σ' && afterCased && s.all isCaseIgnorable && startsCased t) = false := by
  by_cases hsigma : c = 'Σ'
  · subst hsigma
    cases hall : s.all isCaseIgnorable with
    -- Something in `s` decides already whether the word goes on, so `t` is out of sight.
    | false =>
        unfold lowerHere
        rw [startsCased_append_of_not_all hall]
        simp
    | true =>
        -- By itself `s` holds no letter, so without `t` the word ends here.
        have hnone : startsCased s = false := by
          have hend := startsCased_append_of_all hall []
          rwa [List.append_nil] at hend
        unfold lowerHere
        rw [startsCased_append_of_all hall, hnone]
        cases afterCased <;> cases startsCased t <;> decide
  · unfold lowerHere
    rw [if_neg hsigma, if_neg hsigma]
    simp [hsigma]

/-- A beginning is lowered in another way with the rest in sight exactly if it ends at a capital
sigma and the word goes on behind the cut. The induction is on the beginning, and its step is
`lowerHere_append_eq_iff`. -/
theorem lowerBefore_eq_iff (t s : Text) (afterCased : Bool) :
    lowerBefore t afterCased s = lowerFrom afterCased s
      ↔ (endsAtSigma afterCased s && startsCased t) = false := by
  induction s generalizing afterCased with
  | nil => simp [lowerBefore, lowerFrom, endsAtSigma]
  | cons c rest ih =>
      -- Both sides write as many characters for `c`, so they are compared piece by piece.
      have hlength : (lowerHere afterCased c (rest ++ t)).length
          = (lowerHere afterCased c rest).length := by
        rw [length_lowerHere, length_lowerHere]
      have hpieces : lowerBefore t afterCased (c :: rest) = lowerFrom afterCased (c :: rest)
          ↔ lowerHere afterCased c (rest ++ t) = lowerHere afterCased c rest
            ∧ lowerBefore t (casedBehind afterCased c) rest
              = lowerFrom (casedBehind afterCased c) rest := by
        rw [lowerBefore, lowerFrom_cons]
        exact ⟨fun h => List.append_inj h hlength, fun h => by rw [h.1, h.2]⟩
      rw [hpieces, lowerHere_append_eq_iff, ih, endsAtSigma, Bool.and_or_distrib_right,
        Bool.or_eq_false_iff]

end FrontendAssets.Text
