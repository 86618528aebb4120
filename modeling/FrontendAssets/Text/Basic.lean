/-!
# `FrontendAssets.Text.Basic`: text as a list of characters

`Text` is the type of every name, path, address and message in the library, and `Bytes` the type
of every payload. The operations here cut a text at a character and put pieces together again.
`splitWhere` and `join` are inverse to one another on pieces free of the separator
(`join_splitOn`, `splitOn_join`); `through_append_after` says that a cut at the last separator
loses nothing.
-/

set_option autoImplicit false

namespace FrontendAssets

/-- Text as the list of its characters, so that lengths and cuts count characters. Halves of
surrogate pairs are no characters, so a text holds none: code points that stand alone in this way
are left out here, and `LooseText` has them where text from outside is going to be encoded. -/
abbrev Text := List Char

/-- A payload: what a file holds, what a resource is served as, and what goes over a connection.
Bytes are never taken for characters without naming the way they are written (`Utf8`, `Latin`). -/
abbrev Bytes := List UInt8

namespace Text

/-! ## Pieces between separators -/

/-- Put a character in front of the first piece. Splitting works from the end of a text to its
beginning, and this is its step for a character that separates nothing. -/
def consHead (c : Char) : List Text → List Text
  | [] => [[c]]
  | piece :: pieces => (c :: piece) :: pieces

/-- The pieces between the characters that `separates` picks, empty ones included. So there is
always one piece more than there are separators, and an empty text has one empty piece. -/
def splitWhere (separates : Char → Bool) : Text → List Text
  | [] => [[]]
  | c :: rest =>
    if separates c then [] :: splitWhere separates rest
    else consHead c (splitWhere separates rest)

/-- The pieces between the occurrences of one character. Paths are split at slashes everywhere in
the library, and adjacent slashes show as empty pieces. -/
def splitOn (separator : Char) : Text → List Text :=
  splitWhere (· == separator)

/-- The pieces in order with a separator between neighbours. Joining no piece and joining one empty
piece both give the empty text, which is why `splitOn_join` asks for pieces. -/
def join (separator : Char) : List Text → Text
  | [] => []
  | [piece] => piece
  | piece :: next :: pieces => piece ++ separator :: join separator (next :: pieces)

/-- Texts in order with a longer separator between neighbours, as in lists that people read. Nothing
is ever split again that was joined in this way. -/
def joinWith (separator : Text) (pieces : List Text) : Text :=
  separator.intercalate pieces

/-! ## Cuts at one character -/

/-- The text before the first occurrence of `c`, and the text after it if there is one. Without an
occurrence the first component is the whole text, and the second says so. -/
def cut (c : Char) (t : Text) : Text × Option Text :=
  (t.takeWhile (· != c), (t.dropWhile (· != c)).tail?)

/-- Everything up to the last occurrence of `c`, that occurrence included. This is the part of a
path that a relative reference is resolved against. -/
def throughLast (c : Char) (t : Text) : Text :=
  (t.reverse.dropWhile (· != c)).reverse

/-- Everything after the last occurrence of `c`, or the whole text if there is none: of a path the
last segment, of an authority the host and the port. -/
def afterLast (c : Char) (t : Text) : Text :=
  (t.reverse.takeWhile (· != c)).reverse

/-- The text without the occurrences of `c` at its two ends. Occurrences in the middle stay, however
many stand side by side. -/
def trim (c : Char) (t : Text) : Text :=
  ((t.dropWhile (· == c)).reverse.dropWhile (· == c)).reverse

/-- Exchange every `old` for `new`. The length stays, so positions mean the same before and
after. -/
def exchange (old new : Char) (t : Text) : Text :=
  t.map fun c => if c = old then new else c

/-- The rest of `t` after `start`, if `t` starts with it. Letter case counts here, unlike in
`Request.startsWith`. -/
def dropStart? (start t : Text) : Option Text :=
  if start.isPrefixOf t then some (t.drop start.length) else none

/-! ## Laws of splitting and joining -/

/-- Splitting never gives nothing, so a first piece may always be taken. -/
theorem splitWhere_ne_nil (separates : Char → Bool) (t : Text) :
    splitWhere separates t ≠ [] := by
  cases t with
  | nil => simp [splitWhere]
  | cons c rest =>
      simp only [splitWhere]
      split
      · simp
      · cases splitWhere separates rest <;> simp [consHead]

/-- A character in front of the first piece is a character in front of the joined text. There may be
no piece at all, and then the character makes one. -/
theorem join_consHead (separator c : Char) (pieces : List Text) :
    join separator (consHead c pieces) = c :: join separator pieces := by
  match pieces with
  | [] => rfl
  | [_] => rfl
  | _ :: _ :: _ => rfl

/-- Joining the pieces of a text gives the text back. It needs no hypothesis, since empty pieces are
kept in splitting. -/
@[simp] theorem join_splitOn (separator : Char) (t : Text) :
    join separator (splitOn separator t) = t := by
  unfold splitOn
  induction t with
  | nil => rfl
  | cons c rest ih =>
      simp only [splitWhere]
      split
      · -- Here the first piece is empty, and joining puts the separator that was found back in
        -- front of the rest.
        rename_i h
        have h : c = separator := by simpa using h
        cases hs : splitWhere (· == separator) rest with
        | nil => exact absurd hs (splitWhere_ne_nil _ _)
        | cons piece pieces => rw [hs] at ih; simp [join, ih, h]
      · rw [join_consHead, ih]

/-- No piece holds a separator. The statement speaks of one character at a time, so that it serves
for any notion of a separator. -/
theorem separates_of_mem_splitWhere {separates : Char → Bool} {t piece : Text} {c : Char}
    (hp : piece ∈ splitWhere separates t) (hc : c ∈ piece) : separates c = false := by
  induction t generalizing piece with
  | nil => simp [splitWhere] at hp; simp [hp] at hc
  | cons d rest ih =>
      simp only [splitWhere] at hp
      split at hp
      · rcases List.mem_cons.mp hp with h | h
        · simp [h] at hc
        · exact ih h hc
      · rename_i hd
        -- A character that does not separate is put in front of the first piece of the rest.
        cases hs : splitWhere separates rest with
        | nil => exact absurd hs (splitWhere_ne_nil _ _)
        | cons first pieces =>
            rw [hs] at hp ih
            simp only [consHead, List.mem_cons] at hp
            rcases hp with h | h
            · subst h
              rcases List.mem_cons.mp hc with h | h
              · simpa [h] using hd
              · exact ih (List.mem_cons_self ..) h
            · exact ih (List.mem_cons_of_mem _ h) hc

/-- A text without a separator is one piece. With the next lemma it computes every splitting that a
proof needs. -/
theorem splitWhere_eq_singleton {separates : Char → Bool} {t : Text}
    (h : ∀ c ∈ t, separates c = false) : splitWhere separates t = [t] := by
  induction t with
  | nil => rfl
  | cons c rest ih =>
      simp only [splitWhere, h c (List.mem_cons_self ..), Bool.false_eq_true, ↓reduceIte,
        ih fun d hd => h d (List.mem_cons_of_mem _ hd), consHead]

/-- Splitting distributes over a separator: what stands before it is split as if nothing followed,
and what stands after as if nothing went before. -/
theorem splitWhere_append_cons {separates : Char → Bool} {c : Char} (hc : separates c = true)
    (s t : Text) :
    splitWhere separates (s ++ c :: t) = splitWhere separates s ++ splitWhere separates t := by
  induction s with
  | nil => simp [splitWhere, hc]
  | cons d rest ih =>
      simp only [List.cons_append, splitWhere]
      split
      · simp [ih]
      · rw [ih]
        cases hs : splitWhere separates rest with
        | nil => exact absurd hs (splitWhere_ne_nil _ _)
        | cons piece pieces => rfl

/-- Splitting takes joined pieces apart, if there are any and none holds the separator. Without
pieces the joined text would be empty, which splits into one empty piece. -/
theorem splitOn_join {separator : Char} {pieces : List Text} (hne : pieces ≠ [])
    (h : ∀ piece ∈ pieces, separator ∉ piece) :
    splitOn separator (join separator pieces) = pieces := by
  have clean : ∀ piece ∈ pieces, ∀ c ∈ piece, (c == separator) = false := by
    intro piece hp c hc
    simpa using fun (e : c = separator) => h piece hp (e ▸ hc)
  -- The induction is on the pieces, so the hypothesis is first put in the form that passes to the
  -- rest.
  clear h
  induction pieces with
  | nil => exact absurd rfl hne
  | cons piece pieces ih =>
      cases pieces with
      | nil =>
          exact splitWhere_eq_singleton (clean piece (List.mem_cons_self ..))
      | cons next pieces =>
          have ih := ih (by simp) fun p hp => clean p (List.mem_cons_of_mem _ hp)
          unfold splitOn at ih ⊢
          rw [join, splitWhere_append_cons (by simp), ih,
            splitWhere_eq_singleton (clean piece (List.mem_cons_self ..))]
          rfl

/-- Nothing is left exactly when everything passes. This is how a test for something that does not
pass is read off what is left. -/
theorem dropWhile_eq_nil_iff {p : Char → Bool} {t : Text} :
    t.dropWhile p = [] ↔ ∀ c ∈ t, p c = true := by
  induction t with
  | nil => simp
  | cons c rest ih =>
      rw [List.dropWhile_cons]
      by_cases hc : p c = true
      · simp [hc, ih]
      · simp [hc]

/-- A cut at the last occurrence of a character loses nothing, whether there is an occurrence or
not. -/
@[simp] theorem through_append_after (c : Char) (t : Text) :
    throughLast c t ++ afterLast c t = t := by
  rw [throughLast, afterLast, ← List.reverse_append, List.takeWhile_append_dropWhile,
    List.reverse_reverse]

end Text

end FrontendAssets
