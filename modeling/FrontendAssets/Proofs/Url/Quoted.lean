import FrontendAssets.Proofs.Text.Segments
import FrontendAssets.Url.Percent

/-!
# `FrontendAssets.Proofs.Url.Quoted`: paths with escapes

An escaped text holds unreserved characters, percent signs, and what it held of the safe ones
(`mem_encode`). With the slash as the only safe character it consists of path characters
(`isPathChar_of_mem_encode`), so none of the delimiters of an address is among them. As long as the
slash is safe, the segments of an escaped path are the segments of the path, each escaped for itself
(`encode_join`), and cutting at a safe character can be done before or after (`cut_encode`). No
segment is lost in this, and none turns into a dot segment (`encode_injective`). An escape is longer
than what it stands for, so a text that does not grow holds nothing to escape
(`encode_eq_self_of_length_le`). And no escape begins another one, so one escaped text begins
another only if the texts do, also where different characters are safe in them
(`encode_isPrefix_iff`).
-/

set_option autoImplicit false

namespace FrontendAssets.Percent

open Text (cut join)

/-- The characters of escaped paths: unreserved ones, the slash between segments, and the percent
sign of escapes. -/
def isPathChar (c : Char) : Bool := isUnreserved c || c == '/' || c == '%'

variable {c d : Char} {safe t : Text} {pieces : List Text}

/-! ### Path characters -/

/-- No path character is a delimiter of another part of an address. -/
theorem ne_of_isPathChar (hc : isPathChar c = true) (hd : isPathChar d = false) : c ≠ d := by
  rintro rfl
  rw [hc] at hd
  cases hd

/-- Path characters are visible. -/
theorem lt_toNat_of_isPathChar (h : isPathChar c = true) : 0x20 < c.toNat := by
  -- The blanks are few, and none of them is a path character.
  have hblank : ∀ n ∈ List.range 0x21, isPathChar (Char.ofNat n) = false := by decide
  apply Decidable.byContradiction
  intro hlow
  have hno := hblank c.toNat (List.mem_range.mpr (by omega))
  rw [Char.ofNat_toNat, h] at hno
  cases hno

/-- What needs no escape anywhere needs none in a path. -/
theorem isPathChar_of_isUnreserved (h : isUnreserved c = true) : isPathChar c = true := by
  rw [isPathChar, h]
  rfl

/-- Letters and digits, as they are counted here, are ASCII. -/
theorem toNat_lt_of_isAlphanum (h : c.isAlphanum = true) : c.toNat < 0x80 := by
  -- Capitals, small letters and digits are three ranges, all of which end in ASCII.
  have hranges : ((decide ('A'.val ≤ c.val ∧ c.val ≤ 'Z'.val)
      || (decide ('a'.val ≤ c.val) && decide (c.val ≤ 'z'.val)))
      || (decide ('0'.val ≤ c.val) && decide (c.val ≤ '9'.val))) = true := h
  have hlast : c.val ≤ 'z'.val := by
    simp only [Bool.or_eq_true, Bool.and_eq_true, decide_eq_true_eq] at hranges
    rcases hranges with (hupper | hlower) | hdigit
    · exact UInt32.le_trans hupper.2 (by decide)
    · exact hlower.2
    · exact UInt32.le_trans hdigit.2 (by decide)
  exact Nat.lt_of_le_of_lt (UInt32.le_iff_toNat_le.mp hlast) (by decide)

/-- Unreserved characters are ASCII. -/
theorem toNat_lt_of_isUnreserved (h : isUnreserved c = true) : c.toNat < 0x80 := by
  simp only [isUnreserved, Bool.or_eq_true, beq_iff_eq] at h
  rcases h with (((hletter | rfl) | rfl) | rfl) | rfl
  · exact toNat_lt_of_isAlphanum hletter
  all_goals decide

/-- The digits of an escape are unreserved, so escaping a text a second time touches its percent
signs only. -/
theorem isUnreserved_hexUpper {n : Nat} (h : n < 16) : isUnreserved (Text.hexUpper n) = true := by
  have hall : ∀ m ∈ List.range 16, isUnreserved (Text.hexUpper m) = true := by decide
  exact hall n (List.mem_range.mpr h)

/-- An escape is a percent sign and two digits. -/
theorem mem_escape {b : UInt8} (h : c ∈ escape b) : c = '%' ∨ isUnreserved c = true := by
  have hb : b.toNat < 256 := b.toNat_lt
  simp only [escape, List.mem_cons, List.not_mem_nil, or_false] at h
  rcases h with rfl | rfl | rfl
  · exact Or.inl rfl
  · exact Or.inr (isUnreserved_hexUpper (by omega))
  · exact Or.inr (isUnreserved_hexUpper (by omega))

/-- What becomes of a character: itself, if it is kept, or escapes. -/
theorem mem_encodeChar (h : c ∈ encodeChar safe d) :
    c = d ∧ (isUnreserved d = true ∨ d ∈ safe) ∨ c = '%' ∨ isUnreserved c = true := by
  unfold encodeChar at h
  split at h
  · rename_i hkept
    rw [List.mem_singleton] at h
    rw [Bool.or_eq_true, List.contains_iff_mem] at hkept
    exact Or.inl ⟨h, hkept⟩
  · obtain ⟨b, -, hb⟩ := List.mem_flatMap.mp h
    exact Or.inr (mem_escape hb)

/-- The characters of an escaped text: unreserved ones, percent signs, and safe ones of the text
itself. -/
theorem mem_encode (h : c ∈ encode safe t) :
    isUnreserved c = true ∨ c = '%' ∨ c ∈ safe ∧ c ∈ t := by
  obtain ⟨d, hd, hc⟩ := List.mem_flatMap.mp h
  rcases mem_encodeChar hc with ⟨rfl, hu | hs⟩ | he | hu
  · exact Or.inl hu
  · exact Or.inr (Or.inr ⟨hs, hd⟩)
  · exact Or.inr (Or.inl he)
  · exact Or.inl hu

/-- What stands in a text that was escaped with the slash as its only safe character. -/
theorem isPathChar_of_mem_encode (h : c ∈ encode ['/'] t) : isPathChar c = true := by
  rcases mem_encode h with hu | rfl | ⟨hs, -⟩
  · exact isPathChar_of_isUnreserved hu
  · decide
  · rw [List.mem_singleton.mp hs]
    decide

/-- Escaping makes no new delimiters: what is neither unreserved nor a percent sign stands in the
escaped text only if it stood in the text. -/
theorem not_mem_encode (hu : isUnreserved c = false) (hp : c ≠ '%') (h : c ∉ t) :
    c ∉ encode safe t := by
  intro hm
  rcases mem_encode hm with hc | hc | ⟨-, hc⟩
  · rw [hu] at hc
    cases hc
  · exact hp hc
  · exact h hc

/-- A segment is still one segment when it is escaped. -/
theorem slash_not_mem_encode (h : '/' ∉ t) : '/' ∉ encode safe t :=
  not_mem_encode (by decide) (by decide) h

/-! ### Segments -/

/-- Texts are escaped character by character, so one behind the other is escaped so too. -/
theorem encode_append (safe s t : Text) :
    encode safe (s ++ t) = encode safe s ++ encode safe t :=
  List.flatMap_append

/-- A safe character stands for itself. -/
theorem encode_cons_of_mem (h : c ∈ safe) (t : Text) :
    encode safe (c :: t) = c :: encode safe t := by
  have hc : encodeChar safe c = [c] := by
    rw [encodeChar, List.contains_iff_mem.mpr h, Bool.or_true]
    rfl
  rw [encode, List.flatMap_cons, hc]
  rfl

/-- Unreserved characters stand for themselves, whatever is safe. -/
theorem encode_of_isUnreserved (safe : Text) (h : ∀ c ∈ t, isUnreserved c = true) :
    encode safe t = t := by
  induction t with
  | nil => rfl
  | cons c rest ih =>
      have hc : encodeChar safe c = [c] := by
        rw [encodeChar, h c (List.mem_cons_self ..)]
        rfl
      have hrest : ∀ d ∈ rest, isUnreserved d = true := fun d hd => h d (List.mem_cons_of_mem _ hd)
      rw [← List.singleton_append, encode_append, ih hrest, encode, List.flatMap_singleton, hc]

/-- The segments are escaped each for itself. This is what makes an escaped path a path again: the
segments can be told from it, and each is decoded by itself. -/
theorem encode_join (hsafe : '/' ∈ safe) (pieces : List Text) :
    encode safe (join '/' pieces) = join '/' (pieces.map (encode safe)) := by
  induction pieces with
  | nil => rfl
  | cons first more ih =>
      by_cases hmore : more = []
      · -- A single segment has no slash behind it.
        subst hmore
        rfl
      · have hmap : more.map (encode safe) ≠ [] := by simpa using hmore
        rw [Text.join_cons first hmore, List.map_cons, Text.join_cons _ hmap, encode_append,
          encode_cons_of_mem hsafe, ih]

/-- Different texts are escaped differently, since decoding tells them apart. The percent sign has
to be escaped for it: were it safe, a text with an escape in it and the text the escape stands for
would come out alike. -/
theorem encode_injective {s t : Text} (hsafe : '%' ∉ safe) (h : encode safe s = encode safe t) :
    s = t := by
  rw [← decode_encode hsafe s, h, decode_encode hsafe t]

/-- Nothing but the empty text is escaped to the empty text. -/
theorem encode_eq_nil_iff (hsafe : '%' ∉ safe) : encode safe t = [] ↔ t = [] := by
  constructor
  · exact fun he => encode_injective hsafe he
  · rintro rfl
    rfl

/-- Nothing but an unreserved text itself is escaped to it. So an escaped segment is a dot segment
only if the segment is. -/
theorem encode_eq_iff {s : Text} (hsafe : '%' ∉ safe) (hs : s.all isUnreserved = true) :
    encode safe t = s ↔ t = s := by
  have hchars : ∀ c ∈ s, isUnreserved c = true := List.all_eq_true.mp hs
  constructor
  · exact fun he => encode_injective hsafe (he.trans (encode_of_isUnreserved safe hchars).symm)
  · rintro rfl
    exact encode_of_isUnreserved safe hchars

/-- A text is cut at a safe character in the same place before and after escaping. -/
theorem cut_encode (hc : c ∈ safe) (hu : isUnreserved c = false) (hp : c ≠ '%') (t : Text) :
    cut c (encode safe t) = (encode safe (cut c t).1, (cut c t).2.map (encode safe)) := by
  by_cases hm : c ∈ t
  · obtain ⟨front, back, rfl, hfront⟩ := List.eq_append_cons_of_mem hm
    rw [Text.cut_append_cons hfront, encode_append, encode_cons_of_mem hc,
      Text.cut_append_cons (not_mem_encode hu hp hfront)]
    rfl
  · rw [Text.cut_of_not_mem hm, Text.cut_of_not_mem (not_mem_encode hu hp hm)]
    rfl

/-! ### Beginnings -/

/-- A character in two escaped texts that go on alike: it is kept in both or escaped in both, since
an escape begins with a percent sign, which is never kept. -/
theorem encodeChar_eq_of_append_eq {other s t : Text} (hsafe : '%' ∉ safe) (hother : '%' ∉ other)
    (h : encodeChar safe c ++ s = encodeChar other c ++ t) :
    encodeChar safe c = encodeChar other c := by
  obtain ⟨more, hescapes⟩ : ∃ more, (Utf8.encodeChar c).flatMap escape = '%' :: more := by
    obtain ⟨b, bytes, hbytes⟩ := List.exists_cons_of_ne_nil (Utf8.encodeChar_ne_nil c)
    exact ⟨_, by rw [hbytes, List.flatMap_cons]; rfl⟩
  unfold encodeChar at h ⊢
  rw [hescapes] at h ⊢
  -- If one of them keeps the character and the other escapes it, the first characters differ.
  by_cases hkept : (isUnreserved c || safe.contains c) = true
  · by_cases hkept' : (isUnreserved c || other.contains c) = true
    · rw [if_pos hkept, if_pos hkept']
    · rw [if_pos hkept, if_neg hkept'] at h
      exact absurd (List.cons.inj h).1 (ne_percent_of_kept hsafe hkept)
  · by_cases hkept' : (isUnreserved c || other.contains c) = true
    · rw [if_neg hkept, if_pos hkept'] at h
      exact absurd (List.cons.inj h).1.symm (ne_percent_of_kept hother hkept')
    · rw [if_neg hkept, if_neg hkept']

/-- Texts are escaped alike if their characters are. -/
theorem encode_congr {other : Text} (h : ∀ c ∈ t, encodeChar safe c = encodeChar other c) :
    encode safe t = encode other t := by
  rw [encode, encode, List.flatMap_def, List.flatMap_def, List.map_congr_left h]

/-- The same along a text: if two of its escaped forms, with more behind each, go on alike, each of
its characters is escaped alike in both. -/
theorem encodeChar_eq_of_encode_append_eq {other s t t' : Text} (hsafe : '%' ∉ safe)
    (hother : '%' ∉ other) (h : encode safe s ++ t = encode other s ++ t') :
    ∀ c ∈ s, encodeChar safe c = encodeChar other c := by
  induction s with
  | nil => exact fun _ hc => absurd hc List.not_mem_nil
  | cons d s ih =>
      rw [show encode safe (d :: s) = encodeChar safe d ++ encode safe s from rfl,
        show encode other (d :: s) = encodeChar other d ++ encode other s from rfl,
        List.append_assoc, List.append_assoc] at h
      have hd := encodeChar_eq_of_append_eq hsafe hother h
      rw [hd] at h
      exact List.forall_mem_cons.mpr ⟨hd, ih (List.append_cancel_left h)⟩

/-- Escaped texts begin alike exactly if the texts do and the beginning is escaped in the same way.
The second condition is what is lost where two parts of an address are escaped with different safe
characters. -/
theorem encode_isPrefix_iff {other s : Text} (hsafe : '%' ∉ safe) (hother : '%' ∉ other) :
    encode safe s <+: encode other t
      ↔ s <+: t ∧ ∀ c ∈ s, encodeChar safe c = encodeChar other c := by
  constructor
  · rintro ⟨rest, hrest⟩
    -- Decoding gives the beginning back, whatever stands behind it.
    have hdecoded := decode_encode_append hsafe s rest
    rw [hrest, decode_encode hother] at hdecoded
    -- What is left is that the same beginning, escaped in two ways, goes on alike.
    subst hdecoded
    rw [encode_append] at hrest
    exact ⟨⟨_, rfl⟩, encodeChar_eq_of_encode_append_eq hsafe hother hrest⟩
  · rintro ⟨⟨rest, rfl⟩, hchars⟩
    rw [encode_congr hchars, encode_append]
    exact List.prefix_append _ _

/-! ### Lengths -/

/-- A character that is not kept has at least two characters in its place. -/
theorem lt_length_encodeChar (h : ¬ (isUnreserved c || safe.contains c) = true) :
    1 < (encodeChar safe c).length := by
  obtain ⟨b, more, hbytes⟩ := List.exists_cons_of_ne_nil (Utf8.encodeChar_ne_nil c)
  rw [encodeChar, if_neg h, hbytes, List.flatMap_cons, List.length_append]
  have hescape : (escape b).length = 3 := rfl
  omega

/-- A character stands for itself exactly if it is kept: an escape in its place would be longer than
one character. -/
theorem encodeChar_eq_singleton_iff :
    encodeChar safe c = [c] ↔ (isUnreserved c || safe.contains c) = true := by
  constructor
  · intro h
    apply Decidable.byContradiction
    intro hno
    have hlength := lt_length_encodeChar hno
    rw [h] at hlength
    exact absurd hlength (by simp)
  · exact fun h => if_pos h

/-- A character is kept, or there are at least two characters in its place. -/
theorem encodeChar_eq_or_lt_length (safe : Text) (c : Char) :
    encodeChar safe c = [c] ∨ 1 < (encodeChar safe c).length := by
  by_cases h : (isUnreserved c || safe.contains c) = true
  · exact Or.inl (encodeChar_eq_singleton_iff.mpr h)
  · exact Or.inr (lt_length_encodeChar h)

/-- Escaping makes no text shorter, as each character has at least one in its place. -/
theorem length_le_length_encode (safe t : Text) : t.length ≤ (encode safe t).length := by
  induction t with
  | nil => exact Nat.zero_le _
  | cons c rest ih =>
      show rest.length + 1 ≤ (encodeChar safe c ++ encode safe rest).length
      rw [List.length_append]
      rcases encodeChar_eq_or_lt_length safe c with hc | hc
      · rw [hc, List.length_singleton]
        omega
      · omega

/-- A text that is no longer when it is escaped is not escaped at all. -/
theorem encode_eq_self_of_length_le (h : (encode safe t).length ≤ t.length) :
    encode safe t = t := by
  induction t with
  | nil => rfl
  | cons c rest ih =>
      have hwhole : encode safe (c :: rest) = encodeChar safe c ++ encode safe rest := rfl
      have hrest := length_le_length_encode safe rest
      rw [hwhole, List.length_append, List.length_cons] at h
      -- Each character has one in its place, so none of them has more.
      rcases encodeChar_eq_or_lt_length safe c with hc | hc
      · rw [hc, List.length_singleton] at h
        rw [hwhole, hc, ih (by omega), List.singleton_append]
      · omega

end FrontendAssets.Percent
