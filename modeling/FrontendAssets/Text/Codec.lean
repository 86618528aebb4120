import FrontendAssets.Text.Decimal
import FrontendAssets.Text.Loose
import FrontendAssets.Text.Quoted

/-!
# `FrontendAssets.Text.Codec`: code points without bytes

Message headers are written in Latin-1, which has one byte for each of the first 256 code points.
Bodies and escaped paths are written in UTF-8, which has bytes for every character and for no half
of a surrogate pair. Where a text holds a code point without bytes, nothing at all is written, and
the complaint tells where the first run of such code points stands (`Unencodable`).

Both codecs look for this run in the same way, `checked`, and differ in what `fits`.
`checked_isOk_iff` says for both of them which texts can be written. For UTF-8 this comes to an
equation (`toText_eq_ok_iff`): the loose texts that it can write are those that are texts.
-/

set_option autoImplicit false

namespace FrontendAssets

/-- A way to write code points as bytes. The two that the library uses have no bytes for some code
points, and differ in which ones these are. -/
inductive Codec where
  /-- One byte for each code point below 256. -/
  | latin
  /-- One to four bytes for each character. -/
  | utf8
  deriving DecidableEq, Repr

/-- The first run of code points for which a codec has no bytes: it begins with `first` at
`position`, counted in code points, and `further` more of them follow. This is all that the
complaint tells. -/
structure Unencodable where
  codec : Codec
  position : Nat
  first : CodePoint
  further : Nat
  deriving DecidableEq, Repr

namespace Codec

/-- The name of a codec, as complaints spell it. -/
def name : Codec → Text
  | .latin => "latin-1".toList
  | .utf8 => "utf-8".toList

/-- What is wrong with a code point for which a codec has no bytes. The wording is the codec's, and
does not depend on the code point. -/
def objection : Codec → Text
  | .latin => "ordinal not in range(256)".toList
  | .utf8 => "surrogates not allowed".toList

/-- Whether a codec has bytes for a code point. Latin-1 has them for a beginning of all code points,
and no half is among these; UTF-8 has them for exactly the characters. -/
def fits : Codec → CodePoint → Bool
  | .latin, p => p.toNat < 0x100
  | .utf8, .char _ => true
  | .utf8, .half _ => false

/-- The first run of code points in a text that have no bytes, if there is one. A run ends where the
next code point has bytes again, and later runs are not looked for. -/
def unencodable? (codec : Codec) (t : LooseText) : Option Unencodable :=
  match t.dropWhile codec.fits with
  | [] => none
  | p :: rest =>
    some ⟨codec, (t.takeWhile codec.fits).length, p,
      (rest.takeWhile fun q => !codec.fits q).length⟩

/-- What a text is written as, if it has bytes throughout, and otherwise the complaint. What is
written is given by the caller, which may compute it on all texts and need not say what it means on
those that are refused. -/
def checked {α : Type} (codec : Codec) (t : LooseText) (written : α) : Except Unencodable α :=
  match codec.unencodable? t with
  | none => .ok written
  | some run => .error run

end Codec

/-- Where the run stands. A run of one code point is shown, by the escape of its number; a longer
one is told by its first and its last position. -/
def Unencodable.message (run : Unencodable) : Text :=
  let what :=
    if run.further = 0 then
      "character '".toList ++ Text.codeEscape run.first.toNat ++ "' in position ".toList
        ++ Text.ofNat run.position
    else
      "characters in position ".toList ++ Text.ofNat run.position ++ "-".toList
        ++ Text.ofNat (run.position + run.further)
  "'".toList ++ run.codec.name ++ "' codec can't encode ".toList ++ what ++ ": ".toList
    ++ run.codec.objection

/-- The text that a loose text is. If it holds a half of a surrogate pair there is none, and the
complaint is that of UTF-8. This is the gate through which text from outside passes before it is
written or quoted. -/
def LooseText.toText (t : LooseText) : Except Unencodable Text :=
  Codec.utf8.checked t (t.filterMap CodePoint.char?)

/-! ## Laws -/

namespace Codec

variable {α : Type} {codec : Codec} {t : LooseText} {written : α}

/-- There is no complaint exactly about texts that have bytes throughout. -/
theorem unencodable?_eq_none_iff :
    codec.unencodable? t = none ↔ ∀ p ∈ t, codec.fits p = true := by
  have hnil : t.dropWhile codec.fits = [] ↔ ∀ p ∈ t, codec.fits p = true := by
    induction t with
    | nil => simp
    | cons p rest ih => by_cases hp : codec.fits p = true <;> simp [hp, ih]
  rw [← hnil, unencodable?]
  cases t.dropWhile codec.fits <;> simp

/-- A text that has bytes throughout is written as what the caller gave. -/
theorem checked_eq_ok (h : ∀ p ∈ t, codec.fits p = true) :
    codec.checked t written = .ok written := by
  rw [checked, unencodable?_eq_none_iff.mpr h]

/-- A text is written exactly if each of its code points has bytes. Whether it is written depends on
the text alone, not on what it is written as. -/
theorem checked_isOk_iff :
    (∃ bytes, codec.checked t written = .ok bytes) ↔ ∀ p ∈ t, codec.fits p = true := by
  constructor
  · rintro ⟨bytes, h⟩
    cases hrun : codec.unencodable? t with
    | none => exact unencodable?_eq_none_iff.mp hrun
    | some run =>
        rw [checked, hrun] at h
        cases h
  · exact fun h => ⟨written, checked_eq_ok h⟩

end Codec

namespace LooseText

/-- The loose texts that UTF-8 can write are the texts. In particular the text is determined, so
proofs may replace the loose text by it. -/
theorem toText_eq_ok_iff {t : LooseText} {s : Text} : t.toText = .ok s ↔ t = ofText s := by
  constructor
  · intro h
    have hfits := Codec.checked_isOk_iff.mp ⟨s, h⟩
    obtain rfl : t.filterMap CodePoint.char? = s :=
      Except.ok.inj ((Codec.checked_eq_ok hfits).symm.trans h)
    -- Where nothing is left out, the characters are the whole loose text.
    clear h
    induction t with
    | nil => rfl
    | cons p rest ih =>
        cases p with
        | char c =>
            have hrest := ih fun q hq => hfits q (List.mem_cons_of_mem _ hq)
            rw [List.filterMap_cons, CodePoint.char?, ofText_cons, ← hrest]
        | half n => cases hfits (.half n) (List.mem_cons_self ..)
  · rintro rfl
    have hfits : ∀ p ∈ ofText s, Codec.utf8.fits p = true := by
      intro p hp
      obtain ⟨c, -, rfl⟩ := List.mem_map.mp hp
      rfl
    rw [toText, Codec.checked_eq_ok hfits, filterMap_char?_ofText]

/-- A text passes as itself. -/
@[simp] theorem toText_ofText (t : Text) : (ofText t).toText = .ok t := toText_eq_ok_iff.mpr rfl

/-- A run of two halves, behind a character with two bytes: positions count code points. -/
example : toText [.char 'é', .half 0, .half 0x400, .char 'a', .half 1]
    = .error ⟨.utf8, 1, .half 0, 1⟩
    ∧ Unencodable.message ⟨.utf8, 1, .half 0, 1⟩
      = "'utf-8' codec can't encode characters in position 1-2: surrogates not allowed".toList :=
  ⟨rfl, by decide +kernel⟩

end LooseText

end FrontendAssets
