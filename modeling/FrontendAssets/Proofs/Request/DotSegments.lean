import FrontendAssets.Proofs.Path.Place
import FrontendAssets.Proofs.Request.CleanNames

/-!
# `FrontendAssets.Proofs.Request.DotSegments`: removing dot segments, one part after the other

`removeDotSegments` normalizes a rooted path and takes the root off again. Read from the left, it
enters the parts between slashes and backslashes (`cleanNames_eq_foldl_enter`): an idle part leads
nowhere, a double dot goes back by one name as long as there is one, and every other part is a name
that is kept as it is. The names that a beginning of a path leads to are all that matters to what
stands behind it (`cleanNames_append_slash`), so a beginning can be cleaned first.
-/

set_option autoImplicit false

namespace FrontendAssets.Request

open Text (splitOn join exchange)

/-- A character that ends a part of a decoded path. Both kinds of slash do, since backslashes are
exchanged first. -/
def isSeparator (c : Char) : Bool := c == '/' || c == '\\'

/-- The parts of a decoded path between slashes and backslashes, empty ones included. -/
def partsOf (path : Text) : List Text := Text.splitWhere isSeparator path

/-- With slashes for backslashes a path has the same parts. -/
theorem splitOn_exchange (path : Text) : splitOn '/' (exchange '\\' '/' path) = partsOf path := by
  unfold partsOf splitOn
  induction path with
  | nil => rfl
  | cons c rest ih =>
      have hcons : exchange '\\' '/' (c :: rest)
          = (if c = '\\' then '/' else c) :: exchange '\\' '/' rest := rfl
      by_cases hback : c = '\\'
      · subst hback
        rw [hcons, if_pos rfl, Text.splitWhere, Text.splitWhere, ih]
        rfl
      · have hsame : isSeparator c = (c == '/') := by simp [isSeparator, hback]
        rw [hcons, if_neg hback, Text.splitWhere, Text.splitWhere, ih, hsame]

/-- The clean names of a path are those that its parts lead to from the root. -/
theorem cleanNames_eq_foldl_enter (path : Text) :
    cleanNames path = (partsOf path).foldl Path.enter [] := by
  have hroot : Root.single ≠ .relative := by decide
  rw [cleanNames, splitOn_exchange, Path.foldl_enter_root hroot]

/-- Behind a slash the parts are entered from the clean names in front of it. -/
theorem cleanNames_append_slash (path rest : Text) :
    cleanNames (path ++ '/' :: rest) = (partsOf rest).foldl Path.enter (cleanNames path) := by
  have hparts : partsOf (path ++ '/' :: rest) = partsOf path ++ partsOf rest :=
    Text.splitWhere_append_cons (by decide) path rest
  rw [cleanNames_eq_foldl_enter, hparts, List.foldl_append, ← cleanNames_eq_foldl_enter]

/-- Removing dot segments leaves the names that the parts of a path lead to, with slashes between
them. Doing it again changes nothing, and neither does doing it first with a beginning of the path
in front of a slash. -/
theorem removeDotSegments_enters_parts (path : Text) :
    removeDotSegments path = join '/' ((partsOf path).foldl Path.enter [])
      ∧ removeDotSegments (removeDotSegments path) = removeDotSegments path
      ∧ ∀ rest : Text, removeDotSegments (path ++ '/' :: rest)
          = removeDotSegments (removeDotSegments path ++ '/' :: rest) := by
  refine ⟨?_, ?_, ?_⟩
  · rw [removeDotSegments_eq, cleanNames_eq_foldl_enter]
  · -- Both cleaned paths are told by their names, here and below.
    rw [removeDotSegments_eq_iff, cleanNames_removeDotSegments]
  · intro rest
    rw [removeDotSegments_eq_iff, cleanNames_append_slash, cleanNames_append_slash,
      cleanNames_removeDotSegments]

/-- Three dots and an encoded double dot are names like any other. -/
example : removeDotSegments "/a\\../../.../b/./%2e%2e//".toList = ".../b/%2e%2e".toList := by decide

end FrontendAssets.Request
