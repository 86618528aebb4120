import FrontendAssets.Text.Decimal
import FrontendAssets.Text.Quoted

/-!
# `FrontendAssets.Files.Refusal`: why a file system refuses

A refusal is a cause. Its wording names the path as it was asked for, with the number and the text
that the system gives the cause. A path with a null character never reaches the system.
-/

set_option autoImplicit false

namespace FrontendAssets

/-- Why a file system refuses. These are the causes that following, reading, listing and writing can
meet in a tree of directories and regular files to which one has every right. -/
inductive Refusal where
  | missing
  /-- Something exists where a new directory should be. -/
  | occupied
  /-- A path goes on behind a regular file. -/
  | notFolder
  | isFolder
  | nameTooLong
  /-- The path holds a null character. -/
  | nullCharacter
  deriving DecidableEq, Repr

namespace Refusal

/-- The wording for a reader. The null character is the exception: it is found before the system is
asked, so there is no number, and the path is not shown. -/
def message (r : Refusal) (path : Text) : Text :=
  let numbered (n : Nat) (what : String) : Text :=
    "[Errno ".toList ++ Text.ofNat n ++ "] ".toList ++ what.toList ++ ": ".toList
      ++ Text.quoted path
  match r with
  | .missing => numbered 2 "No such file or directory"
  | .occupied => numbered 17 "File exists"
  | .notFolder => numbered 20 "Not a directory"
  | .isFolder => numbered 21 "Is a directory"
  | .nameTooLong => numbered 36 "File name too long"
  | .nullCharacter => "embedded null byte".toList

end Refusal

end FrontendAssets
