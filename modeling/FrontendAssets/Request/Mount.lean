import FrontendAssets.Text.Lowercase

/-!
# `FrontendAssets.Request.Mount`: beginnings in any letter case

The mount and the serve markers are recognized whatever the letter case. As many characters as the
wanted beginning has are cut from the text and lowered on their own.
-/

set_option autoImplicit false

namespace FrontendAssets.Request

/-- Whether the first characters of `t`, as many as `head` has, are `head` in some letter case. The
cut comes first and lowercasing second, which matters where lowercasing changes the number of
characters. -/
def startsWith (t head : Text) : Bool :=
  Text.lower (t.take head.length) == Text.lower head

end FrontendAssets.Request
