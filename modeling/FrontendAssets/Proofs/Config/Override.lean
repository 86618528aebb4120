import FrontendAssets.Config.Override
import FrontendAssets.Proofs.Path.FileUrl

/-!
# `FrontendAssets.Proofs.Config.Override`: directories as overrides

A directory becomes an override by its address, which is kept as it was written and read again for
each request. `ofText_toPath_rooted` says that nothing is lost on this way. Whatever the path of the
directory holds, escaping it makes one address that is a file override and leads back to this path.

The address is taken apart on both ways, once for its scheme and once for its path. What could go
wrong there is in front of the path: a scheme or a host in capitals, and slashes that a path begins
with and that must not announce another authority.
-/

set_option autoImplicit false

namespace FrontendAssets

variable {scheme host path url : Text}

/-- An address with the scheme of files is an override as it stands, and nothing is reported. -/
theorem Override.ofText_of_parse {parts : Reference} (h : Reference.parse url = .ok parts)
    (hscheme : parts.scheme = FileUrl.scheme) : Override.ofText url = { value := .file url } := by
  have hof : Override.schemeOf url = FileUrl.scheme := by
    rw [Override.schemeOf, h]
    exact hscheme
  have hne : url ≠ [] := by
    rintro rfl
    exact absurd hof (by decide)
  have hfile : FileUrl.scheme ≠ [] := by decide
  rw [Override.ofText, if_neg hne, hof, if_neg hfile, if_pos rfl]

/-- The address of a directory makes it the override. -/
theorem Override.value_ofText_ofDirectory {directory : Text} (h : directory.head? = some '/') :
    (Override.ofText (FileUrl.ofDirectory directory)).value
      = .file (FileUrl.ofDirectory directory) := by
  -- The address is taken apart with the scheme of files in front.
  rw [Override.ofText_of_parse (FileUrl.parse_ofDirectory h) rfl]

/-- A path that is written from the root down makes an override of its escaped text behind `file://`
or `file://localhost`, in any letter case, and the address leads back to the path. -/
theorem FileUrl.ofText_toPath_rooted (hpath : path.head? = some '/')
    (hscheme : Text.InAnyCase FileUrl.scheme scheme) (hhost : FileUrl.IsLocalHost host) :
    let url := scheme ++ "://".toList ++ host ++ Percent.encode ['/'] path
    Override.ofText url = { value := .file url } ∧ FileUrl.toPath url = .ok (Path.ofText path) := by
  intro url
  have hparse := FileUrl.parse_rooted hscheme hhost hpath
  exact ⟨Override.ofText_of_parse hparse rfl, FileUrl.toPath_rooted hscheme hhost hpath⟩

/-- Two slashes in front, marks that mean something in an address, and a line break at the end. -/
theorem FileUrl.ofText_toPath_rooted_marks :
    let path := "//My front/../50%#?;é\n".toList
    let url := "File://LocalHost//My%20front/../50%25%23%3F%3B%C3%A9%0A".toList
    path.head? = some '/' ∧ Text.InAnyCase FileUrl.scheme "File".toList
      ∧ FileUrl.IsLocalHost "LocalHost".toList
      ∧ Override.ofText url = { value := .file url }
      ∧ FileUrl.toPath url
        = .ok ⟨.double, ["My front".toList, "..".toList, "50%#?;é\n".toList]⟩ := by
  intro path url
  have hpath : path.head? = some '/' := rfl
  have hscheme : Text.InAnyCase FileUrl.scheme "File".toList := by rfl
  have hhost : FileUrl.IsLocalHost "LocalHost".toList := Or.inr (by rfl)
  have hurl : "File".toList ++ "://".toList ++ "LocalHost".toList ++ Percent.encode ['/'] path
      = url := by decide
  have hboth := FileUrl.ofText_toPath_rooted hpath hscheme hhost
  rw [hurl] at hboth
  exact ⟨hpath, hscheme, hhost, hboth⟩

end FrontendAssets
