import FrontendAssets.Path.FileUrl
import FrontendAssets.Proofs.Checks
import FrontendAssets.Proofs.Path.Normal
import FrontendAssets.Proofs.Url.Decorated

/-!
# `FrontendAssets.Proofs.Path.FileUrl`: which paths `file` addresses name

`toPath_eq_ok_iff` is what an address has to be for a path to come out, and which path that is.
Every rooted path comes out of some address: the one with its escaped text behind two slashes
(`toPath_ofDirectory`). The scheme and the name of this machine may be written there in any letter
case (`toPath_rooted`).
-/

set_option autoImplicit false

namespace FrontendAssets.FileUrl

variable {url : Text} {base : Path}

/-- An address names a path if it is well-formed, has the scheme, belongs to this machine and has a
path, which is then decoded. Query and fragment may be anything. -/
theorem toPath_eq_ok_iff :
    toPath url = .ok base
      ↔ ∃ parts : Reference, Reference.parse url = .ok parts ∧ parts.scheme = scheme
        ∧ isLocal parts.authority = true ∧ parts.path ≠ []
        ∧ base = Path.ofText (Percent.decode parts.path) := by
  unfold toPath
  rw [Checks.bind_eq_ok_iff]
  refine exists_congr fun parts => ?_
  rw [Checks.mapError_eq_ok_iff]
  refine and_congr_right fun _ => ?_
  -- The checks stand in this order; each one that fails ends the reading.
  by_cases hscheme : parts.scheme = scheme
  · by_cases hlocal : isLocal parts.authority = true
    · by_cases hpath : parts.path = []
      · simp [hscheme, hlocal, hpath, bind, Except.bind, throw, throwThe, MonadExceptOf.throw]
      · simp [hscheme, hlocal, hpath, pure, Except.pure]
        exact eq_comm
    · simp [hscheme, hlocal, bind, Except.bind, throw, throwThe, MonadExceptOf.throw]
  · simp [hscheme, bind, Except.bind, throw, throwThe, MonadExceptOf.throw]

/-- The path was read from text, so it is well-formed. -/
theorem wellFormed_of_toPath (h : toPath url = .ok base) : base.WellFormed := by
  obtain ⟨parts, -, -, -, -, rfl⟩ := toPath_eq_ok_iff.mp h
  exact Path.wellFormed_ofText _

/-! ### Rooted paths as addresses -/

section Rooted

variable {scheme host path : Text}

/-- The host of a file address in any letter case, or none. -/
def IsLocalHost (host : Text) : Prop := host = [] ∨ Text.InAnyCase "localhost".toList host

/-- Neither host needs brackets, and nothing in them is a disguised delimiter. -/
theorem IsLocalHost.isPlainHost (h : IsLocalHost host) : Reference.IsPlainHost host := by
  rcases h with rfl | h
  · exact fun c hc => absurd hc List.not_mem_nil
  · exact Reference.isPlainHost_of_inAnyCase (by decide) h

/-- Both hosts pass for this machine. -/
theorem IsLocalHost.isLocal_eq (h : IsLocalHost host) : isLocal host = true := by
  rcases h with rfl | h
  · decide
  · rw [isLocal, Reference.lower_of_inAnyCase (by decide) h]
    decide

variable (hscheme : Text.InAnyCase FileUrl.scheme scheme) (hhost : IsLocalHost host)
  (hpath : path.head? = some '/')

include hscheme hhost hpath

/-- A rooted path, escaped and written behind a scheme and a host, is taken apart into these.
Escaping leaves nothing in the path that would begin a query or a fragment. -/
theorem parse_rooted :
    Reference.parse (scheme ++ "://".toList ++ host ++ Percent.encode ['/'] path)
      = .ok { Reference.ofPath (Percent.encode ['/'] path) with
          scheme := FileUrl.scheme, authority := host } := by
  have hhead : (Percent.encode ['/'] path).head? = some '/' := by
    obtain ⟨rest, rfl⟩ := List.head?_eq_some_iff.mp hpath
    rfl
  have hparse := Reference.parse_of_host
    (Reference.isScheme_of_inAnyCase (by decide) (by decide) hscheme) hhost.isPlainHost
    (fun _ hc => Percent.isPathChar_of_mem_encode hc) hhead
  rw [Reference.lower_of_inAnyCase (by decide) hscheme] at hparse
  exact hparse

/-- Reading the address gives the path back, whatever characters it has: what escaping changes,
decoding undoes. -/
theorem toPath_rooted :
    toPath (scheme ++ "://".toList ++ host ++ Percent.encode ['/'] path)
      = .ok (Path.ofText path) := by
  refine toPath_eq_ok_iff.mpr ⟨_, parse_rooted hscheme hhost hpath, rfl, hhost.isLocal_eq, ?_, ?_⟩
  · obtain ⟨rest, rfl⟩ := List.head?_eq_some_iff.mp hpath
    exact List.cons_ne_nil _ _
  · show Path.ofText path = Path.ofText (Percent.decode (Percent.encode ['/'] path))
    rw [Percent.decode_encode (by decide)]

end Rooted

/-- The address of a directory whose path is written from the root down. -/
def ofDirectory (directory : Text) : Text :=
  "file://".toList ++ Percent.encode ['/'] directory

/-- It is an address with the scheme in small letters and no host. -/
theorem ofDirectory_eq (directory : Text) :
    ofDirectory directory = scheme ++ "://".toList ++ [] ++ Percent.encode ['/'] directory := rfl

/-- The address of a directory is taken apart into the scheme and the escaped path. -/
theorem parse_ofDirectory {directory : Text} (h : directory.head? = some '/') :
    Reference.parse (ofDirectory directory)
      = .ok { Reference.ofPath (Percent.encode ['/'] directory) with scheme } := by
  rw [ofDirectory_eq]
  exact parse_rooted rfl (Or.inl rfl) h

/-- The address of a directory names its path. -/
theorem toPath_ofDirectory {directory : Text} (h : directory.head? = some '/') :
    toPath (ofDirectory directory) = .ok (Path.ofText directory) := by
  rw [ofDirectory_eq]
  exact toPath_rooted rfl (Or.inl rfl) h

end FrontendAssets.FileUrl
