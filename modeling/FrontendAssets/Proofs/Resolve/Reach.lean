import FrontendAssets.Proofs.Request.Quoted
import FrontendAssets.Proofs.Resolve.Run

/-!
# `FrontendAssets.Proofs.Resolve.Reach`: every resource has an address

A resource with a canonical name is served at the mount with its escaped name behind it, and the
bundle is asked for nothing else (`resolve_reaches`). So a name that looks like an escape, or holds
a delimiter, is looked up as it stands, and no name answers for another one.
-/

set_option autoImplicit false

namespace FrontendAssets.Resolve

open Text (join splitOn)

/-- A name without backslashes in which no segment is empty or a dot segment. The names of resources
that were loaded from a directory are of this kind, unless a file name holds a backslash. -/
def IsCanonical (name : Text) : Prop :=
  '\\' ∉ name ∧ ∀ s ∈ splitOn '/' name, s ≠ [] ∧ s ≠ ['.'] ∧ s ≠ Path.up

variable {c : Config} {name : Text}

/-- The segments of such a name are clean names. -/
theorem IsCanonical.isCleanName_of_mem (h : IsCanonical name) :
    ∀ n ∈ splitOn '/' name, Request.IsCleanName n := by
  intro n hn
  obtain ⟨hnil, hdot, hup⟩ := h.2 n hn
  exact ⟨hnil, hdot, hup, Text.not_mem_of_mem_splitOn hn,
    fun hback => h.1 (Text.mem_of_mem_splitOn hn hback)⟩

/-- Whether a mount needs no escapes: it has letters, digits, hyphens and underscores only. -/
def HasPlainMount (c : Config) : Prop :=
  ∀ d ∈ Text.trim '/' c.mount, d.isAlphanum = true ∨ d = '-' ∨ d = '_'

/-- None of the characters of a plain mount is escaped. -/
theorem HasPlainMount.isUnreserved (h : HasPlainMount c) :
    ∀ d ∈ Text.trim '/' c.mount, Percent.isUnreserved d = true := by
  intro d hd
  rcases h d hd with hd | rfl | rfl
  · simp [Percent.isUnreserved, hd]
  · decide
  · decide

/-- A plain mount is a clean name, as it holds no dot that could make a dot segment of it. -/
theorem HasPlainMount.isCleanName (h : HasPlainMount c) :
    Request.IsCleanName (Text.trim '/' c.mount) := by
  -- Neither a dot nor a backslash is among the characters of a plain mount.
  have hno : ∀ d : Char, d.isAlphanum = false → d ≠ '-' → d ≠ '_' → d ∉ Text.trim '/' c.mount := by
    intro d halnum hhyphen hunderscore hm
    rcases h d hm with hd | hd | hd
    · rw [halnum] at hd
      cases hd
    · exact hhyphen hd
    · exact hunderscore hd
  have hdot : '.' ∉ Text.trim '/' c.mount := hno '.' (by decide) (by decide) (by decide)
  refine ⟨c.mount_ne_nil, ?_, ?_, c.slash_not_mem_mount, ?_⟩
  · exact fun he => hdot (by simp [he])
  · exact fun he => hdot (by simp [he, Path.up])
  · exact hno '\\' (by decide) (by decide) (by decide)

/-- A text begins with what was put in front of it. -/
theorem startsWith_append (head t : Text) : Request.startsWith (head ++ t) head = true := by
  simp [Request.startsWith]

/-- The names of a canonical name under a plain mount are clean names, with the mount as the
first. -/
theorem isCleanName_of_mem_mount (hmount : HasPlainMount c) (hname : IsCanonical name) :
    ∀ n ∈ Text.trim '/' c.mount :: splitOn '/' name, Request.IsCleanName n := by
  intro n hn
  rcases List.mem_cons.mp hn with rfl | hn
  · exact hmount.isCleanName
  · exact hname.isCleanName_of_mem n hn

/-- Joined, they are the mount, its slash and the name. -/
theorem join_mount_splitOn (c : Config) (name : Text) :
    join '/' (Text.trim '/' c.mount :: splitOn '/' name) = c.mountHead ++ name := by
  rw [Text.join_cons _ (Text.splitOn_ne_nil '/' name), Text.join_splitOn, Config.mountHead,
    List.append_assoc]
  rfl

/-- A plain mount needs no escapes, whatever is safe besides the slash. -/
theorem mountHead_append_encode {safe : Text} (h : HasPlainMount c) (hsafe : '/' ∈ safe)
    (name : Text) :
    c.mountHead ++ Percent.encode safe name = Percent.encode safe (c.mountHead ++ name) := by
  rw [Config.mountHead, List.append_assoc, List.append_assoc, Percent.encode_append,
    Percent.encode_of_isUnreserved safe h.isUnreserved, List.singleton_append,
    List.singleton_append, Percent.encode_cons_of_mem hsafe]

/-- The address of a canonical name leads to this name under the mount, and nothing is noted.
Escaping, taking apart, resolving, decoding and cleaning come out where they began. -/
theorem nameUnderMount_encode (hmount : HasPlainMount c) (hname : IsCanonical name) :
    nameUnderMount c (c.mountHead ++ Percent.encode ['/'] name) = some name
      ∧ mountNotes c (c.mountHead ++ Percent.encode ['/'] name) = [] := by
  have hclean := isCleanName_of_mem_mount hmount hname
  have hpath := join_mount_splitOn c name
  -- The address is the escaped form of a clean path: the mount with the name behind it.
  have haddress : c.mountHead ++ Percent.encode ['/'] name
      = Percent.encode ['/'] (join '/' (Text.trim '/' c.mount :: splitOn '/' name)) := by
    rw [hpath, mountHead_append_encode hmount (by simp)]
  have htarget : Request.target (c.mountHead ++ Percent.encode ['/'] name)
      = { value := c.mountHead ++ Percent.encode ['/'] name } := by
    rw [haddress]
    exact Request.target_encode hclean
  have hcleaned : Request.cleanPath (c.mountHead ++ Percent.encode ['/'] name)
      = { value := c.mountHead ++ name } := by
    rw [haddress, ← hpath]
    exact Request.cleanPath_encode hclean (List.cons_ne_nil _ _)
  constructor
  · unfold nameUnderMount
    simp [htarget, hcleaned, startsWith_append]
  · unfold mountNotes
    simp [htarget, hcleaned, startsWith_append]

/-- Every resource with a canonical name is reached, by one look-up of this very name. The whole run
is given: nothing is noted, nothing else is asked. -/
theorem resolve_reaches {w : World} {content : Bytes} (hoverride : c.override = .none)
    (hmount : HasPlainMount c) (hname : IsCanonical name)
    (hfound : w.bundle.lookup name = some content) :
    (resolve c (c.mountHead ++ Percent.encode ['/'] name)).run w.answer
      = ⟨[.lookup name], .ok ⟨.bundled, some content,
          MediaType.ofUrl (c.mountHead ++ Percent.encode ['/'] name), name⟩⟩ := by
  obtain ⟨hunder, hnotes⟩ := nameUnderMount_encode hmount hname
  rw [run_resolve, hunder, hnotes, afterNotes_nil, hoverride]
  show (fromBundle name _).run w.answer = _
  rw [run_fromBundle]
  show runOfLookup name _ (w.bundle.lookup name) = _
  rw [hfound]
  rfl

/-- A name that looks like an escaped double dot is reached as it stands. -/
theorem resolve_reaches_escape :
    let name : Text := "%2e%2e/a b?".toList
    let w : World := ⟨⟨[(name, [7])]⟩, .bare []⟩
    Config.default.override = .none ∧ HasPlainMount Config.default ∧ IsCanonical name
      ∧ w.bundle.lookup name = some [7]
      ∧ Config.default.mountHead ++ Percent.encode ['/'] name
        = "bundled/%252e%252e/a%20b%3F".toList
      ∧ (resolve Config.default "bundled/%252e%252e/a%20b%3F".toList).run w.answer
        = ⟨[.lookup name], .ok ⟨.bundled, some [7], MediaType.fallback, name⟩⟩ := by
  intro name w
  have hletters : (Text.trim '/' Config.default.mount).all Char.isAlphanum = true := by decide
  have hmount : HasPlainMount Config.default := fun d hd =>
    Or.inl (List.all_eq_true.mp hletters d hd)
  have hname : IsCanonical name := by
    unfold IsCanonical
    decide
  have hfound : w.bundle.lookup name = some [7] := by decide
  have haddress : Config.default.mountHead ++ Percent.encode ['/'] name
      = "bundled/%252e%252e/a%20b%3F".toList := by decide
  have htype : MediaType.ofUrl "bundled/%252e%252e/a%20b%3F".toList = MediaType.fallback := by
    decide +kernel
  refine ⟨rfl, hmount, hname, hfound, haddress, ?_⟩
  have hrun := resolve_reaches (c := Config.default) rfl hmount hname hfound
  rw [haddress, htype] at hrun
  exact hrun

end FrontendAssets.Resolve
