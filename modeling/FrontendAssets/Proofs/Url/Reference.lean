import FrontendAssets.Proofs.Text.Lowercase
import FrontendAssets.Proofs.Url.Quoted
import FrontendAssets.Url.Reference

/-!
# `FrontendAssets.Proofs.Url.Reference`: addresses that are paths

An address is told by the places where it is cut (`parse_of_cuts`). Visible text without a scheme,
an authority, a query and a fragment is an address with nothing but a path (`parse_eq_ofPath`). An
escaped path is such an address, unless two slashes in front announce an authority (`parse_path`).
-/

set_option autoImplicit false

namespace FrontendAssets

open Text (cut)

namespace Reference

variable {t : Text}

/-! ### Taking apart -/

/-- An address by the places where it is cut. Every spelling of an address is taken apart through
this lemma: it is enough to know what each of the four cuts leaves, one after the other, and that
the authority passes its check. -/
theorem parse_of_cuts {scheme authority afterScheme after before path v : Text}
    {query fragment : Option Text} (hvisible : visible t = v)
    (hscheme : cutScheme v = (scheme, afterScheme))
    (hauthority : cutAuthority afterScheme = (authority, after))
    (hfragment : cut '#' after = (before, fragment)) (hquery : cut '?' before = (path, query))
    (hcheck : Authority.check authority = .ok ()) :
    parse t = .ok ⟨scheme, authority, path, query.getD [], fragment.getD []⟩ := by
  unfold parse
  rw [hvisible, hscheme]
  simp only [hauthority, hfragment, hquery, hcheck]
  rfl

/-! ### Taking escaped paths apart -/

/-- A path as an address: no scheme, no authority, no query and no fragment. -/
def ofPath (t : Text) : Reference := ⟨[], [], t, [], []⟩

/-- A visible character is no break, since the three breaks are control characters. -/
theorem isBreak_of_lt {c : Char} (h : 0x20 < c.toNat) : isBreak c = false := by
  have hne : ∀ b : Char, b.toNat ≤ 0x20 → c ≠ b := by
    rintro b hb rfl
    omega
  simp [isBreak, hne '\t' (by decide), hne '\r' (by decide), hne '\n' (by decide)]

/-- Visible text is taken as it is: there is nothing to leave out at its front, and nothing to
drop. -/
theorem visible_eq (h : ∀ c ∈ t, 0x20 < c.toNat) : visible t = t := by
  have hlead : t.dropWhile isLeadingBlank = t := by
    cases t with
    | nil => rfl
    | cons c rest =>
        have hc : ¬ c.toNat ≤ 0x20 := by
          have hlow := h c (List.mem_cons_self ..)
          omega
        rw [List.dropWhile_cons_of_neg (by simpa [isLeadingBlank] using hc)]
  rw [visible, hlead, List.filter_eq_self]
  intro c hc
  simp [isBreak_of_lt (h c hc)]

/-- Without a colon there is no scheme, as a scheme is what stands before one. -/
theorem cutScheme_of_not_mem (h : ':' ∉ t) : cutScheme t = ([], t) := by
  rw [cutScheme, Text.cut_of_not_mem h]
  cases t <;> rfl

/-- Without two slashes in front there is no authority. -/
theorem cutAuthority_of_not_isPrefix (h : ¬ ['/', '/'] <+: t) : cutAuthority t = ([], t) := by
  unfold cutAuthority
  split
  · exact absurd ⟨_, rfl⟩ h
  · rfl

/-- Without a slash in front there are no two of them, and so no authority. -/
theorem cutAuthority_of_head? (h : t.head? ≠ some '/') : cutAuthority t = ([], t) := by
  apply cutAuthority_of_not_isPrefix
  rintro ⟨rest, rfl⟩
  exact h rfl

/-- What is left of an address behind its scheme, if it is an escaped path. -/
theorem cut_path (h : ∀ c ∈ t, Percent.isPathChar c = true) {d : Char}
    (hd : Percent.isPathChar d = false) : cut d t = (t, none) := by
  apply Text.cut_of_not_mem
  intro hm
  exact Percent.ne_of_isPathChar (h d hm) hd rfl

/-- The empty authority passes its check, which is that of every address without one. -/
theorem check_nil : Authority.check [] = .ok () := Authority.check_of_plain (by simp)

/-- Visible text without a scheme, an authority, a query and a fragment is nothing but a path. -/
theorem parse_eq_ofPath (h : ∀ c ∈ t, 0x20 < c.toNat ∧ c ≠ '?' ∧ c ≠ '#')
    (hscheme : cutScheme t = ([], t)) (hauthority : cutAuthority t = ([], t)) :
    parse t = .ok (ofPath t) := by
  have hvisible : visible t = t := visible_eq fun c hc => (h c hc).1
  have hfragment : cut '#' t = (t, none) := Text.cut_of_not_mem fun hm => (h _ hm).2.2 rfl
  have hquery : cut '?' t = (t, none) := Text.cut_of_not_mem fun hm => (h _ hm).2.1 rfl
  exact parse_of_cuts hvisible hscheme hauthority hfragment hquery check_nil

/-- No scheme ends behind a slash, so a text that comes to a slash before it comes to a colon has
none, whatever stands behind the slash. -/
theorem cutScheme_of_slash {first : Text} (h : ':' ∉ first) (rest : Text) :
    cutScheme (first ++ '/' :: rest) = ([], first ++ '/' :: rest) := by
  by_cases hcolon : ':' ∈ rest
  · -- What stands before the colon holds a slash, so it is no scheme.
    obtain ⟨before, after, rfl, hbefore⟩ := List.eq_append_cons_of_mem hcolon
    have hcut : cut ':' (first ++ '/' :: (before ++ ':' :: after))
        = (first ++ '/' :: before, some after) := by
      have hno : ':' ∉ first ++ '/' :: before := by simp [h, hbefore]
      simpa using Text.cut_append_cons hno after
    rw [cutScheme, hcut]
    cases first with
    | nil => rfl
    | cons c more =>
        have hslash : isSchemeChar '/' = false := by decide
        simp [hslash]
  · have hno : ':' ∉ first ++ '/' :: rest := by simp [h, hcolon]
    exact cutScheme_of_not_mem hno

/-- One slash in front announces no authority; it takes a second one. -/
theorem cutAuthority_cons_slash (h : t.head? ≠ some '/') :
    cutAuthority ('/' :: t) = ([], '/' :: t) := by
  apply cutAuthority_of_not_isPrefix
  rintro ⟨rest, heq⟩
  obtain rfl : '/' :: rest = t := (List.cons.inj heq).2
  exact h rfl

/-- An escaped path is nothing but a path, unless it begins with a slash: its second slash could
then announce an authority. -/
theorem parse_path (h : ∀ c ∈ t, Percent.isPathChar c = true) (hhead : t.head? ≠ some '/') :
    parse t = .ok (ofPath t) := by
  have hscheme : cutScheme t = ([], t) :=
    cutScheme_of_not_mem fun hm => Percent.ne_of_isPathChar (h _ hm) (by decide) rfl
  refine parse_eq_ofPath (fun c hc => ?_) hscheme (cutAuthority_of_head? hhead)
  exact ⟨Percent.lt_toNat_of_isPathChar (h c hc), Percent.ne_of_isPathChar (h c hc) (by decide),
    Percent.ne_of_isPathChar (h c hc) (by decide)⟩

end Reference

end FrontendAssets
