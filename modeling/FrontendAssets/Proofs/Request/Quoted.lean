import FrontendAssets.Proofs.Request.CleanNames
import FrontendAssets.Proofs.Url.Origin

/-!
# `FrontendAssets.Proofs.Request.Quoted`: addresses of clean paths

A clean path that is escaped once is an address for itself. It is its own target (`target_encode`),
and the clean path of that target is the path from before the escaping (`cleanPath_encode`). On the
way the escaped path is taken apart twice and resolved at the root, and nothing of this touches it,
since no escaped segment is a dot segment or holds a delimiter. Decoding then happens once.
-/

set_option autoImplicit false

namespace FrontendAssets.Request

open Text (join)

variable {names : List Text} {safe t : Text}

/-! ### Segments -/

/-- Escaped clean names are plain segments: not empty, and no dot segment, since only these are
escaped to themselves. -/
theorem IsCleanName.plain_encode {name : Text} (h : IsCleanName name) (hsafe : '%' ∉ safe) :
    Percent.encode safe name ≠ [] ∧ Percent.encode safe name ≠ ['.']
      ∧ Percent.encode safe name ≠ ['.', '.'] := by
  refine ⟨?_, ?_, ?_⟩
  · exact fun he => h.ne_nil ((Percent.encode_eq_nil_iff hsafe).mp he)
  · exact fun he => h.ne_dot ((Percent.encode_eq_iff hsafe (by decide)).mp he)
  · exact fun he => h.ne_up ((Percent.encode_eq_iff hsafe (by decide)).mp he)

/-- So are all segments of an escaped clean path, and none of them holds a slash. -/
theorem plain_of_mem_map_encode (h : ∀ n ∈ names, IsCleanName n) (hsafe : '%' ∉ safe) {s : Text}
    (hs : s ∈ names.map (Percent.encode safe)) :
    (s ≠ [] ∧ s ≠ ['.'] ∧ s ≠ ['.', '.']) ∧ '/' ∉ s := by
  obtain ⟨n, hn, rfl⟩ := List.mem_map.mp hs
  exact ⟨(h n hn).plain_encode hsafe, Percent.slash_not_mem_encode (h n hn).slash_not_mem⟩

/-- An escaped clean path begins with no slash. -/
theorem head?_encode_join (h : ∀ n ∈ names, IsCleanName n) (hslash : '/' ∈ safe)
    (hpercent : '%' ∉ safe) : (Percent.encode safe (join '/' names)).head? ≠ some '/' := by
  rw [Percent.encode_join hslash]
  exact Text.head?_join_ne (fun s hs => (plain_of_mem_map_encode h hpercent hs).1.1)
    fun s hs => (plain_of_mem_map_encode h hpercent hs).2

/-! ### The way of an address -/

/-- An address with nothing but a path is its own target, without a slash in front. -/
theorem target_of_parse (h : Reference.parse t = .ok (Reference.ofPath t)) :
    target t = { value := (Text.dropStart? ['/'] t).getD t } := by
  unfold target
  rw [h]
  rfl

/-- The clean path of an address with nothing but a path: what is left of it at the root of a site
is decoded once, and then its dot segments are removed. -/
theorem cleanPath_of_parse {path : Text} (hpercent : '%' ∉ safe) (hback : '\\' ∉ t)
    (hparse : Reference.parse t = .ok (Reference.ofPath t))
    (horigin : (Reference.ofPath t).pathAtOrigin = Percent.encode safe path) :
    cleanPath t = { value := removeDotSegments path } := by
  unfold cleanPath
  rw [Text.exchange_of_not_mem hback, hparse]
  show Noted.mk (removeDotSegments (Percent.decode (Reference.pathAtOrigin _))) [] = _
  rw [horigin, Percent.decode_encode hpercent]

/-- An escaped clean path is its own target: there is nothing in front of it, and no query behind
it. -/
theorem target_encode (h : ∀ n ∈ names, IsCleanName n) :
    target (Percent.encode ['/'] (join '/' names))
      = { value := Percent.encode ['/'] (join '/' names) } := by
  have hchars : ∀ c ∈ Percent.encode ['/'] (join '/' names), Percent.isPathChar c = true :=
    fun _ hc => Percent.isPathChar_of_mem_encode hc
  have hhead : (Percent.encode ['/'] (join '/' names)).head? ≠ some '/' :=
    head?_encode_join h (by simp) (by decide)
  rw [target_of_parse (Reference.parse_path hchars hhead), Text.dropStart?_of_head? hhead]
  rfl

/-- A slash in front is dropped first of all. -/
theorem removeDotSegments_cons_slash (path : Text) :
    removeDotSegments ('/' :: path) = removeDotSegments path := rfl

/-- The clean path of an escaped clean path is the path itself. So for each clean path there is a
request that leads to it. -/
theorem cleanPath_encode (h : ∀ n ∈ names, IsCleanName n) (hne : names ≠ []) :
    cleanPath (Percent.encode ['/'] (join '/' names)) = { value := join '/' names } := by
  have hchars : ∀ c ∈ Percent.encode ['/'] (join '/' names), Percent.isPathChar c = true :=
    fun _ hc => Percent.isPathChar_of_mem_encode hc
  have hback : '\\' ∉ Percent.encode ['/'] (join '/' names) := fun hm =>
    absurd (hchars _ hm) (by decide)
  have hparams : ';' ∉ Percent.encode ['/'] (join '/' names) := fun hm =>
    absurd (hchars _ hm) (by decide)
  have hpercent : '%' ∉ ['/'] := by decide
  -- Two readings and one resolution leave the escaped path as it is; only now it is decoded.
  have horigin : Reference.pathAtOrigin
      (Reference.ofPath (Percent.encode ['/'] (join '/' names)))
        = Percent.encode ['/'] ('/' :: join '/' names) := by
    rw [Percent.encode_cons_of_mem (by simp), Percent.encode_join (by simp)]
    rw [Percent.encode_join (by simp)] at hparams
    exact Reference.pathAtOrigin_path (by simpa using hne)
      (fun s hs => (plain_of_mem_map_encode h hpercent hs).1)
      (fun s hs => (plain_of_mem_map_encode h hpercent hs).2) hparams
  rw [cleanPath_of_parse hpercent hback
    (Reference.parse_path hchars (head?_encode_join h (by simp) hpercent)) horigin,
    removeDotSegments_cons_slash, removeDotSegments_join h]

end FrontendAssets.Request
