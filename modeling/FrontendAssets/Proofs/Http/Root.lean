import FrontendAssets.Http.Scope
import FrontendAssets.Proofs.Url.Quoted

/-!
# `FrontendAssets.Proofs.Http.Root`: the root that is taken off a path

An application that is mounted somewhere sees the paths of its requests without the root of the
place. Where a server passes on nothing but decoded paths, path and root are escaped each for itself
before the one is taken off the other. This is done by the characters alone, so a root is taken off
exactly if the path starts with it and both escape it in the same way (`encode_root_isPrefix_iff`).
They differ in the marks that only paths keep.

Two things follow. Behind a root without these marks an application sees the addresses that it would
see if it were mounted nowhere (`requestUrl_mounted_iff`), and behind any other root it never does.
A root without these marks is also taken off paths that go on in the middle of a segment: nothing
looks for a slash behind it (`requestUrl_eq_iff_not_isTakenOff`).
-/

set_option autoImplicit false

namespace FrontendAssets.HttpScope

variable {c : Char} {root path rest : Text} {s : HttpScope}

/-! ### Escaping roots and paths -/

/-- The marks that stay as they are in an encoded path and are escaped in an encoded root. They are
what the two sets of safe characters differ in. -/
def rootMarks : Text := ":@!$&'()*+,;=".toList

/-- Roots and paths escape every character alike, these marks apart. -/
theorem encodeChar_rootSafe_eq_iff :
    Percent.encodeChar rootSafe c = Percent.encodeChar pathSafe c ↔ c ∉ rootMarks := by
  have hmarks : rootMarks.all (fun d => pathSafe.contains d
      && !(Percent.isUnreserved d || rootSafe.contains d)) = true := by decide
  have hothers : pathSafe.all (fun d => rootMarks.contains d
      || (Percent.isUnreserved d || rootSafe.contains d)) = true := by decide
  constructor
  · intro h hm
    have hmark := List.all_eq_true.mp hmarks c hm
    rw [Bool.and_eq_true, Bool.not_eq_true', ← Bool.not_eq_true] at hmark
    -- The path keeps the mark, so the root would have to keep it too.
    have hpath : Percent.encodeChar pathSafe c = [c] :=
      Percent.encodeChar_eq_singleton_iff.mpr (by rw [hmark.1, Bool.or_true])
    exact hmark.2 (Percent.encodeChar_eq_singleton_iff.mp (h.trans hpath))
  · intro hno
    by_cases hpath : c ∈ pathSafe
    · have hother := List.all_eq_true.mp hothers c hpath
      rw [Bool.or_eq_true, List.contains_iff_mem] at hother
      rw [Percent.encodeChar_eq_singleton_iff.mpr (hother.resolve_left hno),
        Percent.encodeChar_eq_singleton_iff.mpr (by simp [hpath])]
    · have hroot : c ∉ rootSafe := fun hm => hpath (by
        rw [List.mem_singleton.mp hm]
        decide)
      simp [Percent.encodeChar, hpath, hroot]

/-- Whether a root is taken off a path: the path starts with it, and it has no mark that only the
path keeps. Nothing is said about where in the path the root ends. -/
def IsTakenOff (root path : Text) : Prop := root <+: path ∧ ∀ c ∈ root, c ∉ rootMarks

/-- Both conditions are decided by going through the root once. -/
instance (root path : Text) : Decidable (IsTakenOff root path) :=
  have : Decidable (∀ c ∈ root, c ∉ rootMarks) := List.decidableBAll _ root
  inferInstanceAs (Decidable (_ ∧ _))

/-- The escaped path starts with the escaped root exactly if the root is taken off. The left side is
what the program looks at. -/
theorem encode_root_isPrefix_iff :
    Percent.encode rootSafe root <+: Percent.encode pathSafe path ↔ IsTakenOff root path := by
  rw [Percent.encode_isPrefix_iff (by decide) (by decide)]
  simp only [encodeChar_rootSafe_eq_iff]
  rfl

/-! ### Paths below a root -/

/-- A root that does not begin a path is left on it. -/
theorem below_of_not_isPrefix (h : ¬ root <+: path) : below root path = path := by
  rw [below, Text.dropStart?_of_not_isPrefix h, ite_self]

/-- A root that begins a path is taken off, unless it is empty or the whole path. -/
theorem below_append (hroot : root ≠ []) (hrest : rest ≠ []) :
    below root (root ++ rest) = rest := by
  obtain ⟨c, more, rfl⟩ := List.exists_cons_of_ne_nil hrest
  rw [below, if_neg hroot, Text.dropStart?_append]

/-- The same request with another decoded path and another root, of which no path was sent. -/
def decodedAt (s : HttpScope) (root path : Text) : HttpScope :=
  { s with path := path, rawPath := none, rootPath := root }

/-- A decoded path and a root that are texts can be escaped, so there is always an encoded path
below the root. -/
theorem pathBelowRoot_decodedAt (s : HttpScope) (root path : Text) :
    (s.decodedAt root path).pathBelowRoot
      = .ok (below (Percent.encode rootSafe root) (Percent.encode pathSafe path)) := by
  have hpath : (s.decodedAt root path).encodedPath = .ok (Percent.encode pathSafe path) :=
    Percent.encodeLoose_ofText pathSafe path
  have hroot : Percent.encodeLoose rootSafe (s.decodedAt root path).rootPath
      = .ok (Percent.encode rootSafe root) :=
    Percent.encodeLoose_ofText rootSafe root
  rw [pathBelowRoot, hpath, hroot]
  rfl

/-- Where no root is taken off, the whole path is escaped. -/
theorem pathBelowRoot_of_not_isTakenOff (h : ¬ IsTakenOff root path) :
    (s.decodedAt root path).pathBelowRoot = .ok (Percent.encode pathSafe path) := by
  rw [pathBelowRoot_decodedAt,
    below_of_not_isPrefix fun hstart => h (encode_root_isPrefix_iff.mp hstart)]

/-- The empty root leaves the path alone, and all of it is escaped. -/
theorem pathBelowRoot_nil :
    (s.decodedAt [] path).pathBelowRoot = .ok (Percent.encode pathSafe path) :=
  pathBelowRoot_decodedAt s [] path

/-- Where a root is taken off, the rest of the path is escaped, as if it were the path of the
request. -/
theorem pathBelowRoot_of_isTakenOff (hroot : root ≠ []) (hrest : rest ≠ [])
    (hmarks : ∀ c ∈ root, c ∉ rootMarks) :
    (s.decodedAt root (root ++ rest)).pathBelowRoot = .ok (Percent.encode pathSafe rest) := by
  have hsame : Percent.encode rootSafe root = Percent.encode pathSafe root :=
    Percent.encode_congr fun c hc => encodeChar_rootSafe_eq_iff.mpr (hmarks c hc)
  have hne : Percent.encode pathSafe root ≠ [] := fun he =>
    hroot ((Percent.encode_eq_nil_iff (by decide)).mp he)
  have hne' : Percent.encode pathSafe rest ≠ [] := fun he =>
    hrest ((Percent.encode_eq_nil_iff (by decide)).mp he)
  rw [pathBelowRoot_decodedAt, hsame, Percent.encode_append, below_append hne hne']

/-! ### Addresses below a root -/

/-- Paths with the same query behind them are the same only if they were the same before. -/
theorem withQuery_injective (s : HttpScope) : Function.Injective s.withQuery := by
  intro path shown h
  unfold withQuery at h
  split at h
  · exact h
  · exact List.append_cancel_right h

/-- A query is put behind the path, whatever the root is, so addresses are compared by what is below
the root. -/
theorem requestUrl_decodedAt_eq_iff (s : HttpScope) (root path other shown : Text) :
    (s.decodedAt root path).requestUrl = (s.decodedAt other shown).requestUrl
      ↔ (s.decodedAt root path).pathBelowRoot = (s.decodedAt other shown).pathBelowRoot := by
  have hquery : ∀ root path : Text, (s.decodedAt root path).withQuery = s.withQuery :=
    fun _ _ => rfl
  rw [requestUrl, requestUrl, hquery, hquery, pathBelowRoot_decodedAt, pathBelowRoot_decodedAt]
  constructor
  · intro h
    exact congrArg Except.ok (withQuery_injective s (Except.ok.inj h))
  · intro h
    rw [h]

/-- A path other than the root itself keeps its address exactly if the root is not taken off: what
is left of it otherwise is shorter. -/
theorem requestUrl_eq_iff_not_isTakenOff (hroot : root ≠ []) (hne : path ≠ root) :
    (s.decodedAt root path).requestUrl = (s.decodedAt [] path).requestUrl
      ↔ ¬ IsTakenOff root path := by
  rw [requestUrl_decodedAt_eq_iff, pathBelowRoot_nil]
  constructor
  · rintro h ⟨⟨rest, rfl⟩, hmarks⟩
    have hrest : rest ≠ [] := fun he => hne (by rw [he, List.append_nil])
    rw [pathBelowRoot_of_isTakenOff hroot hrest hmarks] at h
    have hsame : rest = root ++ rest := Percent.encode_injective (by decide) (Except.ok.inj h)
    exact hroot (List.self_eq_append_left.mp hsame)
  · exact fun h => pathBelowRoot_of_not_isTakenOff h

/-- A path behind the root of an application has the address that it would have if the application
were mounted nowhere, whatever the query is, exactly if the root has no mark that only paths keep.
With such a mark the root stays, and the application sees it in front of the path. -/
theorem requestUrl_mounted_iff (s : HttpScope) (hroot : root ≠ []) (hpath : path.head? = some '/') :
    (s.decodedAt root (root ++ path)).requestUrl = (s.decodedAt [] path).requestUrl
      ↔ ∀ c ∈ root, c ∉ rootMarks := by
  have hne : path ≠ [] := by
    rintro rfl
    cases hpath
  rw [requestUrl_decodedAt_eq_iff, pathBelowRoot_nil]
  constructor
  · intro h
    apply Decidable.byContradiction
    intro hmarks
    -- Then the root stays in front of the path, and an address with it is longer than one without.
    rw [pathBelowRoot_of_not_isTakenOff fun hoff => hmarks hoff.2] at h
    have hsame : root ++ path = path := Percent.encode_injective (by decide) (Except.ok.inj h)
    exact hroot (List.append_left_eq_self.mp hsame)
  · exact fun hmarks => pathBelowRoot_of_isTakenOff hroot hne hmarks

/-- A root with spaces and letters of other scripts is escaped like a path. -/
theorem requestUrl_mounted_spaces :
    let root : Text := "/my tools/\u00e9".toList
    let path : Text := "/bundled/a:b.js".toList
    let s : HttpScope := ⟨"http".toList, "GET".toList, path, none, [0x78], []⟩
    root ≠ [] ∧ path.head? = some '/' ∧ (∀ c ∈ root, c ∉ rootMarks)
      ∧ (s.decodedAt root (root ++ path)).requestUrl = (s.decodedAt [] path).requestUrl := by
  intro root path s
  have hroot : root ≠ [] := by decide
  have hoff : IsTakenOff root (root ++ path) := by decide
  exact ⟨hroot, rfl, hoff.2, (requestUrl_mounted_iff s hroot rfl).mpr hoff.2⟩

/-- Behind a root with a colon the whole path is the address. -/
theorem requestUrl_mounted_colon :
    let root : Text := "/a:b".toList
    let path : Text := "/bundled/main.js".toList
    let s : HttpScope := ⟨"http".toList, "GET".toList, path, none, [], []⟩
    root ≠ [] ∧ path.head? = some '/'
      ∧ (s.decodedAt root (root ++ path)).requestUrl = .ok "/a:b/bundled/main.js".toList
      ∧ (s.decodedAt [] path).requestUrl = .ok "/bundled/main.js".toList
      ∧ (s.decodedAt root (root ++ path)).requestUrl ≠ (s.decodedAt [] path).requestUrl := by
  intro root path s
  have hinside : (s.decodedAt root (root ++ path)).requestUrl = .ok "/a:b/bundled/main.js".toList :=
    rfl
  have houtside : (s.decodedAt [] path).requestUrl = .ok "/bundled/main.js".toList := rfl
  refine ⟨by decide, rfl, hinside, houtside, ?_⟩
  rw [hinside, houtside]
  exact fun h => absurd (Except.ok.inj h) (by decide)

end FrontendAssets.HttpScope
