import FrontendAssets.Proofs.Path.Collapse

/-!
# `FrontendAssets.Proofs.Path.Normal`: paths as text and their normal forms

A path that was read from text has neither idle segments nor slashes in its segments
(`WellFormed`), and such a path is what its own text reads as (`ofText_text`). So the detour of
`Path.normal` over text can be left out: `normal_eq` gives the root and the collapsed segments.
`isParentOf_iff` is the criterion behind the guard: one path is strictly above another exactly when
their roots agree and its collapsed segments are a proper beginning of those of the other.
-/

set_option autoImplicit false

namespace FrontendAssets

open Text (splitOn join)

/-- Slashes in front of a text that begins with none are the root that it is read with. With more
slashes behind them it could be another root. -/
theorem Root.ofText_text_append (root : Root) {t : Text} (h : t.head? ≠ some '/') :
    Root.ofText (root.text ++ t) = root := by
  have htake : t.takeWhile (· == '/') = [] := by
    cases t with
    | nil => rfl
    | cons c rest =>
        have hc : c ≠ '/' := fun he => h (by simp [he])
        rw [List.takeWhile_cons_of_neg (by simpa using hc)]
  cases root <;> simp [Root.ofText, Root.text, htake]

namespace Path

/-- What reading a path promises of its segments: none is idle and none holds a slash. -/
def WellFormed (p : Path) : Prop := ∀ s ∈ p.segments, isIdle s = false ∧ '/' ∉ s

/-- The segments of the normal form. -/
def collapsed (p : Path) : List Text := collapse p.root p.segments

variable {p base child : Path} {segments : List Text}

/-! ### Reading and writing -/

/-- Reading drops idle segments, and pieces between slashes hold none. -/
theorem wellFormed_ofText (t : Text) : (ofText t).WellFormed := by
  intro s hs
  obtain ⟨hmem, hidle⟩ := List.mem_filter.mp hs
  exact ⟨by simpa using hidle, Text.not_mem_of_mem_splitOn hmem⟩

/-- A path that goes on from another one is well-formed if both are. -/
theorem wellFormed_append (hb : base.WellFormed) (hp : p.WellFormed) :
    (base.append p).WellFormed := by
  unfold append
  split
  · intro s hs
    rcases List.mem_append.mp hs with hs | hs
    · exact hb s hs
    · exact hp s hs
  · exact hp

/-- Collapsing keeps a path well-formed, since it makes up no segments. -/
theorem wellFormed_collapsed (h : p.WellFormed) : WellFormed ⟨p.root, p.collapsed⟩ := by
  intro s hs
  exact ⟨isIdle_of_mem_collapse hs, (h s (mem_of_mem_collapse hs)).2⟩

/-- A segment that is not idle is not empty. -/
theorem ne_nil_of_isIdle {s : Text} (h : isIdle s = false) : s ≠ [] := by
  rintro rfl
  exact absurd h (by decide)

/-- The slashes of a root add idle pieces only. -/
theorem filter_splitOn_root (root : Root) (t : Text) :
    (splitOn '/' (root.text ++ t)).filter (fun s => !isIdle s)
      = (splitOn '/' t).filter fun s => !isIdle s := by
  have hnil : isIdle [] = true := by decide
  cases root with
  | relative => rfl
  | single =>
      show (splitOn '/' ('/' :: t)).filter _ = _
      rw [Text.splitOn_cons_self, List.filter_cons_of_neg (by simp [hnil])]
  | double =>
      show (splitOn '/' ('/' :: '/' :: t)).filter _ = _
      rw [Text.splitOn_cons_self, Text.splitOn_cons_self, List.filter_cons_of_neg (by simp [hnil]),
        List.filter_cons_of_neg (by simp [hnil])]

/-- Joined segments are read back. -/
theorem filter_splitOn_join (h : ∀ s ∈ segments, isIdle s = false ∧ '/' ∉ s) :
    (splitOn '/' (join '/' segments)).filter (fun s => !isIdle s) = segments := by
  by_cases hne : segments = []
  · subst hne
    rfl
  · rw [Text.splitOn_join hne fun s hs => (h s hs).2, List.filter_eq_self]
    intro s hs
    simp [(h s hs).1]

/-- A well-formed path is what its text reads as. The working directory is a case of its own, since
its text is not made of its segments. -/
theorem ofText_text (h : p.WellFormed) : ofText p.text = p := by
  have hne : ∀ s ∈ p.segments, s ≠ [] := fun s hs => ne_nil_of_isIdle (h s hs).1
  have hhead : (join '/' p.segments).head? ≠ some '/' :=
    Text.head?_join_ne hne fun s hs => (h s hs).2
  unfold text textOf
  split
  · -- Nothing is left to write, so the path is the working directory, whose text is a dot.
    rename_i hnil
    obtain ⟨hroot, hsegs⟩ := List.append_eq_nil_iff.mp hnil
    have hrel : p.root = .relative := by
      cases hr : p.root with
      | relative => rfl
      | single => rw [hr] at hroot; exact absurd hroot (by decide)
      | double => rw [hr] at hroot; exact absurd hroot (by decide)
    rw [Text.join_eq_nil_iff hne] at hsegs
    obtain ⟨root, segments⟩ := p
    simp only at hrel hsegs
    subst hrel hsegs
    rfl
  · unfold ofText
    rw [Root.ofText_text_append p.root hhead, filter_splitOn_root, filter_splitOn_join h]

/-- Joined segments by themselves are a relative path. -/
theorem ofText_join (h : ∀ s ∈ segments, isIdle s = false ∧ '/' ∉ s) :
    ofText (join '/' segments) = ⟨.relative, segments⟩ := by
  have hhead : (join '/' segments).head? ≠ some '/' :=
    Text.head?_join_ne (fun s hs => ne_nil_of_isIdle (h s hs).1) fun s hs => (h s hs).2
  have hroot : Root.ofText (join '/' segments) = .relative :=
    Root.ofText_text_append .relative hhead
  rw [ofText, hroot, filter_splitOn_join h]

/-! ### The normal form -/

/-- The normal form of a well-formed path: the same root, the segments collapsed. The definition
goes over text twice, and this leaves both ways out. -/
theorem normal_eq (h : p.WellFormed) : p.normal = ⟨p.root, p.collapsed⟩ := by
  -- The text is read as the path itself, so normalizing folds over its own segments.
  have hread : ofText p.text = p := ofText_text h
  have hroot : Root.ofText p.text = p.root := congrArg Path.root hread
  have hsegs : (splitOn '/' p.text).filter (fun s => !isIdle s) = p.segments :=
    congrArg Path.segments hread
  have hnormal : normalize p.text = textOf p.root p.collapsed := by
    show textOf (Root.ofText p.text) (collapse (Root.ofText p.text) (splitOn '/' p.text)) = _
    rw [hroot, ← collapse_filter, hsegs, collapsed]
  rw [normal, hnormal]
  exact ofText_text (wellFormed_collapsed h)

/-- Strictly above means: one root, and a proper beginning of the collapsed segments. All that is
proved about the guard goes through this criterion. -/
theorem isParentOf_iff (hb : base.WellFormed) (hc : child.WellFormed) :
    base.isParentOf child = true
      ↔ base.root = child.root ∧ base.collapsed <+: child.collapsed
        ∧ base.collapsed ≠ child.collapsed := by
  unfold isParentOf reaches
  rw [normal_eq hb, normal_eq hc]
  simp only [Bool.and_eq_true, bne_iff_ne, beq_iff_eq, List.isPrefixOf_iff_prefix, ne_eq,
    Path.mk.injEq, not_and]
  constructor
  · rintro ⟨hne, hroot, hprefix⟩
    exact ⟨hroot, hprefix, fun he => hne hroot.symm he.symm⟩
  · rintro ⟨hroot, hprefix, hne⟩
    exact ⟨fun _ he => hne he.symm, hroot, hprefix⟩

end Path

end FrontendAssets
