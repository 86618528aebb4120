import FrontendAssets.Proofs.Path.Place

/-!
# `FrontendAssets.Proofs.Path.Containment`: what the guard compares

`isParentOf` writes two paths in normal form, reads the texts back and compares segments. For rooted
paths this comes down to the names from the root: `isParentOf_isStrict` says that one path is above
another exactly when they have the same root and the names that lead to the one are a proper
beginning of those that lead to the other. The names are found by entering the segments of the
written path one by one, with no normal form in between (`collapsed_ofText`).

The other laws of strict containment need no root. Nothing contains itself, containment is
transitive (`isParentOf_trans`), and to go on by plain names is to go beneath
(`isParentOf_append_plain`).
-/

set_option autoImplicit false

namespace FrontendAssets

open Text (splitOn join)

/-- The number of slashes in front of a text. The root of a path depends on nothing else. -/
def Root.slashes (t : Text) : Nat := (t.takeWhile (· == '/')).length

/-- There are two roots, and exactly two slashes are the root of their own. -/
theorem Root.ofText_eq_ite {t : Text} (h : t.head? = some '/') :
    Root.ofText t = if Root.slashes t = 2 then .double else .single := by
  obtain ⟨rest, rfl⟩ := List.head?_eq_some_iff.mp h
  unfold Root.ofText Root.slashes
  rw [List.takeWhile_cons_of_pos (by simp), List.length_cons]
  generalize (rest.takeWhile (· == '/')).length = more
  -- One slash is there by assumption, so the number is one, two, or more than two.
  match more with
  | 0 => rfl
  | 1 => rfl
  | _ + 2 => simp

/-- A text with a slash in front is a rooted path. -/
theorem Root.ofText_ne_relative {t : Text} (h : t.head? = some '/') :
    Root.ofText t ≠ .relative := by
  rw [Root.ofText_eq_ite h]
  split <;> decide

/-- Two rooted paths have the same root if both begin with exactly two slashes, or neither of them
does. -/
theorem Root.ofText_eq_ofText_iff {s t : Text} (hs : s.head? = some '/')
    (ht : t.head? = some '/') :
    Root.ofText s = Root.ofText t ↔ (Root.slashes s = 2 ↔ Root.slashes t = 2) := by
  rw [Root.ofText_eq_ite hs, Root.ofText_eq_ite ht]
  by_cases hs2 : Root.slashes s = 2 <;> by_cases ht2 : Root.slashes t = 2 <;> simp [hs2, ht2]

namespace Path

variable {base p q r : Path} {names : List Text}

/-- The names that lead from the root to a rooted path, as it is written. Each segment is entered in
turn, so this is where the path leads in a file system without links. -/
def namesFromRoot (t : Text) : List Text := (splitOn '/' t).foldl enter []

/-- The normal form of a rooted path has the names that lead there. -/
theorem collapsed_ofText {t : Text} (h : t.head? = some '/') :
    (ofText t).collapsed = namesFromRoot t := by
  rw [namesFromRoot, foldl_enter_root (Root.ofText_ne_relative h), collapsed, ofText,
    collapse_filter]

/-! ### Strict containment -/

/-- Nothing is above itself, since the two normal forms are the same. -/
theorem isParentOf_self (p : Path) : p.isParentOf p = false := by
  simp [isParentOf]

/-- A path reaches another one with the same root and at least its segments. -/
theorem reaches_iff : p.reaches q = true ↔ p.root = q.root ∧ p.segments <+: q.segments := by
  simp [reaches]

/-- A path that two paths reach in turn is the first one only if all three are the same. -/
theorem reaches_antisymm (h : p.reaches q = true) (h' : q.reaches p = true) : p = q := by
  obtain ⟨hroot, hprefix⟩ := reaches_iff.mp h
  obtain ⟨-, hprefix'⟩ := reaches_iff.mp h'
  have hsegments : p.segments = q.segments :=
    hprefix.eq_of_length (Nat.le_antisymm hprefix.length_le hprefix'.length_le)
  show Path.mk p.root p.segments = Path.mk q.root q.segments
  rw [hroot, hsegments]

/-- Reaching is transitive, as beginnings are. -/
theorem reaches_trans (h : p.reaches q = true) (h' : q.reaches r = true) :
    p.reaches r = true := by
  obtain ⟨hroot, hprefix⟩ := reaches_iff.mp h
  obtain ⟨hroot', hprefix'⟩ := reaches_iff.mp h'
  exact reaches_iff.mpr ⟨hroot.trans hroot', hprefix.trans hprefix'⟩

/-- What is strictly above something that is strictly above a third thing is strictly above that. -/
theorem isParentOf_trans (h : p.isParentOf q = true) (h' : q.isParentOf r = true) :
    p.isParentOf r = true := by
  unfold isParentOf at h h' ⊢
  rw [Bool.and_eq_true, bne_iff_ne] at h h' ⊢
  refine ⟨?_, reaches_trans h.2 h'.2⟩
  -- Back at the first path the second one would reach it, so the first step led nowhere.
  intro hback
  exact h.1 (reaches_antisymm (hback ▸ h'.2) h.2)

/-- To go on by plain names is to go beneath. This holds of any base, the relative ones included
that the guard gets wrong elsewhere. -/
theorem isParentOf_append_plain (hb : base.WellFormed)
    (hnames : ∀ n ∈ names, IsPlain n ∧ '/' ∉ n) (hne : names ≠ []) :
    base.isParentOf ⟨base.root, base.segments ++ names⟩ = true := by
  have hpath : WellFormed ⟨base.root, base.segments ++ names⟩ := by
    intro s hs
    rcases List.mem_append.mp hs with hs | hs
    · exact hb s hs
    · exact ⟨(hnames s hs).1.1, (hnames s hs).2⟩
  have hcollapsed : collapsed ⟨base.root, base.segments ++ names⟩ = base.collapsed ++ names :=
    collapse_append_plain (fun n hn => (hnames n hn).1) base.root base.segments
  rw [isParentOf_iff hb hpath, hcollapsed]
  exact ⟨rfl, List.prefix_append .., fun he => hne (List.self_eq_append_right.mp he)⟩

/-- The guard is strict containment. On rooted paths it compares the roots and the names that lead
there, nothing contains itself, what is inside of something inside is inside, and whatever goes on
from a path by plain names is inside of it. -/
theorem isParentOf_isStrict :
    (∀ base child : Text, base.head? = some '/' → child.head? = some '/' →
      ((ofText base).isParentOf (ofText child) = true
        ↔ (Root.slashes base = 2 ↔ Root.slashes child = 2)
          ∧ namesFromRoot base <+: namesFromRoot child
          ∧ namesFromRoot base ≠ namesFromRoot child))
    ∧ (∀ p : Path, p.isParentOf p = false)
    ∧ (∀ p q r : Path, p.isParentOf q = true → q.isParentOf r = true → p.isParentOf r = true)
    ∧ ∀ (base : Text) (names : List Text), names ≠ [] → (∀ n ∈ names, IsPlain n ∧ '/' ∉ n) →
      (ofText base).isParentOf ((ofText base).append (ofText (join '/' names))) = true := by
  refine ⟨?_, isParentOf_self, fun p q r => isParentOf_trans, ?_⟩
  · intro base child hbase hchild
    rw [isParentOf_iff (wellFormed_ofText base) (wellFormed_ofText child),
      collapsed_ofText hbase, collapsed_ofText hchild, ← Root.ofText_eq_ofText_iff hbase hchild]
    rfl
  · intro base names hne hnames
    rw [ofText_join fun n hn => ⟨(hnames n hn).1.1, (hnames n hn).2⟩]
    exact isParentOf_append_plain (wellFormed_ofText base) hnames hne

/-- A base that climbs above the root, written in another way than its child, and a name of three
dots behind the child. -/
theorem isParentOf_isStrict_climbing :
    let base : Text := "/srv/../../opt//frontend/.".toList
    let child : Text := "///opt/frontend/../frontend/a".toList
    let behind : Path := (ofText child).append (ofText (join '/' ["...".toList, "b c".toList]))
    base.head? = some '/' ∧ child.head? = some '/'
      ∧ (ofText base).isParentOf (ofText child) = true
      ∧ (ofText child).isParentOf behind = true ∧ (ofText base).isParentOf behind = true := by
  intro base child behind
  obtain ⟨hiff, -, htrans, hbeneath⟩ := isParentOf_isStrict
  have hchild : (ofText base).isParentOf (ofText child) = true :=
    (hiff base child (by decide) (by decide)).mpr (by decide)
  have hnames : ∀ n ∈ ["...".toList, "b c".toList], IsPlain n ∧ '/' ∉ n := by
    unfold IsPlain
    decide
  have hbehind : (ofText child).isParentOf behind = true := hbeneath child _ (by decide) hnames
  exact ⟨by decide, by decide, hchild, hbehind, htrans _ _ _ hchild hbehind⟩

end Path

end FrontendAssets
