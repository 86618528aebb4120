import FrontendAssets.Proofs.Path.Normal
import FrontendAssets.Request.Target

/-!
# `FrontendAssets.Proofs.Request.CleanNames`: clean paths as lists of names

A clean path is a list of clean names with slashes between them. `removeDotSegments_eq` says that
removing dot segments collapses the segments under a root, whatever stands in front, and what is
left are clean names (`isCleanName_of_mem_cleanNames`). On a path that is clean already it does
nothing (`removeDotSegments_join`), and as a path of files such a path is relative with these names
(`ofText_join`). `exists_cleanPath_eq` is the form in which requests use it: the clean path of every
target is a list of clean names. `cleanPath_isClean` says the same of the text alone.
-/

set_option autoImplicit false

namespace FrontendAssets.Request

open Text (splitOn join exchange)

/-- A name in a clean path. It is neither empty nor a dot segment, so entering it leads one step
down, and it holds neither kind of slash, so it stays one name. -/
structure IsCleanName (name : Text) : Prop where
  /-- It is no gap between two slashes. -/
  ne_nil : name ≠ []
  /-- It does not stand for the place itself. -/
  ne_dot : name ≠ ['.']
  /-- It does not lead back. -/
  ne_up : name ≠ Path.up
  /-- It does not fall apart when a path is split. -/
  slash_not_mem : '/' ∉ name
  /-- Nor does it when backslashes are exchanged. -/
  backslash_not_mem : '\\' ∉ name

/-- For the collapsing of segments a clean name is plain: it is kept. -/
theorem IsCleanName.isPlain {name : Text} (h : IsCleanName name) : Path.IsPlain name :=
  Path.isPlain_iff.mpr ⟨h.ne_nil, h.ne_dot, h.ne_up⟩

/-- The names that are left of a path when its segments are collapsed under a root. -/
def cleanNames (path : Text) : List Text :=
  Path.collapse .single (splitOn '/' (exchange '\\' '/' path))

variable {names : List Text} {name path : Text}

/-! ### Removing dot segments -/

/-- Slashes in front of a path make empty segments, which collapsing leaves out. So it does not
matter whether they are dropped before. -/
theorem collapse_splitOn_dropWhile (t : Text) :
    Path.collapse .single (splitOn '/' (t.dropWhile (· == '/')))
      = Path.collapse .single (splitOn '/' t) := by
  induction t with
  | nil => rfl
  | cons c rest ih =>
      by_cases hc : c = '/'
      · subst hc
        have hidle : Path.isIdle [] = true := by decide
        rw [List.dropWhile_cons_of_pos (by simp), ih, Text.splitOn_cons_self,
          Path.collapse_cons_of_isIdle hidle]
      · rw [List.dropWhile_cons_of_neg (by simpa using hc)]

/-- Removing dot segments leaves the clean names, with slashes between them. The one lemma about the
definition: all others about it go through names. -/
theorem removeDotSegments_eq (path : Text) :
    removeDotSegments path = join '/' (cleanNames path) := by
  unfold removeDotSegments cleanNames
  rw [← collapse_splitOn_dropWhile]
  -- What is left behind the slashes begins with none, so the one put in front is a single root.
  generalize hrest : (exchange '\\' '/' path).dropWhile (· == '/') = rest
  -- Two slashes in front would be a root of their own, and a third one would change it again.
  have hhead : rest.head? ≠ some '/' := by
    intro he
    have hno := List.head?_dropWhile_not (· == '/') (exchange '\\' '/' path)
    rw [hrest, he] at hno
    simp at hno
  have hroot : Root.ofText ('/' :: rest) = .single := Root.ofText_text_append .single hhead
  have hidle : Path.isIdle [] = true := by decide
  show (Path.textOf (Root.ofText ('/' :: rest))
    (Path.collapse (Root.ofText ('/' :: rest)) (splitOn '/' ('/' :: rest)))).drop 1 = _
  rw [hroot, Text.splitOn_cons_self, Path.collapse_cons_of_isIdle hidle]
  rfl

/-- What is left is free of dot segments, since collapsing took them, and of both kinds of slash,
since the path was split at them. -/
theorem isCleanName_of_mem_cleanNames (h : name ∈ cleanNames path) : IsCleanName name := by
  have hplain := Path.isPlain_iff.mp (Path.isPlain_of_mem_collapse (by simp) h)
  have hpiece := Path.mem_of_mem_collapse h
  refine ⟨hplain.1, hplain.2.1, hplain.2.2, Text.not_mem_of_mem_splitOn hpiece, ?_⟩
  intro hback
  exact Text.not_mem_exchange (by decide) path (Text.mem_of_mem_splitOn hpiece hback)

/-- No backslash gets into a path of clean names: there are slashes between the names, and the names
hold none. -/
theorem backslash_not_mem_join (h : ∀ n ∈ names, IsCleanName n) : '\\' ∉ join '/' names := by
  intro hm
  rcases Text.mem_join hm with he | ⟨n, hn, hback⟩
  · exact absurd he (by decide)
  · exact (h n hn).backslash_not_mem hback

/-- A path of clean names has just these names. -/
theorem cleanNames_join (h : ∀ n ∈ names, IsCleanName n) : cleanNames (join '/' names) = names := by
  rw [cleanNames, Text.exchange_of_not_mem (backslash_not_mem_join h)]
  by_cases hne : names = []
  · subst hne
    rfl
  · rw [Text.splitOn_join hne fun n hn => (h n hn).slash_not_mem]
    exact Path.collapse_of_plain (fun n hn => (h n hn).isPlain) .single

/-- Removing dot segments keeps the clean names, so doing it again finds the same. -/
theorem cleanNames_removeDotSegments (path : Text) :
    cleanNames (removeDotSegments path) = cleanNames path := by
  rw [removeDotSegments_eq]
  exact cleanNames_join fun _ hn => isCleanName_of_mem_cleanNames hn

/-- Cleaned paths are told apart by their names. So what is to be shown of cleaned paths can be
shown of lists of names. -/
theorem removeDotSegments_eq_iff {other : Text} :
    removeDotSegments path = removeDotSegments other ↔ cleanNames path = cleanNames other := by
  constructor
  · intro h
    rw [← cleanNames_removeDotSegments path, h, cleanNames_removeDotSegments]
  · intro h
    rw [removeDotSegments_eq, h, ← removeDotSegments_eq]

/-- A path of clean names is left alone. -/
theorem removeDotSegments_join (h : ∀ n ∈ names, IsCleanName n) :
    removeDotSegments (join '/' names) = join '/' names := by
  rw [removeDotSegments_eq, cleanNames_join h]

/-- A clean name at the end of a path stays there: no segment comes behind it that could take it
back. -/
theorem afterLast_removeDotSegments (h : IsCleanName (Text.afterLast '/' path)) :
    Text.afterLast '/' (removeDotSegments path) = Text.afterLast '/' path := by
  have hlast : Text.afterLast '/' (exchange '\\' '/' path) = Text.afterLast '/' path :=
    Text.afterLast_exchange h.backslash_not_mem
  obtain ⟨before, hsplit⟩ := Text.exists_splitOn_eq_concat '/' (exchange '\\' '/' path)
  rw [hlast] at hsplit
  have hplain : ∀ n ∈ [Text.afterLast '/' path], Path.IsPlain n := by
    intro n hn
    rw [List.mem_singleton.mp hn]
    exact h.isPlain
  rw [removeDotSegments_eq, cleanNames, hsplit, Path.collapse_append_plain hplain]
  exact Text.afterLast_join_concat h.slash_not_mem _

/-- Removing dot segments makes no path longer. -/
theorem length_removeDotSegments_le (path : Text) :
    (removeDotSegments path).length ≤ path.length := by
  have hsub := Path.collapse_sublist .single (splitOn '/' (exchange '\\' '/' path))
  calc (removeDotSegments path).length
    _ = (join '/' (cleanNames path)).length := by rw [removeDotSegments_eq]
    _ ≤ (join '/' (splitOn '/' (exchange '\\' '/' path))).length := Text.length_join_le hsub
    _ = path.length := by rw [Text.join_splitOn, exchange, List.length_map]

/-- Read as a path of files, clean names are the segments of a relative path. -/
theorem ofText_join (h : ∀ n ∈ names, IsCleanName n) :
    Path.ofText (join '/' names) = ⟨.relative, names⟩ :=
  Path.ofText_join fun n hn => ⟨(h n hn).isPlain.1, (h n hn).slash_not_mem⟩

/-! ### Clean paths of targets -/

/-- The clean path of a target, a malformed one among them, is a list of clean names. A malformed
target has the empty list. -/
theorem exists_cleanPath_eq (target : Text) :
    ∃ names : List Text, (∀ n ∈ names, IsCleanName n)
      ∧ (cleanPath target).value = join '/' names := by
  unfold cleanPath
  split
  · exact ⟨[], by simp, rfl⟩
  · exact ⟨_, fun _ hn => isCleanName_of_mem_cleanNames hn, removeDotSegments_eq _⟩

/-- Whatever a target holds, its clean path is relative and free of backslashes, and between its
slashes stand clean names or nothing at all. So removing dot segments once more changes nothing, and
a clean path joined to a directory stays beneath it. -/
theorem cleanPath_isClean (target : Text) :
    let clean := (cleanPath target).value
    clean.head? ≠ some '/' ∧ '\\' ∉ clean
      ∧ (splitOn '/' clean = [[]]
        ∨ ∀ s ∈ splitOn '/' clean, s ≠ [] ∧ s ≠ ['.'] ∧ s ≠ Path.up)
      ∧ removeDotSegments clean = clean := by
  intro clean
  obtain ⟨names, hnames, hclean⟩ := exists_cleanPath_eq target
  rw [show clean = join '/' names from hclean]
  refine ⟨?_, backslash_not_mem_join hnames, ?_, removeDotSegments_join hnames⟩
  · exact Text.head?_join_ne (fun n hn => (hnames n hn).ne_nil)
      fun n hn => (hnames n hn).slash_not_mem
  · -- The empty path is split into one empty segment, which is the exception of the statement.
    by_cases hne : names = []
    · subst hne
      exact Or.inl rfl
    · right
      rw [Text.splitOn_join hne fun n hn => (hnames n hn).slash_not_mem]
      intro n hn
      exact ⟨(hnames n hn).ne_nil, (hnames n hn).ne_dot, (hnames n hn).ne_up⟩

end FrontendAssets.Request
