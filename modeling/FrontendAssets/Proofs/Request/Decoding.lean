import FrontendAssets.Proofs.Request.CleanNames
import FrontendAssets.Proofs.Url.Lengths

/-!
# `FrontendAssets.Proofs.Request.Decoding`: plain dot segments and escaped ones

Dot segments are removed twice. Those that stand plain in a path are removed while the path is still
escaped, and those that were escaped after it is decoded. Removing all of them at once, after
decoding, is not the same: a plain double dot takes back one segment, and when it is decoded this
segment may hold no name, as an empty one or an escaped dot segment does, or several with escaped
slashes between them. `TakesNamesBack` asks of each plain double dot in turn that the segment it
takes back was worth the last name, and `cleanPath_decodes_first_iff` says that this is exactly when
the clean path, here and at every slash before, is that of the decoded path. One segment is
`namesOf_readSegment_iff`, and the run over all of them is `takeNamesBackFrom_iff`.

Paths without plain double dots are of this kind, whatever is escaped in them, and so are paths of
which every other segment is one name. What follows for their clean paths is
`cleanPath_of_up_not_mem` and `cleanPath_of_names`.
-/

set_option autoImplicit false

namespace FrontendAssets.Request

open Reference (ofPath fromRoot resolvePath resolveSegment segmentsAtRoot)
open Text (splitOn join exchange)

variable {path front : Text} {segments resolved seen : List Text} {segment : Text} {rooted : Bool}

/-! ### Names of segments -/

/-- The names that segments lead to when they are decoded. This is what the clean path of the
decoded text has, and what reading the segments one after the other is compared with. -/
def namesOf (segments : List Text) : List Text := cleanNames (Percent.decode (join '/' segments))

/-- The segments into which one segment falls apart when it is decoded: one, unless slashes or
backslashes were escaped in it. -/
def pieces (segment : Text) : List Text :=
  splitOn '/' (exchange '\\' '/' (Percent.decode segment))

/-- Decoding a path and splitting it gives the pieces of each segment, one after the other, since no
escape reaches over a slash. -/
theorem splitOn_decode_join (h : segments ≠ []) :
    splitOn '/' (exchange '\\' '/' (Percent.decode (join '/' segments)))
      = segments.flatMap pieces := by
  induction segments with
  | nil => exact absurd rfl h
  | cons first more ih =>
      by_cases hm : more = []
      · subst hm
        simp [pieces, join]
      · rw [Text.join_cons first hm, Percent.decode_append_slash, Text.exchange_append_cons,
          Text.splitOn_append_cons, ih hm]
        rfl

/-- The names of segments, by their pieces. -/
theorem namesOf_eq (segments : List Text) :
    namesOf segments = Path.collapse .single (segments.flatMap pieces) := by
  by_cases h : segments = []
  · subst h
    rfl
  · rw [namesOf, cleanNames, splitOn_decode_join h]

/-- The pieces of one more segment come behind those of the others. -/
theorem namesOf_concat (segments : List Text) (segment : Text) :
    namesOf (segments ++ [segment])
      = Path.collapse .single (segments.flatMap pieces ++ pieces segment) := by
  rw [namesOf_eq, List.flatMap_append, List.flatMap_singleton]

/-- What leads to the same names leads to the same names with more behind it: collapsing goes on
from the names. -/
theorem namesOf_append_congr {other : List Text} (h : namesOf segments = namesOf other)
    (behind : List Text) : namesOf (segments ++ behind) = namesOf (other ++ behind) := by
  rw [namesOf_eq, namesOf_eq] at h ⊢
  rw [List.flatMap_append, List.flatMap_append]
  exact Path.collapse_append_congr h _

/-- An idle segment leads nowhere, so it adds no name at the end. -/
theorem namesOf_concat_of_isIdle (h : Path.isIdle segment = true) (segments : List Text) :
    namesOf (segments ++ [segment]) = namesOf segments := by
  have hpieces : pieces segment = [segment] := by
    rcases Path.isIdle_iff.mp h with rfl | rfl <;> rfl
  rw [namesOf_concat, hpieces, Path.collapse_concat_of_isIdle h, namesOf_eq]

/-- The empty segment of the root, last on the stack, is no name. -/
theorem namesOf_nil_cons_reverse (resolved : List Text) :
    namesOf ([] :: resolved).reverse = namesOf resolved.reverse := by
  rw [List.reverse_cons, namesOf_concat_of_isIdle (by decide)]

/-- A double dot takes back the last name, wherever that came from. Compare `readSegment_up`, where
it takes back a segment. -/
theorem namesOf_concat_up (segments : List Text) :
    namesOf (segments ++ [Path.up]) = (namesOf segments).dropLast := by
  have hpieces : pieces Path.up = [Path.up] := rfl
  have hroot : Root.single ≠ .relative := by simp
  rw [namesOf_concat, hpieces, Path.collapse_concat_up hroot, namesOf_eq]

/-! ### Reading the segments of a path -/

/-- Whether a path begins with a slash. It decides what becomes of the empty segments of the
path. -/
def isRooted (path : Text) : Bool := path.head? == some '/'

/-- One more segment of a path that is not decoded yet; the segments before it are in reverse order.
Empty ones are left out of a path that does not begin with a slash, as resolving such a path leaves
them out. -/
def readSegment (rooted : Bool) (resolved : List Text) (segment : Text) : List Text :=
  if segment = [] ∧ rooted = false then resolved else resolveSegment resolved segment

/-- A double dot takes back the last segment, if there is one. -/
theorem readSegment_up (rooted : Bool) (resolved : List Text) :
    readSegment rooted resolved Path.up = resolved.drop 1 := by
  cases rooted <;> rfl

/-- A segment that is no dot segment and not empty is put on the stack as it stands, escapes and
all. -/
theorem readSegment_of_isPlain (h : Path.IsPlain segment) (rooted : Bool) (resolved : List Text) :
    readSegment rooted resolved segment = segment :: resolved := by
  obtain ⟨hnil, hdot, hup⟩ := Path.isPlain_iff.mp h
  rw [readSegment, if_neg fun hskip => hnil hskip.1, resolveSegment,
    if_neg (show segment ≠ ['.', '.'] from hup), if_neg hdot]

/-- Before the first segment the root stands, unless the path begins with it. -/
def beforeFirst (rooted : Bool) : List Text := if rooted then [] else [[]]

/-- Whether each plain double dot among segments takes back the last of the names that the segments
before it lead to. Under the double dot are `resolved`, of which it takes the last segment; the
names of what remains are to be all names but the last. -/
def TakeNamesBackFrom (rooted : Bool) : List Text → List Text → Prop
  | _, [] => True
  | resolved, segment :: rest =>
    (segment = Path.up →
        namesOf (resolved.drop 1).reverse = (namesOf resolved.reverse).dropLast)
      ∧ TakeNamesBackFrom rooted (readSegment rooted resolved segment) rest

/-- Each step compares two lists of names, so the condition is decided by going through the segments
once. -/
instance decidableTakeNamesBackFrom (rooted : Bool) :
    ∀ resolved segments : List Text, Decidable (TakeNamesBackFrom rooted resolved segments)
  | _, [] => inferInstanceAs (Decidable True)
  | resolved, segment :: rest =>
    have := decidableTakeNamesBackFrom rooted (readSegment rooted resolved segment) rest
    inferInstanceAs (Decidable (_ ∧ _))

/-- Whether each plain double dot of a path takes back the last name before it, and not only the
last segment. This is the condition on a path under which it may be decoded before its dot segments
are removed. -/
def TakesNamesBack (path : Text) : Prop :=
  TakeNamesBackFrom (isRooted path) (beforeFirst (isRooted path)) (splitOn '/' path)

/-- It can be decided of a path whether it takes names back. -/
instance (path : Text) : Decidable (TakesNamesBack path) :=
  inferInstanceAs (Decidable (TakeNamesBackFrom _ _ _))

/-- Where the names are those of the segments read so far, one more segment keeps it so unless it is
a double dot that does not take back the last name. The step lemma: an idle segment leads nowhere on
either side, a plain one adds its pieces to both. -/
theorem namesOf_readSegment_iff (rooted : Bool) (h : namesOf resolved.reverse = namesOf seen) :
    namesOf (readSegment rooted resolved segment).reverse = namesOf (seen ++ [segment])
      ↔ (segment = Path.up →
        namesOf (resolved.drop 1).reverse = (namesOf resolved.reverse).dropLast) := by
  by_cases hup : segment = Path.up
  · subst hup
    rw [readSegment_up, namesOf_concat_up, h]
    exact ⟨fun he _ => he, fun he => he rfl⟩
  · refine iff_of_true ?_ fun he => absurd he hup
    by_cases hidle : Path.isIdle segment = true
    · rw [namesOf_concat_of_isIdle hidle, ← h]
      rcases Path.isIdle_iff.mp hidle with rfl | rfl
      · cases rooted with
        | false => rfl
        | true =>
            -- Under a root the empty segment is kept, and leads nowhere there either.
            exact namesOf_nil_cons_reverse resolved
      · cases rooted <;> rfl
    · rw [readSegment_of_isPlain ⟨by simpa using hidle, hup⟩, List.reverse_cons]
      exact namesOf_append_congr h [segment]

/-- Double dots take names back all the way exactly when at every segment the names are those of the
segments read so far. The run lemma: the induction is on the segments that are still to be read,
with any stack whose names are right. -/
theorem takeNamesBackFrom_iff (h : namesOf resolved.reverse = namesOf seen) :
    TakeNamesBackFrom rooted resolved segments
      ↔ ∀ front : List Text, front <+: segments →
        namesOf (front.foldl (readSegment rooted) resolved).reverse = namesOf (seen ++ front) := by
  -- What is carried along is that the names on the stack are those of the segments seen so far.
  induction segments generalizing resolved seen with
  | nil =>
      refine iff_of_true trivial fun front hfront => ?_
      rw [List.prefix_nil.mp hfront, List.append_nil]
      exact h
  | cons segment rest ih =>
      constructor
      · rintro ⟨hsegment, hrest⟩ front hfront
        cases front with
        | nil =>
            rw [List.append_nil]
            exact h
        | cons first more =>
            obtain ⟨rfl, hmore⟩ := List.cons_prefix_cons.mp hfront
            have hstep := (namesOf_readSegment_iff rooted h).mpr hsegment
            have hall := (ih hstep).mp hrest more hmore
            rwa [List.append_assoc] at hall
      · intro hall
        have hstep := hall [segment] (by simp)
        refine ⟨(namesOf_readSegment_iff rooted h).mp hstep, (ih hstep).mpr fun front hfront => ?_⟩
        rw [List.append_assoc]
        exact hall (segment :: front) (List.cons_prefix_cons.mpr ⟨rfl, hfront⟩)

/-! ### Paths of names -/

/-- Without plain double dots there is nothing to take back, whatever is on the stack. -/
theorem takeNamesBackFrom_of_up_not_mem (h : Path.up ∉ segments) (rooted : Bool)
    (resolved : List Text) : TakeNamesBackFrom rooted resolved segments := by
  induction segments generalizing resolved with
  | nil => trivial
  | cons segment rest ih =>
      obtain ⟨hsegment, hrest⟩ := not_or.mp (mt List.mem_cons.mpr h)
      exact ⟨fun he => absurd he.symm hsegment, ih hrest _⟩

/-- So a path without plain double dots is of this kind. Escaped ones are of no concern: they are
removed after decoding. -/
theorem takesNamesBack_of_up_not_mem (h : Path.up ∉ splitOn '/' path) : TakesNamesBack path :=
  takeNamesBackFrom_of_up_not_mem h _ _

/-- What is a name when it is decoded is no dot segment before, since dot segments and the empty one
are decoded to themselves. -/
theorem isPlain_of_isCleanName_decode (h : IsCleanName (Percent.decode segment)) :
    Path.IsPlain segment := by
  rw [Path.isPlain_iff]
  refine ⟨?_, ?_, ?_⟩
  · rintro rfl
    exact h.ne_nil rfl
  · rintro rfl
    exact h.ne_dot rfl
  · rintro rfl
    exact h.ne_up rfl

/-- A segment that is one name when it is decoded adds this name. -/
theorem namesOf_concat_of_isCleanName (h : IsCleanName (Percent.decode segment))
    (segments : List Text) :
    namesOf (segments ++ [segment]) = namesOf segments ++ [Percent.decode segment] := by
  have hpieces : pieces segment = [Percent.decode segment] := by
    rw [pieces, Text.exchange_of_not_mem h.backslash_not_mem,
      Text.splitOn_of_not_mem h.slash_not_mem]
  have hplain : ∀ n ∈ [Percent.decode segment], Path.IsPlain n := by
    intro n hn
    rw [List.mem_singleton.mp hn]
    exact h.isPlain
  rw [namesOf_concat, hpieces, Path.collapse_append_plain hplain, namesOf_eq]

/-- Among names and plain double dots each double dot takes back one name. On the stack there are
names, and below them perhaps the empty segment of the root. -/
theorem takeNamesBackFrom_of_names {root : List Text} (hroot : root = [] ∨ root = [[]])
    (hresolved : ∀ s ∈ resolved, IsCleanName (Percent.decode s))
    (hsegments : ∀ s ∈ segments, s = Path.up ∨ IsCleanName (Percent.decode s)) :
    TakeNamesBackFrom rooted (resolved ++ root) segments := by
  induction segments generalizing resolved root with
  | nil => trivial
  | cons segment rest ih =>
      obtain ⟨hsegment, hrest⟩ := List.forall_mem_cons.mp hsegments
      rcases hsegment with rfl | hname
      · rw [TakeNamesBackFrom, readSegment_up]
        cases resolved with
        | nil =>
            -- No name is left to take back, and the segment of the root may go: it leads nowhere.
            have hnone : root.drop 1 = [] := by
              rcases hroot with rfl | rfl <;> rfl
            refine ⟨fun _ => ?_, ?_⟩
            · rcases hroot with rfl | rfl <;> rfl
            · rw [List.nil_append, hnone]
              exact ih (Or.inl rfl) hresolved hrest
        | cons last before =>
            obtain ⟨hlast, hbefore⟩ := List.forall_mem_cons.mp hresolved
            refine ⟨fun _ => ?_, ih hroot hbefore hrest⟩
            rw [List.cons_append, List.reverse_cons, namesOf_concat_of_isCleanName hlast,
              List.dropLast_concat]
            rfl
      · have hplain := isPlain_of_isCleanName_decode hname
        rw [TakeNamesBackFrom, readSegment_of_isPlain hplain]
        exact ⟨fun hup => absurd hup hplain.2,
          ih hroot (List.forall_mem_cons.mpr ⟨hname, hresolved⟩) hrest⟩

/-- A path of names and plain double dots takes names back, with a slash in front or without. -/
theorem takesNamesBack_of_names
    (h : ∀ s ∈ splitOn '/' path, s = Path.up ∨ IsCleanName (Percent.decode s)) :
    TakesNamesBack path ∧ TakesNamesBack ('/' :: path) := by
  have hrelative : isRooted path = false := by
    cases path with
    | nil => rfl
    | cons c more =>
        by_cases hc : c = '/'
        · -- Then the first segment would be empty, which is no name.
          subst hc
          rw [Text.splitOn_cons_self] at h
          rcases h [] (List.mem_cons_self ..) with hup | hname
          · cases hup
          · exact absurd rfl hname.ne_nil
        · simpa [isRooted] using hc
  constructor
  · rw [TakesNamesBack, hrelative]
    exact takeNamesBackFrom_of_names (Or.inr rfl) (List.forall_mem_nil _) h
  · show TakeNamesBackFrom true [] (splitOn '/' ('/' :: path))
    rw [Text.splitOn_cons_self]
    -- Under the slash in front the first segment is empty; it is read, and stays below the names.
    refine ⟨fun he => absurd he (by decide), ?_⟩
    exact takeNamesBackFrom_of_names (Or.inr rfl) (List.forall_mem_nil _) h

/-! ### The names of a clean path -/

/-- The characters that may end a path or a scheme in front of it, begin parameters, or are dropped
or exchanged when a path is taken apart. A path without them comes through all of this as it is. -/
def pathDelimiters : Text := "?#;:\\\t\r\n".toList

/-- A path with nothing around it: no scheme, authority, query, fragment or parameters, and nothing
that is dropped or exchanged. -/
structure IsBarePath (path : Text) : Prop where
  /-- None of the delimiters stands in it. -/
  undelimited : ∀ c ∈ path, c ∉ pathDelimiters
  /-- It does not begin with two slashes. -/
  no_authority : ¬ ['/', '/'] <+: path
  /-- Its first character is visible, so nothing is left out in front of it. -/
  visible : ∀ c ∈ path.head?, 0x20 < c.toNat

/-- Bareness is decided by looking at each character once. -/
instance (path : Text) : Decidable (IsBarePath path) :=
  decidable_of_iff
    ((path.all fun c => !pathDelimiters.contains c) = true ∧ ¬ ['/', '/'] <+: path
      ∧ path.head?.all (fun c => 0x20 < c.toNat) = true)
    ⟨fun ⟨hdelimiters, hslashes, hfirst⟩ =>
        ⟨by simpa using hdelimiters, hslashes, by simpa [Option.all_eq_true] using hfirst⟩,
      fun ⟨hdelimiters, hslashes, hfirst⟩ =>
        ⟨by simpa using hdelimiters, hslashes, by simpa [Option.all_eq_true] using hfirst⟩⟩

/-- The segments that are left of a path before it is decoded, in reverse order. A path without a
slash in front is read as if it had one. -/
def resolvedSegments (rooted : Bool) (path : Text) : List Text :=
  (splitOn '/' path).foldl (readSegment rooted) (beforeFirst rooted)

/-- A bare path holds no delimiter, one by one. -/
theorem IsBarePath.not_mem (h : IsBarePath path) {c : Char} (hc : c ∈ pathDelimiters) :
    c ∉ path := fun hm => h.undelimited c hm hc

/-- A beginning of a bare path is bare. -/
theorem IsBarePath.of_isPrefix (h : IsBarePath path) (hfront : front <+: path) :
    IsBarePath front where
  undelimited c hc := h.undelimited c (hfront.mem hc)
  no_authority hslashes := h.no_authority (hslashes.trans hfront)
  visible := by
    obtain ⟨rest, rfl⟩ := hfront
    cases front with
    | nil => simp
    | cons c more => exact h.visible

/-- A bare path is taken apart into itself: it is an address with nothing but a path. -/
theorem parse_of_isBarePath (h : IsBarePath path) : Reference.parse path = .ok (ofPath path) := by
  have hbreak : ∀ c ∈ path, Reference.isBreak c = false := by
    intro c hc
    have hne : ∀ b ∈ pathDelimiters, c ≠ b := by
      rintro b hb rfl
      exact h.undelimited c hc hb
    simp [Reference.isBreak, hne '\t' (by decide), hne '\r' (by decide), hne '\n' (by decide)]
  have hvisible : Reference.visible path = path := by
    cases path with
    | nil => rfl
    | cons c rest =>
        rw [Reference.visible_cons (h.visible c rfl),
          Reference.dropBreaks_of_isBreak fun d hd => hbreak d (List.mem_cons_of_mem _ hd)]
  -- None of the four cuts finds its sign, and nothing is dropped, so the path is left as it is.
  have hcolon : ':' ∉ path := h.not_mem (by decide)
  have hhash : '#' ∉ path := h.not_mem (by decide)
  have hquestion : '?' ∉ path := h.not_mem (by decide)
  exact Reference.parse_of_cuts hvisible (Reference.cutScheme_of_not_mem hcolon)
    (Reference.cutAuthority_of_not_isPrefix h.no_authority) (Text.cut_of_not_mem hhash)
    (Text.cut_of_not_mem hquestion) Reference.check_nil

/-- The slash that is put in front of a path at the root of a site adds no name. -/
theorem cleanNames_decode_fromRoot (t : Text) :
    cleanNames (Percent.decode (fromRoot t)) = cleanNames (Percent.decode t) := by
  unfold fromRoot
  split
  · rfl
  · have hidle : Path.isIdle [] = true := by decide
    rw [Percent.decode_cons_slash]
    show Path.collapse .single (splitOn '/' ('/' :: exchange '\\' '/' (Percent.decode t))) = _
    rw [Text.splitOn_cons_self, Path.collapse_cons_of_isIdle hidle]
    rfl

/-- Resolving leaves the names of the segments on its stack: the empty segment that a dot segment
leaves at the end leads nowhere. -/
theorem namesOf_resolvePath (path : Text) :
    cleanNames (Percent.decode (resolvePath path))
      = namesOf ((segmentsAtRoot path).foldl resolveSegment []).reverse := by
  unfold resolvePath
  simp only
  split
  · exact namesOf_concat_of_isIdle (by decide) _
  · rfl

/-- In a path that does not begin with a slash the empty segments can be left out beforehand, which
is how resolving does it. -/
theorem foldl_readSegment_false (segments resolved : List Text) :
    segments.foldl (readSegment false) resolved
      = (segments.filter fun s => !s.isEmpty).foldl resolveSegment resolved := by
  rw [List.foldl_filter]
  congr 1
  funext resolved segment
  cases segment <;> simp [readSegment]

/-- The segments at the root leave the names that reading the segments one after the other leaves.
The last one is kept at the root if it is empty, which is no name. -/
theorem namesOf_segmentsAtRoot (path : Text) :
    namesOf ((segmentsAtRoot path).foldl resolveSegment []).reverse
      = namesOf (resolvedSegments (isRooted path) path).reverse := by
  unfold segmentsAtRoot resolvedSegments
  by_cases hrooted : path.head? = some '/'
  · have hread : readSegment true = resolveSegment := by
      funext resolved segment
      simp [readSegment]
    simp only [hrooted, isRooted, beq_self_eq_true, ↓reduceIte, hread, beforeFirst]
  · have hflag : isRooted path = false := by simpa [isRooted] using hrooted
    obtain ⟨before, hsplit⟩ := Text.exists_splitOn_eq_concat '/' path
    generalize Text.afterLast '/' path = last at hsplit
    rw [if_neg hrooted, hflag, hsplit]
    simp only [List.dropLast_concat, List.length_append, List.length_singleton,
      Nat.add_sub_cancel, List.drop_left, List.foldl_append, List.cons_append, List.foldl_cons,
      List.foldl_nil, foldl_readSegment_false]
    show namesOf (resolveSegment (List.foldl resolveSegment [[]] _) last).reverse
      = namesOf (readSegment false (List.foldl resolveSegment [[]] _) last).reverse
    generalize List.foldl resolveSegment [[]] _ = resolved
    -- Reading leaves out an empty last segment and resolving keeps it; in every other case they do
    -- the same.
    by_cases hlast : last = []
    · subst hlast
      exact namesOf_nil_cons_reverse resolved
    · rw [readSegment, if_neg fun hskip => hlast hskip.1]

/-! ### Cleaning and decoding -/

/-- The clean path of a bare path has the names that are left of its segments. Everything before the
removal of dot segments is out of the way with this. -/
theorem cleanPath_of_isBarePath (h : IsBarePath path) :
    cleanPath path
      = { value := join '/' (namesOf (resolvedSegments (isRooted path) path).reverse) } := by
  have hslashes : '\\' ∉ path := h.not_mem (by decide)
  unfold cleanPath
  rw [Text.exchange_of_not_mem hslashes, parse_of_isBarePath h]
  show Noted.mk (removeDotSegments (Percent.decode (ofPath path).pathAtOrigin)) [] = _
  rw [Reference.pathAtOrigin_ofPath (h.not_mem (by decide)), removeDotSegments_eq,
    cleanNames_decode_fromRoot, namesOf_resolvePath, namesOf_segmentsAtRoot]

/-- A path up to one of its slashes, or all of it. These are the places where it can be told whether
a double dot has taken the right thing back. -/
def IsBeginning (front path : Text) : Prop := path = front ∨ ∃ rest, path = front ++ '/' :: rest

/-- A beginning is one of the text, too. -/
theorem IsBeginning.isPrefix (h : IsBeginning front path) : front <+: path := by
  rcases h with rfl | ⟨rest, rfl⟩
  · exact List.prefix_refl _
  · exact List.prefix_append _ _

/-- The beginnings of a path are the texts of its first segments, so going through the segments is
going through the beginnings. -/
theorem isBeginning_iff : IsBeginning front path ↔ splitOn '/' front <+: splitOn '/' path := by
  constructor
  · rintro (rfl | ⟨rest, rfl⟩)
    · exact List.prefix_refl _
    · rw [Text.splitOn_append_cons]
      exact List.prefix_append _ _
  · rintro ⟨behind, hsplit⟩
    -- The segments that are left over are the text behind the slash.
    have hpath : path = join '/' (splitOn '/' front ++ behind) := by
      rw [hsplit, Text.join_splitOn]
    by_cases hbehind : behind = []
    · left
      rw [hpath, hbehind, List.append_nil, Text.join_splitOn]
    · right
      refine ⟨join '/' behind, ?_⟩
      rw [hpath, Text.join_append (Text.splitOn_ne_nil '/' front) hbehind, Text.join_splitOn]

/-- A beginning is read as it is read in the whole path. -/
theorem IsBeginning.resolvedSegments_eq (h : IsBeginning front path) :
    resolvedSegments (isRooted front) front = resolvedSegments (isRooted path) front := by
  cases front with
  | nil => cases isRooted path <;> rfl
  | cons c more =>
      obtain ⟨rest, rfl⟩ := h.isPrefix
      rfl

/-- The clean path of a beginning is that of the decoded text exactly when the segments that are
left of it have the names of all of its segments. The left side is about the program, the right one
about lists of names. -/
theorem cleanPath_beginning_iff (h : IsBarePath path) (hfront : IsBeginning front path) :
    cleanPath front = { value := removeDotSegments (Percent.decode front) }
      ↔ namesOf (resolvedSegments (isRooted path) front).reverse = namesOf (splitOn '/' front) := by
  have hbare : IsBarePath front := h.of_isPrefix hfront.isPrefix
  have hdecode : namesOf (splitOn '/' front) = cleanNames (Percent.decode front) := by
    rw [namesOf, Text.join_splitOn]
  rw [cleanPath_of_isBarePath hbare, hfront.resolvedSegments_eq, hdecode]
  show Noted.mk (join '/' (cleanNames _)) [] = _ ↔ _
  rw [← removeDotSegments_eq, Noted.mk.injEq, removeDotSegments_eq_iff]
  exact and_iff_left rfl

/-- Before anything is taken back, the empty segment of the root or nothing is on the stack, and
neither of them is a name. -/
theorem namesOf_beforeFirst (rooted : Bool) :
    namesOf (beforeFirst rooted).reverse = namesOf [] := by
  cases rooted <;> rfl

/-- Where names are taken back, each beginning of a bare path is cleaned like its decoded text. -/
theorem cleanPath_of_takesNamesBack (h : IsBarePath path) (hback : TakesNamesBack path)
    (hfront : IsBeginning front path) :
    cleanPath front = { value := removeDotSegments (Percent.decode front) } := by
  have hall := (takeNamesBackFrom_iff (namesOf_beforeFirst (isRooted path))).mp hback
  exact (cleanPath_beginning_iff h hfront).mpr (hall _ (isBeginning_iff.mp hfront))

/-- A bare path, up to each of its slashes and as a whole, is cleaned like its decoded text exactly
when each plain double dot in it takes back the last name. Asking it of the whole path alone would
not do: two double dots that each take the wrong thing back may leave the right names in the end. -/
theorem cleanPath_decodes_first_iff (h : IsBarePath path) :
    TakesNamesBack path
      ↔ ∀ front : Text, IsBeginning front path →
        cleanPath front = { value := removeDotSegments (Percent.decode front) } := by
  constructor
  · exact fun hback front hfront => cleanPath_of_takesNamesBack h hback hfront
  · intro hall
    rw [TakesNamesBack, takeNamesBackFrom_iff (namesOf_beforeFirst (isRooted path))]
    intro segments hsegments
    by_cases hnil : segments = []
    · subst hnil
      exact namesOf_beforeFirst (isRooted path)
    · -- The segments are those of the path up to the slash behind them.
      have hslash : ∀ s ∈ segments, '/' ∉ s := fun s hs =>
        Text.not_mem_of_mem_splitOn (hsegments.mem hs)
      have hsplit : splitOn '/' (join '/' segments) = segments := Text.splitOn_join hnil hslash
      have hfront : IsBeginning (join '/' segments) path := by
        rw [isBeginning_iff, hsplit]
        exact hsegments
      have hnames := (cleanPath_beginning_iff h hfront).mp (hall _ hfront)
      rwa [resolvedSegments, hsplit] at hnames

/-- Escaped dots and slashes count like plain ones behind names that are single segments. -/
theorem cleanPath_decodes_first_escaped :
    let path : Text := "bundled/%2e%2E%2fa/x/../b.js".toList
    IsBarePath path ∧ TakesNamesBack path
      ∧ cleanPath path = { value := removeDotSegments (Percent.decode path) }
      ∧ (cleanPath path).value = "a/b.js".toList := by
  intro path
  have hbare : IsBarePath path := by decide
  have hback : TakesNamesBack path := by decide
  have hclean := (cleanPath_decodes_first_iff hbare).mp hback path (Or.inl rfl)
  refine ⟨hbare, hback, hclean, ?_⟩
  rw [hclean]
  decide

/-- A plain double dot behind an escaped one takes the escaped one back, so the name that both would
take back is left. In the decoded text the first double dot takes back that name, and the second
finds none. -/
theorem cleanPath_keeps_escaped_up :
    let path : Text := "a/%2e%2e/../b".toList
    IsBarePath path ∧ cleanPath path = { value := "a/b".toList }
      ∧ removeDotSegments (Percent.decode path) = "b".toList :=
  ⟨by decide, by decide, by decide⟩

/-! ### Paths that may be decoded first -/

/-- Without plain double dots decoding might as well come first, whatever is escaped: dots, slashes
or backslashes. -/
theorem cleanPath_of_up_not_mem (h : IsBarePath path) (hup : Path.up ∉ splitOn '/' path) :
    cleanPath path = { value := removeDotSegments (Percent.decode path) } :=
  cleanPath_of_takesNamesBack h (takesNamesBack_of_up_not_mem hup) (Or.inl rfl)

/-- Plain double dots among segments that are names, as a person would write them, do no harm
either. The names may be escaped, as long as no slash is escaped in them. -/
theorem cleanPath_of_names (h : IsBarePath path)
    (hnames : ∀ s ∈ splitOn '/' path, s = Path.up ∨ IsCleanName (Percent.decode s)) :
    cleanPath path = { value := removeDotSegments (Percent.decode path) } :=
  cleanPath_of_takesNamesBack h (takesNamesBack_of_names hnames).1 (Or.inl rfl)

/-- The same with a slash in front, as the path of an address has. -/
theorem cleanPath_slash_of_names (h : IsBarePath ('/' :: path))
    (hnames : ∀ s ∈ splitOn '/' path, s = Path.up ∨ IsCleanName (Percent.decode s)) :
    cleanPath ('/' :: path) = { value := removeDotSegments (Percent.decode ('/' :: path)) } :=
  cleanPath_of_takesNamesBack h (takesNamesBack_of_names hnames).2 (Or.inl rfl)

end FrontendAssets.Request
