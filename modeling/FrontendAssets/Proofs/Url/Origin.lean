import FrontendAssets.Proofs.Url.Reference
import FrontendAssets.Url.Origin

/-!
# `FrontendAssets.Proofs.Url.Origin`: paths at the root of a site

At the root of a site a path of plain segments gets a slash in front, and only its last segment can
change (`pathAtOrigin_concat`): what stands behind its first semicolon is taken off, the rest of the
path is resolved, and the parameters are put back unless they are empty. `IsStable` is the condition
under which all of this leaves the segment as it is. A path whose last segment is not stable is
shortened (`length_resolvedPath_lt`), so the condition is exact.
-/

set_option autoImplicit false

namespace FrontendAssets.Reference

open Text (cut join)

variable {front segments : List Text} {segment last : Text}

/-! ### Segments -/

/-- Segments of which none is a dot segment are kept in order. -/
theorem foldl_resolveSegment (h : ∀ s ∈ segments, s ≠ ['.'] ∧ s ≠ ['.', '.'])
    (resolved : List Text) :
    segments.foldl resolveSegment resolved = segments.reverse ++ resolved := by
  induction segments generalizing resolved with
  | nil => rfl
  | cons s rest ih =>
      obtain ⟨hdot, hup⟩ := h s (List.mem_cons_self ..)
      have hrest : ∀ r ∈ rest, r ≠ ['.'] ∧ r ≠ ['.', '.'] := fun r hr =>
        h r (List.mem_cons_of_mem _ hr)
      rw [List.foldl_cons, resolveSegment, if_neg hup, if_neg hdot, ih hrest]
      simp

/-- No segment in front is empty, so all of them follow the root; the last one may be empty, since
only those before the last are left out for being so. -/
theorem segmentsAtRoot_concat (hnil : ∀ s ∈ front, s ≠ []) (hslash : ∀ s ∈ front, '/' ∉ s)
    (hlast : '/' ∉ last) :
    segmentsAtRoot (join '/' (front ++ [last])) = [] :: front ++ [last] := by
  have hhead : (join '/' (front ++ [last])).head? ≠ some '/' := by
    cases front with
    | nil => exact fun he => hlast (List.mem_of_mem_head? he)
    | cons first more =>
        exact Text.head?_join_cons_ne (hnil first (by simp)) (hslash first (by simp)) _
  have hpieces : ∀ s ∈ front ++ [last], '/' ∉ s := by
    simpa [or_imp, forall_and] using ⟨hslash, hlast⟩
  -- No segment in front is empty, so none is left out.
  have hfilter : front.filter (fun s => !s.isEmpty) = front := by
    rw [List.filter_eq_self]
    intro s hs
    simpa using hnil s hs
  rw [segmentsAtRoot, if_neg hhead, Text.splitOn_join (by simp) hpieces]
  simp [hfilter]

/-- What resolving leaves of plain segments and one more, which may be empty or a dot segment. A dot
segment at the end leaves an empty one behind, so that the path still ends with a slash. -/
def resolveLast (front : List Text) (segment : Text) : List Text :=
  if segment = ['.', '.'] then front.dropLast ++ [[]]
  else if segment = ['.'] then front ++ [[]]
  else front ++ [segment]

/-- There is always a last segment, if only an empty one. -/
theorem resolveLast_ne_nil (front : List Text) (segment : Text) :
    resolveLast front segment ≠ [] := by
  unfold resolveLast
  split
  · simp
  · split <;> simp

/-- Anything but a dot segment is kept, the empty segment among them. -/
theorem resolveLast_of_ne (hdot : segment ≠ ['.']) (hup : segment ≠ ['.', '.'])
    (front : List Text) : resolveLast front segment = front ++ [segment] := by
  rw [resolveLast, if_neg hup, if_neg hdot]

/-- A text behind the root begins with the slash of the root, which the empty segment in front
stands for. -/
theorem fromRoot_join (h : segments ≠ []) :
    fromRoot (join '/' ([] :: segments)) = '/' :: join '/' segments := by
  rw [Text.join_cons [] h]
  rfl

/-- A path of plain segments up to the last one is resolved at the root, slash included. So only the
last segment can be the reason that a path changes. -/
theorem fromRoot_resolvePath (hplain : ∀ s ∈ front, s ≠ [] ∧ s ≠ ['.'] ∧ s ≠ ['.', '.'])
    (hslash : ∀ s ∈ front, '/' ∉ s) (hsegment : '/' ∉ segment) :
    fromRoot (resolvePath (join '/' (front ++ [segment])))
      = '/' :: join '/' (resolveLast front segment) := by
  have hroot : segmentsAtRoot (join '/' (front ++ [segment])) = [] :: front ++ [segment] :=
    segmentsAtRoot_concat (fun s hs => (hplain s hs).1) hslash hsegment
  have hall : ∀ s ∈ [] :: front, s ≠ ['.'] ∧ s ≠ ['.', '.'] := by
    intro s hs
    rcases List.mem_cons.mp hs with rfl | hs
    · decide
    · exact (hplain s hs).2
  -- What stands in front of the last segment is kept in order, so only that segment is resolved.
  have hfold : (([] :: front ++ [segment]).foldl resolveSegment []).reverse
      = (resolveSegment (([] :: front).reverse) segment).reverse := by
    rw [List.foldl_append, foldl_resolveSegment hall, List.append_nil]
    rfl
  unfold resolvePath
  simp only [hroot, hfold, List.getLast?_concat, Option.some.injEq]
  rw [← fromRoot_join (resolveLast_ne_nil front segment)]
  by_cases hup : segment = ['.', '.']
  · subst hup
    rcases List.eq_nil_or_concat front with rfl | ⟨before, taken, rfl⟩
    · -- There is nothing to take back but the root, and no text has a slash of its own then.
      rfl
    · simp [resolveLast, resolveSegment]
  · by_cases hdot : segment = ['.']
    · subst hdot
      simp [resolveLast, resolveSegment]
    · simp [resolveLast, resolveSegment, hup, hdot]

/-! ### Parameters -/

/-- The parameters of a path are those of its last segment. A semicolon in a segment before it is
part of this segment. -/
theorem cutParameters_join_concat (hlast : '/' ∉ last) (front : List Text) :
    cutParameters (join '/' (front ++ [last]))
      = (join '/' (front ++ [(cut ';' last).1]), (cut ';' last).2.getD []) := by
  unfold cutParameters
  rw [Text.afterLast_join_concat hlast]
  simp only [Text.throughLast_join_concat_append hlast]

/-- A path without parameters is resolved as it is, dot segments and all. -/
theorem pathAtOrigin_ofPath {path : Text} (h : ';' ∉ path) :
    pathAtOrigin (ofPath path) = fromRoot (resolvePath path) := by
  have hlast : ';' ∉ Text.afterLast '/' path := by
    obtain ⟨before, hsplit⟩ := Text.exists_splitOn_eq_concat '/' path
    exact fun hm => h (Text.mem_of_mem_splitOn (by rw [hsplit]; simp) hm)
  -- A path without semicolons is all in front of the first one.
  have hcut : cutParameters path = (path, []) := by
    rw [cutParameters, Text.cut_of_not_mem hlast]
    simp [Text.through_append_after]
  rw [pathAtOrigin, if_neg (by simp [ofPath])]
  simp only [show (ofPath path).path = path from rfl, hcut]
  rw [if_neg (by simp [ofPath])]
  split
  · rename_i hnil
    rw [hnil.1]
    decide
  · rfl

/-- Parameters are put at the end, whatever stands in front. -/
theorem withParameters_append (s t parameters : Text) :
    withParameters (s ++ t) parameters = s ++ withParameters t parameters := by
  unfold withParameters
  split <;> simp

/-- What is left of plain segments and one more that may have parameters. -/
def resolvedPath (front : List Text) (last : Text) : Text :=
  withParameters (join '/' (resolveLast front (cut ';' last).1)) ((cut ';' last).2.getD [])

/-- A path of plain segments up to the last one is resolved without the parameters of that segment,
and they are put behind the result unless they are empty. An empty row of parameters and none cannot
be told apart afterwards; this is where a semicolon at the end of a path is lost. -/
theorem pathAtOrigin_concat (hplain : ∀ s ∈ front, s ≠ [] ∧ s ≠ ['.'] ∧ s ≠ ['.', '.'])
    (hslash : ∀ s ∈ front, '/' ∉ s) (hlast : '/' ∉ last) :
    pathAtOrigin (ofPath (join '/' (front ++ [last]))) = '/' :: resolvedPath front last := by
  have hsegment : '/' ∉ (cut ';' last).1 := fun hm => hlast ((List.takeWhile_sublist _).mem hm)
  have hroot : '/' :: resolvedPath front last
      = withParameters ('/' :: join '/' (resolveLast front (cut ';' last).1))
        ((cut ';' last).2.getD []) := (withParameters_append ['/'] _ _).symm
  unfold pathAtOrigin
  rw [if_neg (by simp [ofPath])]
  simp only [show (ofPath (join '/' (front ++ [last]))).path = join '/' (front ++ [last]) from rfl,
    cutParameters_join_concat hlast]
  rw [if_neg (by simp [ofPath]), fromRoot_resolvePath hplain hslash hsegment, hroot]
  split
  · -- Without a segment and parameters the root is left, which is the empty text behind a slash.
    rename_i h
    obtain ⟨hpath, hparameters⟩ := h
    cases front with
    | nil =>
        rw [show (cut ';' last).1 = [] from hpath, hparameters]
        rfl
    | cons first more =>
        rw [List.cons_append, Text.join_cons first (by simp)] at hpath
        simp at hpath
  · rfl

/-! ### Stable segments -/

/-- Whether resolving leaves a last segment as it is: no semicolon ends it, and what stands before
its first semicolon, if there is one, is no dot segment. -/
def IsStable (last : Text) : Prop :=
  (cut ';' last).1 ≠ ['.'] ∧ (cut ';' last).1 ≠ ['.', '.'] ∧ (cut ';' last).2 ≠ some []

/-- Both what is before the first semicolon and what is behind it can be computed. -/
instance (last : Text) : Decidable (IsStable last) :=
  inferInstanceAs (Decidable (_ ∧ _ ∧ _))

/-- Parameters that are not empty are put back where they stood. -/
theorem withParameters_cut (h : (cut ';' last).2 ≠ some []) :
    withParameters (cut ';' last).1 ((cut ';' last).2.getD []) = last := by
  by_cases hsemicolon : ';' ∈ last
  · obtain ⟨segment, parameters, rfl, hsegment⟩ := List.eq_append_cons_of_mem hsemicolon
    rw [Text.cut_append_cons hsegment] at h ⊢
    exact if_neg (by simpa using h)
  · rw [Text.cut_of_not_mem hsemicolon]
    rfl

/-- Resolving leaves a path with a stable last segment as it is. -/
theorem resolvedPath_of_isStable (h : IsStable last) (front : List Text) :
    resolvedPath front last = join '/' (front ++ [last]) := by
  obtain ⟨hdot, hup, hparameters⟩ := h
  calc resolvedPath front last
    _ = withParameters (join '/' (front ++ [[]]) ++ (cut ';' last).1)
          ((cut ';' last).2.getD []) := by
        rw [resolvedPath, resolveLast_of_ne hdot hup, Text.join_concat_append, List.nil_append]
    _ = join '/' (front ++ [[]]) ++ last := by
        rw [withParameters_append, withParameters_cut hparameters]
    _ = join '/' (front ++ [last]) := by rw [Text.join_concat_append, List.nil_append]

/-- A path of plain segments, the last one without parameters, gets a slash in front and is left
alone otherwise. -/
theorem pathAtOrigin_path (hne : segments ≠ [])
    (hplain : ∀ s ∈ segments, s ≠ [] ∧ s ≠ ['.'] ∧ s ≠ ['.', '.'])
    (hslash : ∀ s ∈ segments, '/' ∉ s) (hparams : ';' ∉ join '/' segments) :
    pathAtOrigin (ofPath (join '/' segments)) = '/' :: join '/' segments := by
  obtain ⟨front, last, rfl⟩ : ∃ front last, segments = front ++ [last] :=
    ⟨_, _, (List.dropLast_concat_getLast hne).symm⟩
  obtain ⟨-, hdot, hup⟩ := hplain last (by simp)
  rw [pathAtOrigin_ofPath hparams, fromRoot_resolvePath
    (fun s hs => hplain s (List.mem_append_left _ hs))
    (fun s hs => hslash s (List.mem_append_left _ hs)) (hslash last (by simp)),
    resolveLast_of_ne hdot hup]

/-! ### Other segments -/

/-- The last segment adds its own length to a path that ends with a slash. -/
theorem length_join_concat (front : List Text) (segment : Text) :
    (join '/' (front ++ [segment])).length
      = (join '/' (front ++ [[]])).length + segment.length := by
  rw [← List.length_append, Text.join_concat_append]
  rfl

/-- Parameters add their length and that of the semicolon, at most. -/
theorem length_withParameters_le (t parameters : Text) :
    (withParameters t parameters).length ≤ t.length + parameters.length + 1 := by
  unfold withParameters
  split
  · omega
  · simp only [List.length_append, List.length_cons]
    omega

/-- Resolving the last segment makes no path longer, and a dot segment makes it shorter. -/
theorem length_join_resolveLast (front : List Text) (segment : Text) :
    let resolved := join '/' (resolveLast front segment)
    let path := join '/' (front ++ [segment])
    resolved.length ≤ path.length
      ∧ (segment = ['.'] ∨ segment = ['.', '.'] → resolved.length < path.length) := by
  intro resolved path
  unfold resolved path
  by_cases hup : segment = ['.', '.']
  · -- The segment before a double dot goes too, and an empty one in its place adds no characters.
    subst hup
    have hsub : (front.dropLast ++ [[]]).Sublist (front ++ [[]]) :=
      (List.dropLast_sublist front).append_right _
    have hlength : (join '/' (front.dropLast ++ [[]])).length ≤ (join '/' (front ++ [[]])).length :=
      Text.length_join_le hsub
    rw [length_join_concat front ['.', '.'], resolveLast, if_pos rfl]
    simp only [List.length_cons, List.length_nil]
    omega
  · by_cases hdot : segment = ['.']
    · subst hdot
      rw [length_join_concat front ['.'], resolveLast, if_neg hup, if_pos rfl]
      simp only [List.length_cons, List.length_nil]
      omega
    · rw [resolveLast_of_ne hdot hup]
      exact ⟨Nat.le_refl _, fun h => absurd h (by simp [hdot, hup])⟩

/-- A last segment that is not stable makes the path shorter. So such a path cannot come out as
itself, and being stable is necessary as well. -/
theorem length_resolvedPath_lt (h : ¬ IsStable last) (front : List Text) :
    (resolvedPath front last).length < (join '/' (front ++ [last])).length := by
  unfold IsStable at h
  unfold resolvedPath
  by_cases hsemicolon : ';' ∈ last
  · obtain ⟨segment, parameters, rfl, hsegment⟩ := List.eq_append_cons_of_mem hsemicolon
    rw [Text.cut_append_cons hsegment] at h ⊢
    obtain ⟨hle, hlt⟩ := length_join_resolveLast front segment
    have hbound := length_withParameters_le (join '/' (resolveLast front segment)) parameters
    rw [length_join_concat, List.length_append, List.length_cons]
    rw [length_join_concat front segment] at hle hlt
    by_cases hdots : segment = ['.'] ∨ segment = ['.', '.']
    · -- The parameters come back behind a path that has lost its dot segment.
      have hshorter := hlt hdots
      simp only [Option.getD_some]
      omega
    · -- Then the parameters are empty, and the semicolon is lost with them.
      have hempty : parameters = [] := by
        simpa [not_or.mp hdots] using h
      subst hempty
      simp only [Option.getD_some, withParameters, ↓reduceIte, List.length_nil]
      omega
  · rw [Text.cut_of_not_mem hsemicolon] at h ⊢
    have hdots : last = ['.'] ∨ last = ['.', '.'] := by
      by_cases hdot : last = ['.']
      · exact Or.inl hdot
      · exact Or.inr (by simpa [hdot] using h)
    exact (length_join_resolveLast front last).2 hdots

/-! ### Escaped segments -/

section Escaped

variable {safe : Text}

/-- Resolving the last segment can be done before or after escaping, since no segment becomes a dot
segment by it and none ceases to be one. -/
theorem resolveLast_encode (hpercent : '%' ∉ safe) (front : List Text) (segment : Text) :
    resolveLast (front.map (Percent.encode safe)) (Percent.encode safe segment)
      = (resolveLast front segment).map (Percent.encode safe) := by
  have hdot : Percent.encode safe segment = ['.'] ↔ segment = ['.'] :=
    Percent.encode_eq_iff hpercent (by decide)
  have hup : Percent.encode safe segment = ['.', '.'] ↔ segment = ['.', '.'] :=
    Percent.encode_eq_iff hpercent (by decide)
  unfold resolveLast
  simp only [hdot, hup]
  split
  · simp [Percent.encode]
  · split <;> simp [Percent.encode]

/-- So can putting parameters back, where the semicolon is safe. -/
theorem withParameters_encode (hsemicolon : ';' ∈ safe) (hpercent : '%' ∉ safe)
    (t parameters : Text) :
    withParameters (Percent.encode safe t) (Percent.encode safe parameters)
      = Percent.encode safe (withParameters t parameters) := by
  unfold withParameters
  simp only [Percent.encode_eq_nil_iff hpercent]
  split
  · rfl
  · rw [Percent.encode_append, Percent.encode_cons_of_mem hsemicolon]

/-- Where slashes and semicolons are safe, resolving can be done before or after escaping. The
percent sign is not safe, or decoding could not tell the two apart. -/
theorem resolvedPath_encode (hslash : '/' ∈ safe) (hsemicolon : ';' ∈ safe) (hpercent : '%' ∉ safe)
    (front : List Text) (last : Text) :
    resolvedPath (front.map (Percent.encode safe)) (Percent.encode safe last)
      = Percent.encode safe (resolvedPath front last) := by
  have hparameters : ((cut ';' last).2.map (Percent.encode safe)).getD []
      = Percent.encode safe ((cut ';' last).2.getD []) := by
    cases (cut ';' last).2 <;> rfl
  unfold resolvedPath
  rw [Percent.cut_encode hsemicolon (by decide) (by decide)]
  simp only [hparameters]
  rw [resolveLast_encode hpercent, ← Percent.encode_join hslash,
    withParameters_encode hsemicolon hpercent]

end Escaped

end FrontendAssets.Reference
