import FrontendAssets.Proofs.Path.Normal
import Mathlib.Data.List.Induction

/-!
# `FrontendAssets.Proofs.Path.Place`: where paths lead from a working directory

A relative path leads somewhere only together with a working directory, and a double dot in it takes
back a name of that directory. `placeFrom` gives the names from the root down, and `LiesBeneath`
compares two paths by them. `StaysBeneath` asks for this under every working directory.

A path that goes on from `base` by plain names stays beneath it (`staysBeneath_append`). The guard
`Path.isParentOf` promises a little less: `staysBeneath_iff` says that a path which it lets pass
stays beneath `base` exactly when its normal form does not climb from that of `base`, that is, does
not continue it with a double dot. Such a climb needs a relative base whose normal form holds
nothing but double dots, the working directory itself among them.
-/

set_option autoImplicit false

namespace FrontendAssets.Path

/-- One segment further from a place, given by the names from the root down. There is nothing above
the root, so a double dot does nothing there. -/
def enter (place : List Text) (segment : Text) : List Text :=
  if isIdle segment then place
  else if segment = up then place.dropLast
  else place ++ [segment]

/-- The names that lead from the root to a path, seen from a working directory. A rooted path looks
the same from everywhere. -/
def placeFrom (here p : Path) : List Text := (here.append p).segments.foldl enter []

/-- Seen from a working directory, `p` is strictly beneath `base`: the roots agree, and the names
that lead to `base` are a proper beginning of those that lead to `p`. -/
def LiesBeneath (here base p : Path) : Prop :=
  (here.append base).root = (here.append p).root
    ∧ placeFrom here base <+: placeFrom here p ∧ placeFrom here base ≠ placeFrom here p

/-- An absolute path, as working directories have. -/
def IsWorkingDirectory (here : Path) : Prop := here.root ≠ .relative ∧ here.WellFormed

/-- Strictly beneath, whatever the working directory. The guard is not told what the working
directory is, so this is what it would have to promise. -/
def StaysBeneath (base p : Path) : Prop :=
  ∀ here : Path, here.IsWorkingDirectory → LiesBeneath here base p

/-- The normal form of `p` goes on from that of `base` with a double dot. Segment by segment it then
looks as if `p` were beneath, while the double dot leads out. -/
def Climbs (base p : Path) : Prop := base.collapsed ++ [up] <+: p.collapsed

variable {root : Root} {here base p : Path} {names segments : List Text}

/-! ### Entering segments -/

/-- An idle segment leads nowhere. -/
theorem enter_of_isIdle {segment : Text} (h : isIdle segment = true) (place : List Text) :
    enter place segment = place := by
  rw [enter, if_pos h]

/-- A plain name leads one name further. -/
theorem enter_of_isPlain {segment : Text} (h : IsPlain segment) (place : List Text) :
    enter place segment = place ++ [segment] := by
  rw [enter, if_neg (by simp [h.1]), if_neg h.2]

/-- A double dot leads back by one name. -/
theorem enter_up (place : List Text) : enter place up = place.dropLast := by
  rw [enter, if_neg (by simp [isIdle_up]), if_pos rfl]

/-- Plain names are put behind the place in order. -/
theorem foldl_enter_plain (h : ∀ n ∈ names, IsPlain n) (place : List Text) :
    names.foldl enter place = place ++ names := by
  induction names generalizing place with
  | nil => simp
  | cons n rest ih =>
      have hrest : ∀ m ∈ rest, IsPlain m := fun m hm => h m (List.mem_cons_of_mem _ hm)
      rw [List.foldl_cons, enter_of_isPlain (h n (List.mem_cons_self ..)), ih hrest,
        List.append_assoc, List.singleton_append]

/-- Double dots take back as many names, or all there are. -/
theorem foldl_enter_replicate_up (climbs : Nat) (place : List Text) :
    (List.replicate climbs up).foldl enter place = place.take (place.length - climbs) := by
  induction climbs generalizing place with
  | zero => simp
  | succ climbs ih =>
      rw [List.replicate_succ, List.foldl_cons, enter_up, ih, List.dropLast_eq_take, List.take_take,
        List.length_take]
      congr 1
      omega

/-- Collapsing does not change where segments lead, from the root as under it. Each step of the fold
undoes at the end of the collapsed segments what `enter` undoes at the end of the place. The
induction goes from the front to the end of the segments, as both folds do. -/
theorem foldl_enter_collapse {place : List Text} (h : root = .relative ∨ place = [])
    (segments : List Text) :
    (collapse root segments).foldl enter place = segments.foldl enter place := by
  induction segments using List.reverseRecOn with
  | nil => rfl
  | append_singleton segments s ih =>
      rw [collapse_concat, List.foldl_append, ← ih, List.foldl_cons, List.foldl_nil]
      have hidle : ∀ d ∈ collapse root segments, isIdle d = false := fun _ hd =>
        isIdle_of_mem_collapse hd
      generalize collapse root segments = done at hidle
      by_cases hs : isIdle s = true
      · rw [follow_of_isIdle hs, enter_of_isIdle hs, List.reverse_reverse]
      by_cases hup : s = up
      · subst hup
        rcases List.eq_nil_or_concat done with rfl | ⟨before, last, rfl⟩
        · -- A double dot in front stays under no root, and there is nothing above the root.
          by_cases hroot : root = .relative
          · subst hroot
            rfl
          · rw [List.reverse_nil, follow_up_nil hroot, h.resolve_left hroot]
            rfl
        · rw [List.concat_eq_append] at hidle ⊢
          rw [List.reverse_concat]
          by_cases hlast : last = up
          · -- The double dot is kept, and entered like every other segment.
            subst hlast
            have hfollow : follow root (up :: before.reverse) up = up :: up :: before.reverse := by
              unfold follow
              rw [if_neg (by simp [isIdle_up]), if_neg (by simp)]
              exact if_pos rfl
            rw [hfollow, List.reverse_cons, List.reverse_cons, List.reverse_reverse,
              List.foldl_append]
            rfl
          · have hplain : IsPlain last := ⟨hidle last (by simp), hlast⟩
            rw [follow_up_of_isPlain hplain, List.reverse_reverse, List.foldl_append,
              List.foldl_cons, List.foldl_nil, enter_of_isPlain hplain, enter_up,
              List.dropLast_concat]
      · have hplain : IsPlain s := ⟨by simpa using hs, hup⟩
        rw [follow_of_isPlain hplain, List.reverse_cons, List.reverse_reverse, List.foldl_append,
          List.foldl_cons, List.foldl_nil]

/-- Under a root the collapsed segments are the place. -/
theorem foldl_enter_root (h : root ≠ .relative) (segments : List Text) :
    segments.foldl enter [] = collapse root segments := by
  have hplain : ∀ s ∈ collapse root segments, IsPlain s := fun _ hs => isPlain_of_mem_collapse h hs
  rw [← foldl_enter_collapse (Or.inr rfl), foldl_enter_plain hplain, List.nil_append]

/-! ### Places of paths -/

/-- Seen from a working directory, a relative path goes on from there. -/
theorem append_of_relative (h : p.root = .relative) (here : Path) :
    here.append p = ⟨here.root, here.segments ++ p.segments⟩ := if_pos h

/-- Seen from a working directory, a rooted path is itself. -/
theorem append_of_rooted (h : p.root ≠ .relative) (here : Path) : here.append p = p := if_neg h

/-- A rooted path leads to its collapsed segments from everywhere. -/
theorem placeFrom_of_rooted (h : p.root ≠ .relative) (here : Path) :
    placeFrom here p = p.collapsed := by
  rw [placeFrom, append_of_rooted h, foldl_enter_root h, collapsed]

/-- A relative path is entered from the place of the working directory. -/
theorem placeFrom_of_relative (h : p.root = .relative) (here : Path) :
    placeFrom here p = p.collapsed.foldl enter (here.segments.foldl enter []) := by
  rw [placeFrom, append_of_relative h, List.foldl_append, collapsed, h,
    foldl_enter_collapse (Or.inl rfl)]

/-- A path whose place goes on from that of `base` lies beneath it. -/
theorem liesBeneath_of_placeFrom_eq (hroot : base.root = p.root) {tail : List Text}
    (hne : tail ≠ []) (hplace : placeFrom here p = placeFrom here base ++ tail) :
    LiesBeneath here base p := by
  refine ⟨?_, ?_, ?_⟩
  · unfold append
    rw [← hroot]
    split
    · rfl
    · exact hroot
  · rw [hplace]
    exact List.prefix_append ..
  · rw [hplace]
    exact fun he => hne (List.self_eq_append_right.mp he)

/-- Going on by plain names goes on beneath. Clean paths are of this kind, so what requests read
stays beneath the override directory. -/
theorem staysBeneath_append (hnames : ∀ n ∈ names, IsPlain n) (hne : names ≠ []) (base : Path) :
    StaysBeneath base ⟨base.root, base.segments ++ names⟩ := by
  intro here _
  refine liesBeneath_of_placeFrom_eq rfl hne ?_
  by_cases hroot : base.root = .relative
  · rw [placeFrom, placeFrom, append_of_relative hroot,
      append_of_relative (show Path.root ⟨base.root, base.segments ++ names⟩ = _ from hroot),
      ← List.append_assoc, List.foldl_append, foldl_enter_plain hnames]
  · rw [placeFrom, placeFrom, append_of_rooted hroot,
      append_of_rooted (show Path.root ⟨base.root, base.segments ++ names⟩ ≠ _ from hroot),
      List.foldl_append, foldl_enter_plain hnames]

/-! ### What the guard promises -/

/-- What the guard lets pass stays beneath unless it climbs. -/
theorem staysBeneath_of_not_climbs (hb : base.WellFormed) (hp : p.WellFormed)
    (hguard : base.isParentOf p = true) (hclimb : ¬ Climbs base p) : StaysBeneath base p := by
  obtain ⟨hroot, ⟨tail, htail⟩, hne⟩ := (isParentOf_iff hb hp).mp hguard
  have htail_ne : tail ≠ [] := by
    rintro rfl
    exact hne (by simpa using htail)
  have hhead : tail.head? ≠ some up := by
    intro he
    obtain ⟨rest, rfl⟩ := List.head?_eq_some_iff.mp he
    exact hclimb ⟨rest, by rw [← htail, List.append_assoc]; rfl⟩
  -- A normal form that goes on with no double dot goes on with plain names only.
  have hplain : ∀ s ∈ tail, IsPlain s := by
    intro s hs
    have hnormal : IsNormal p.root (base.collapsed ++ tail) := by
      rw [htail]
      exact isNormal_collapse p.root p.segments
    exact hnormal.isPlain_of_mem hhead hs
  intro here _
  refine liesBeneath_of_placeFrom_eq hroot htail_ne ?_
  by_cases hrel : base.root = .relative
  · rw [placeFrom_of_relative hrel, placeFrom_of_relative (hroot ▸ hrel), ← htail,
      List.foldl_append, foldl_enter_plain hplain]
  · rw [placeFrom_of_rooted hrel, placeFrom_of_rooted (hroot ▸ hrel), htail]

/-- Only relative paths climb, from bases of double dots alone: up from the base and further up, and
then down along plain names. -/
theorem Climbs.exists_eq (h : Climbs base p) :
    p.root = .relative ∧ base.collapsed = List.replicate base.collapsed.length up
      ∧ ∃ (climbs : Nat) (names : List Text),
        p.collapsed = List.replicate (base.collapsed.length + 1 + climbs) up ++ names
          ∧ ∀ n ∈ names, IsPlain n := by
  obtain ⟨tail, htail⟩ := h
  have htail : p.collapsed = base.collapsed ++ up :: tail := by
    rw [← htail, List.append_assoc]
    rfl
  have hnormal : IsNormal p.root (base.collapsed ++ up :: tail) := by
    rw [← htail]
    exact isNormal_collapse p.root p.segments
  obtain ⟨hrel, hups, climbs, names, rfl, hplain⟩ := hnormal.eq_of_append_up
  refine ⟨hrel, hups, climbs, names, ?_, hplain⟩
  rw [htail, ← List.replicate_append_replicate, ← List.replicate_append_replicate, ← hups,
    List.append_assoc, List.append_assoc]
  rfl

/-- A path that climbs is not its base, so the guard takes it for one beneath. -/
theorem Climbs.collapsed_ne (h : Climbs base p) : base.collapsed ≠ p.collapsed := by
  intro he
  have hlength := h.length_le
  rw [← he, List.length_append, List.length_singleton] at hlength
  omega

/-- A path that climbs from its base leads outside of it from some working directory: one just deep
enough for the climb, of names that the path does not go down again. -/
theorem exists_not_liesBeneath_of_climbs (hp : p.WellFormed) (hroot : base.root = p.root)
    (hclimb : Climbs base p) :
    ∃ here : Path, here.IsWorkingDirectory ∧ ¬ LiesBeneath here base p := by
  obtain ⟨hrel, hups, climbs, names, hall, hplain⟩ := hclimb.exists_eq
  -- The name is longer than the first one that the path goes down to, so it is another one.
  let name : Text := 'x' :: names.head?.getD []
  let depth : Nat := base.collapsed.length + 1 + climbs
  let here : Path := ⟨.single, List.replicate depth name⟩
  have hname : IsPlain name := by
    rw [isPlain_iff]
    simp [name, up]
  have hslash : '/' ∉ name := by
    cases hn : names with
    | nil => simp [name, hn]
    | cons first more =>
        have hfirst : first ∈ p.collapsed := by simp [hall, hn]
        have hno := (hp first (mem_of_mem_collapse hfirst)).2
        simpa [name, hn] using hno
  have hhere : here.segments.foldl enter [] = List.replicate depth name := by
    rw [foldl_enter_plain (fun n hn => List.eq_of_mem_replicate hn ▸ hname), List.nil_append]
  -- From there `base` leads to a place some names above, and `p` up to the root and down again.
  have hbase : placeFrom here base = List.replicate (climbs + 1) name := by
    rw [placeFrom_of_relative (hroot.trans hrel), hhere, hups, foldl_enter_replicate_up,
      List.take_replicate, List.length_replicate]
    congr 1
    simp only [depth]
    omega
  have hpath : placeFrom here p = names := by
    rw [placeFrom_of_relative hrel, hhere, hall, List.foldl_append, foldl_enter_replicate_up,
      List.length_replicate, Nat.sub_self, List.take_zero, foldl_enter_plain hplain,
      List.nil_append]
  refine ⟨here, ⟨by simp [here], ?_⟩, ?_⟩
  · intro s hs
    rw [List.eq_of_mem_replicate hs]
    exact ⟨hname.1, hslash⟩
  · rintro ⟨-, hprefix, -⟩
    rw [hbase, hpath, List.replicate_succ] at hprefix
    cases hn : names with
    | nil => simp [hn] at hprefix
    | cons first more =>
        rw [hn, List.cons_prefix_cons] at hprefix
        have hlength := congrArg List.length hprefix.1
        simp [name, hn] at hlength

/-- What the guard lets pass stays beneath exactly if it does not climb. The working directory that
shows the failure is one that exists in some file system, so no weaker condition would do. -/
theorem staysBeneath_iff (hb : base.WellFormed) (hp : p.WellFormed)
    (hguard : base.isParentOf p = true) : StaysBeneath base p ↔ ¬ Climbs base p := by
  constructor
  · intro hstays hclimb
    have hroot := ((isParentOf_iff hb hp).mp hguard).1
    obtain ⟨here, hhere, hnot⟩ := exists_not_liesBeneath_of_climbs hp hroot hclimb
    exact hnot (hstays here hhere)
  · exact staysBeneath_of_not_climbs hb hp hguard

end FrontendAssets.Path
