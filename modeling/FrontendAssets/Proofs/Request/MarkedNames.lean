import FrontendAssets.Proofs.Request.Mount
import FrontendAssets.Proofs.Request.ServeMarker

/-!
# `FrontendAssets.Proofs.Request.MarkedNames`: serve markers in front of a list of names

Stripping a marker compares lowered characters and searches a text for a slash. On a clean path this
is an operation on the names of the path: a first name that is the marker, in any letter case, goes
together with the name behind it, provided that a third one is left (`dropMarked`).
`stripMarkers_join` says so for all markers in their order. One marker after the other may uncover
the next one, and what is left is a list of clean names again, so each step starts where the last
one ended. Nothing is taken from the end of the path (`behindMarkers_suffix`), and something is
always left (`behindMarkers_ne_nil`).
-/

set_option autoImplicit false

namespace FrontendAssets.Request

open Text (join)

variable {marker first second third path : Text} {names more : List Text}

/-! ### One marker in a list of names -/

/-- Drop the first two names if the first one is the marker, in any letter case, and at least three
names are there. This is what stripping a marker comes to on a clean path, without any counting of
characters. -/
def dropMarked (marker : Text) (names : List Text) : List Text :=
  if 3 ≤ names.length ∧ names.head?.map Text.lower = some (Text.lower marker) then names.drop 2
  else names

/-- What is left are the last names. -/
theorem dropMarked_suffix (marker : Text) (names : List Text) :
    dropMarked marker names <:+ names := by
  unfold dropMarked
  split
  · exact List.drop_suffix 2 names
  · exact List.suffix_rfl

/-- A name is left if there was one: two names go only where there are three. -/
theorem dropMarked_ne_nil (h : names ≠ []) : dropMarked marker names ≠ [] := by
  unfold dropMarked
  split
  · rename_i hmarked
    intro hnil
    have hlen := congrArg List.length hnil
    rw [List.length_drop, List.length_nil] at hlen
    omega
  · exact h

/-- The case in which something is dropped: the marker, the name behind it, and a third one that
stays. -/
theorem dropMarked_of_marked (h : Text.lower first = Text.lower marker) :
    dropMarked marker (first :: second :: third :: more) = third :: more := by
  have hlen : 3 ≤ (first :: second :: third :: more).length := by
    simp only [List.length_cons]
    omega
  exact if_pos ⟨hlen, congrArg some h⟩

/-- Two names are left alone, even if the first one is the marker. -/
theorem dropMarked_of_length_lt (h : names.length < 3) : dropMarked marker names = names :=
  if_neg fun hmarked => absurd hmarked.1 (by omega)

/-- A first name that is not the marker is left alone. -/
theorem dropMarked_of_ne (h : Text.lower first ≠ Text.lower marker) :
    dropMarked marker (first :: more) = first :: more :=
  if_neg fun hmarked => h (Option.some.inj hmarked.2)

/-! ### One marker in a clean path -/

/-- A joined path begins with a marker and a slash exactly if its first name is the marker, in any
letter case, and has a name behind it. The marker is ASCII text when it is lowered, so as many
characters are compared as the name has. -/
theorem startsWith_join_iff (hnames : ∀ n ∈ names, '/' ∉ n) (hslash : '/' ∉ marker)
    (hascii : ∀ d ∈ Text.lower marker, d.toNat < 0x80) :
    startsWith (join '/' names) (marker ++ ['/']) = true
      ↔ ∃ first more, names = first :: more ∧ more ≠ []
        ∧ Text.lower first = Text.lower marker := by
  constructor
  · intro h
    obtain ⟨first, more, rfl, hne, htake, -⟩ := exists_eq_cons_of_startsWith hnames hslash h
    have hlower : Text.lower (first ++ ['/']) = Text.lower (marker ++ ['/']) := by
      rw [← htake]
      exact eq_of_beq h
    rw [Text.lower_concat_slash, Text.lower_concat_slash] at hlower
    exact ⟨first, more, rfl, hne, List.append_cancel_right hlower⟩
  · rintro ⟨first, more, rfl, hne, hlower⟩
    -- Lowercasing the name has given ASCII text, so it has kept the number of characters, and so it
    -- has with the marker.
    have hlen : first.length = marker.length := by
      rw [← Text.length_lower_of_ascii hascii, ← hlower]
      exact (Text.length_lower_of_ascii (hlower ▸ hascii)).symm
    have hsize : (first ++ ['/']).length = (marker ++ ['/']).length := by simp [hlen]
    have hhead : Text.lower (first ++ ['/']) = Text.lower (marker ++ ['/']) := by
      rw [Text.lower_concat_slash, Text.lower_concat_slash, hlower]
    rw [Text.join_cons first hne, List.append_cons first '/' (join '/' more)]
    exact startsWith_of_lower_eq hsize hhead _

/-- The marker and the name behind it end in front of the third name. The second name is not empty,
so the search for the slash behind it may start one character late. -/
theorem stripMarker_join_of_marked (hnames : ∀ n ∈ first :: second :: third :: more, IsCleanName n)
    (hslash : '/' ∉ marker)
    (h : startsWith (join '/' (first :: second :: third :: more)) (marker ++ ['/']) = true) :
    stripMarker (marker ++ ['/']) (join '/' (first :: second :: third :: more))
      = { value := join '/' (third :: more) } := by
  obtain ⟨_, _, heq, -, -, hdrop⟩ :=
    exists_eq_cons_of_startsWith (fun n hn => (hnames n hn).slash_not_mem) hslash h
  cases heq
  have hsecond : IsCleanName second := hnames second (by simp)
  obtain ⟨c, front, rfl⟩ := List.exists_cons_of_ne_nil hsecond.ne_nil
  have hfront : '/' ∉ front := fun hm => hsecond.slash_not_mem (List.mem_cons_of_mem c hm)
  rw [Text.join_cons (c :: front) (List.cons_ne_nil third more)] at hdrop
  exact stripMarker_of_slash h hdrop hfront

/-- With only one name behind it the marker stays, and the path is reported. -/
theorem stripMarker_join_pair (hnames : ∀ n ∈ [first, second], IsCleanName n)
    (hslash : '/' ∉ marker) (h : startsWith (join '/' [first, second]) (marker ++ ['/']) = true) :
    stripMarker (marker ++ ['/']) (join '/' [first, second])
      = { value := join '/' [first, second],
          notes := [.unexpectedFormat (join '/' [first, second])] } := by
  obtain ⟨_, _, heq, -, -, hdrop⟩ :=
    exists_eq_cons_of_startsWith (fun n hn => (hnames n hn).slash_not_mem) hslash h
  cases heq
  have hsecond : IsCleanName second := hnames second (by simp)
  apply stripMarker_of_no_slash h
  rw [hdrop]
  exact fun hm => hsecond.slash_not_mem (List.mem_of_mem_drop hm)

/-- Stripping a marker from a clean path is dropping it from the names. The path is the same in the
case that is reported, and in the one that is not. -/
theorem value_stripMarker_join (hnames : ∀ n ∈ names, IsCleanName n) (hslash : '/' ∉ marker)
    (hascii : ∀ d ∈ Text.lower marker, d.toNat < 0x80) :
    (stripMarker (marker ++ ['/']) (join '/' names)).value
      = join '/' (dropMarked marker names) := by
  have hiff := startsWith_join_iff (fun n hn => (hnames n hn).slash_not_mem) hslash hascii
  cases hstarts : startsWith (join '/' names) (marker ++ ['/']) with
  | true =>
      obtain ⟨first, more, rfl, hne, hlower⟩ := hiff.mp hstarts
      obtain ⟨second, rest, rfl⟩ := List.exists_cons_of_ne_nil hne
      cases rest with
      | nil =>
          rw [stripMarker_join_pair hnames hslash hstarts, dropMarked_of_length_lt (by simp)]
      | cons third rest =>
          rw [stripMarker_join_of_marked hnames hslash hstarts, dropMarked_of_marked hlower]
  | false =>
      rw [stripMarker_of_not_startsWith hstarts]
      -- A marker that the comparison does not see is not there, or it stands alone.
      cases names with
      | nil => rw [dropMarked_of_length_lt (by simp)]
      | cons first more =>
          by_cases hlower : Text.lower first = Text.lower marker
          · have hmore : more = [] := by
              apply Decidable.byContradiction
              intro hne
              have hno := hiff.mpr ⟨first, more, rfl, hne, hlower⟩
              rw [hstarts] at hno
              cases hno
            rw [hmore, dropMarked_of_length_lt (by simp)]
          · rw [dropMarked_of_ne hlower]

/-! ### All markers -/

/-- The names of the serve markers in the order in which they are stripped, without the slash that
ends each. -/
def markerNames : List Text :=
  ["serve_rev".toList, "serve_file".toList, "serve_internal_file".toList]

/-- What is left of a list of names when each marker in its order is dropped once. A marker that
comes to the front only behind a later one stays. -/
def behindMarkers (names : List Text) : List Text :=
  markerNames.foldl (fun left marker => dropMarked marker left) names

/-- The markers of the program are these names, each with a slash. -/
theorem serveMarkers_eq : serveMarkers = markerNames.map fun marker => marker ++ ['/'] := rfl

/-- Dropping any markers leaves the last names. -/
theorem foldl_dropMarked_suffix (markers names : List Text) :
    markers.foldl (fun left marker => dropMarked marker left) names <:+ names := by
  induction markers generalizing names with
  | nil => exact List.suffix_rfl
  | cons marker markers ih => exact (ih _).trans (dropMarked_suffix marker names)

/-- The names that are left stand at the end. -/
theorem behindMarkers_suffix (names : List Text) : behindMarkers names <:+ names :=
  foldl_dropMarked_suffix markerNames names

/-- Something is left of a list that is not empty. -/
theorem behindMarkers_ne_nil (h : names ≠ []) : behindMarkers names ≠ [] := by
  unfold behindMarkers
  generalize markerNames = markers
  induction markers generalizing names with
  | nil => exact h
  | cons marker markers ih => exact ih (dropMarked_ne_nil h)

/-- The last name stays where it is, as markers are dropped from the front and something is left. -/
theorem getLast?_behindMarkers (h : names ≠ []) :
    (behindMarkers names).getLast? = names.getLast? := by
  obtain ⟨front, hfront⟩ := behindMarkers_suffix names
  have hlast := List.getLast?_eq_some_getLast (behindMarkers_ne_nil h)
  conv => rhs; rw [← hfront]
  rw [List.getLast?_append, hlast, Option.some_or]

/-- One marker after the other: the names that are left are clean names, so the next marker finds a
clean path again. -/
theorem foldl_stripMarker_join {markers : List Text} (hnames : ∀ n ∈ names, IsCleanName n)
    (hmarkers : ∀ marker ∈ markers, '/' ∉ marker ∧ ∀ d ∈ Text.lower marker, d.toNat < 0x80) :
    (markers.map fun marker => marker ++ ['/']).foldl
        (fun left marker => (stripMarker marker left).value) (join '/' names)
      = join '/' (markers.foldl (fun left marker => dropMarked marker left) names) := by
  induction markers generalizing names with
  | nil => rfl
  | cons marker markers ih =>
      obtain ⟨hslash, hascii⟩ := hmarkers marker (List.mem_cons_self ..)
      have hleft : ∀ n ∈ dropMarked marker names, IsCleanName n := fun n hn =>
        hnames n ((dropMarked_suffix marker names).mem hn)
      rw [List.map_cons, List.foldl_cons, List.foldl_cons,
        value_stripMarker_join hnames hslash hascii]
      exact ih hleft fun m hm => hmarkers m (List.mem_cons_of_mem _ hm)

/-- The names of the markers are in ASCII, and small already, so each is its own lowercase. This is
what the comparison of a first name with a marker rests on. -/
theorem ascii_lower_of_mem_markerNames (h : marker ∈ markerNames) :
    '/' ∉ marker ∧ ∀ d ∈ Text.lower marker, d.toNat < 0x80 := by
  have hnames : ∀ m ∈ markerNames, m.all (fun d => d != '/' && d.toNat < 0x80) = true
      ∧ m.map Char.toLower = m := by decide
  obtain ⟨hall, hlower⟩ := hnames marker h
  have hchars : ∀ d ∈ marker, d ≠ '/' ∧ d.toNat < 0x80 := by
    intro d hd
    simpa using List.all_eq_true.mp hall d hd
  rw [Text.lower_of_ascii fun d hd => (hchars d hd).2, hlower]
  exact ⟨fun hslash => (hchars '/' hslash).1 rfl, fun d hd => (hchars d hd).2⟩

/-- Stripping the markers from a clean path is dropping them from the names, in their order. -/
theorem stripMarkers_join (hnames : ∀ n ∈ names, IsCleanName n) :
    (stripMarkers (join '/' names)).value = join '/' (behindMarkers names) := by
  rw [value_stripMarkers, serveMarkers_eq]
  exact foldl_stripMarker_join hnames fun _ => ascii_lower_of_mem_markerNames

end FrontendAssets.Request
