import FrontendAssets.Proofs.Resolve.Strategies

/-!
# `FrontendAssets.Proofs.Resolve.Decomposition`: the mount and the name under it

The clean path of a handled request is one segment, which is the mount in some letter case, a slash,
and the name under the mount (`exists_first_of_nameUnderMount`). The mount is recognized on lowered
text and cut off by counting characters, which could part company where lowercasing changes the
length. They do not: the only slash of the mount stands at its end, and lowercasing moves no slash.

`resolve_decomposes` says it of requests. In particular the bundle is never asked for the empty
name, for an absolute one or for one with a parent segment.
-/

set_option autoImplicit false

namespace FrontendAssets.Resolve

open Text (join splitOn)

variable {c : Config} {url name : Text}

/-- The clean path of a handled request: the mount in some letter case, and the name under it. The
name is not empty, as a clean path does not end with a slash, and between its slashes stand clean
names. -/
theorem exists_first_of_nameUnderMount (h : nameUnderMount c url = some name) :
    ∃ first : Text, (Request.cleanPath (Request.target url).value).value = first ++ '/' :: name
      ∧ Request.IsCleanName first ∧ Text.lower (first ++ ['/']) = Text.lower c.mountHead
      ∧ name ≠ [] ∧ ∀ s ∈ splitOn '/' name, Request.IsCleanName s := by
  obtain ⟨all, hall, hclean⟩ := Request.exists_cleanPath_eq (Request.target url).value
  unfold nameUnderMount at h
  simp only [hclean] at h ⊢
  split at h
  · rename_i hstarts
    rw [Bool.and_eq_true] at hstarts
    obtain ⟨first, more, rfl, hne, htake, hdrop⟩ := Request.exists_eq_cons_of_startsWith
      (fun n hn => (hall n hn).slash_not_mem) c.slash_not_mem_mount hstarts.2
    obtain rfl : name = join '/' more := (Option.some.inj h).symm.trans hdrop
    -- The first name is the mount, so the others are the name under it.
    have hmore : ∀ n ∈ more, Request.IsCleanName n := fun n hn =>
      hall n (List.mem_cons_of_mem _ hn)
    -- The characters that were compared are the first name and its slash.
    have hlower : Text.lower (first ++ ['/']) = Text.lower c.mountHead := by
      rw [← htake]
      exact eq_of_beq hstarts.2
    refine ⟨first, Text.join_cons first hne, hall first (List.mem_cons_self ..), hlower, ?_, ?_⟩
    · intro he
      exact hne ((Text.join_eq_nil_iff fun n hn => (hmore n hn).ne_nil).mp he)
    · rw [Text.splitOn_join hne fun n hn => (hmore n hn).slash_not_mem]
      exact hmore
  · cases h

/-- What is sought under the mount is a clean path of one name or more. -/
theorem exists_names_of_nameUnderMount (h : nameUnderMount c url = some name) :
    ∃ names : List Text, (∀ n ∈ names, Request.IsCleanName n) ∧ names ≠ []
      ∧ name = join '/' names := by
  obtain ⟨-, -, -, -, -, hnames⟩ := exists_first_of_nameUnderMount h
  exact ⟨splitOn '/' name, hnames, Text.splitOn_ne_nil '/' name, (Text.join_splitOn '/' name).symm⟩

/-- A text of clean names, of which there is one or more, is neither empty nor absolute, and has no
parent segment. -/
theorem isRelative_of_isCleanName (hne : name ≠ [])
    (h : ∀ s ∈ splitOn '/' name, Request.IsCleanName s) :
    name ≠ [] ∧ name.head? ≠ some '/' ∧ Path.up ∉ splitOn '/' name := by
  refine ⟨hne, ?_, fun hup => (h _ hup).ne_up rfl⟩
  rw [← Text.join_splitOn '/' name]
  exact Text.head?_join_ne (fun s hs => (h s hs).ne_nil) fun s hs => (h s hs).slash_not_mem

/-- A request has no name under the mount exactly if its target does not start with the mount, as it
was written or in its clean form. Both are tested, since a double dot can lead out of the mount or
into it. -/
theorem nameUnderMount_eq_none_iff :
    nameUnderMount c url = none
      ↔ Request.startsWith (Request.target url).value c.mountHead = false
        ∨ Request.startsWith (Request.cleanPath (Request.target url).value).value c.mountHead
          = false := by
  unfold nameUnderMount
  simp only [ite_eq_right_iff, reduceCtorEq, imp_false, Bool.and_eq_true, not_and_or,
    Bool.not_eq_true]

/-- The decomposition of requests. A request is unhandled exactly if its target does not start with
the mount, as it was written or in its clean form. The clean path of any other one is the mount in
some letter case and clean names under it; without an override the bundle is asked for these, and
they are reported. No request asks the bundle for anything but a relative path without parent
segments. -/
theorem resolve_decomposes (answer : (q : Query) → q.Answer) (c : Config) (url : Text) :
    let target := (Request.target url).value
    let clean := (Request.cleanPath target).value
    let run := (resolve c url).run answer
    ∃ r, run.outcome = .ok r
      ∧ (r.outcome = .unhandled ↔ Request.startsWith target c.mountHead = false
        ∨ Request.startsWith clean c.mountHead = false)
      ∧ (r.outcome ≠ .unhandled → ∃ first rest : Text, clean = first ++ '/' :: rest
        ∧ '/' ∉ first ∧ Text.lower (first ++ ['/']) = Text.lower c.mountHead
        ∧ rest ≠ [] ∧ (∀ s ∈ splitOn '/' rest, Request.IsCleanName s)
        ∧ (c.override = .none → lookups run.asked = [rest] ∧ r.path = rest))
      ∧ ∀ name ∈ lookups run.asked,
        name ≠ [] ∧ name.head? ≠ some '/' ∧ Path.up ∉ splitOn '/' name := by
  intro target clean run
  have hnone : nameUnderMount c url = none ↔ _ := nameUnderMount_eq_none_iff
  have hrun : run = _ := run_resolve answer c url
  rw [← hnone, hrun, outcome_afterNotes, lookups_afterNotes]
  cases hname : nameUnderMount c url with
  | none =>
      refine ⟨_, rfl, by simp, fun h => absurd rfl h, ?_⟩
      intro name hlookup
      exact absurd hlookup List.not_mem_nil
  | some name =>
      -- The run is the strategy of the override, so what it asked is told by `Accords`.
      obtain ⟨r, hr, hhandled, -, haccords⟩ :=
        underMount_accords answer c.override name (MediaType.ofUrl url)
      obtain ⟨first, hclean, hfirst, hlower, hne, hnames⟩ := exists_first_of_nameUnderMount hname
      refine ⟨r, hr, by simp [hhandled], fun _ => ?_, ?_⟩
      · refine ⟨first, name, hclean, hfirst.slash_not_mem, hlower, hne, hnames, fun hoverride => ?_⟩
        rw [hoverride, lookups_underMount_none] at haccords
        rw [hoverride]
        exact ⟨lookups_underMount_none answer name _, haccords.path_eq⟩
      · intro other hlookup
        have hoverride : c.override = .none := haccords.eq_none_of_mem hlookup
        rw [hoverride, lookups_underMount_none, List.mem_singleton] at hlookup
        rw [hlookup]
        exact isRelative_of_isCleanName hne hnames

end FrontendAssets.Resolve
