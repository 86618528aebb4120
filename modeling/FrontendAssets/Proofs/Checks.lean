/-!
# `FrontendAssets.Proofs.Checks`: when a row of checks ends well

The library checks what it is given by steps in `Except`. Each lemma here says when such a row of
steps ends well, or with which error it ends, so that proofs take it apart without opening it.
-/

set_option autoImplicit false

namespace FrontendAssets.Checks

variable {ε ε' α β : Type}

/-- One step after the other: both end well, the second with the result of the first. -/
theorem bind_eq_ok_iff {x : Except ε α} {f : α → Except ε β} {b : β} :
    (x >>= f) = .ok b ↔ ∃ a, x = .ok a ∧ f a = .ok b := by
  cases x with
  | error e => simp [bind, Except.bind]
  | ok a => simp [bind, Except.bind]

/-- One step after the other: the first error is that of the whole. The second step has an error
only where the first one ends well, so at most one of the two can be what went wrong. -/
theorem bind_eq_error_iff {x : Except ε α} {f : α → Except ε β} {e : ε} :
    (x >>= f) = .error e ↔ x = .error e ∨ ∃ a, x = .ok a ∧ f a = .error e := by
  cases x with
  | error e => simp [bind, Except.bind]
  | ok a => simp [bind, Except.bind]

/-- What is made of a result does not fail. -/
theorem map_eq_error_iff {x : Except ε α} {f : α → β} {e : ε} :
    x.map f = .error e ↔ x = .error e := by
  cases x with
  | error e => simp [Except.map]
  | ok a => simp [Except.map]

/-- What is made of a result is made only where there is one: the whole ends well exactly if the
step does, with what is made of its result. -/
theorem map_eq_ok_iff {x : Except ε α} {f : α → β} {b : β} :
    x.map f = .ok b ↔ ∃ a, x = .ok a ∧ f a = b := by
  cases x with
  | error e => simp [Except.map]
  | ok a => simp [Except.map]

/-- Wording a fault anew is no success, and takes none away: a step with its error reworded ends
well where the step itself does, with the same result. -/
theorem mapError_eq_ok_iff {x : Except ε α} {f : ε → ε'} {a : α} :
    x.mapError f = .ok a ↔ x = .ok a := by
  cases x with
  | error e =>
      constructor
      · intro h
        cases h
      · intro h
        cases h
  | ok b =>
      constructor
      · intro h
        cases h
        rfl
      · intro h
        cases h
        rfl

/-- One step for every item, in the order of the list. The row ends well exactly if each step does,
whatever the order: the order decides only which error is the first. -/
theorem forM_eq_ok_iff {f : α → Except ε Unit} {items : List α} :
    items.forM f = .ok () ↔ ∀ a ∈ items, f a = .ok () := by
  induction items with
  | nil => exact ⟨fun _ a ha => (List.not_mem_nil ha).elim, fun _ => rfl⟩
  | cons first more ih =>
      -- The row is the first step and then the shorter row, which is where `bind_eq_ok_iff` comes
      -- in.
      show (f first >>= fun _ => more.forM f) = _ ↔ _
      rw [bind_eq_ok_iff, List.forall_mem_cons]
      constructor
      · rintro ⟨⟨⟩, hfirst, hmore⟩
        exact ⟨hfirst, ih.mp hmore⟩
      · rintro ⟨hfirst, hmore⟩
        exact ⟨(), hfirst, ih.mpr hmore⟩

/-- If some step does not end well, the row ends with the error of one of them. Which one is left
open here: a caller that knows what errors the steps can have learns what error the row has. -/
theorem exists_forM_eq_error {f : α → Except ε Unit} {items : List α}
    (h : ¬ ∀ a ∈ items, f a = .ok ()) :
    ∃ a ∈ items, ∃ e, f a = .error e ∧ items.forM f = .error e := by
  induction items with
  | nil => exact absurd (List.forall_mem_nil _) h
  | cons first more ih =>
      show ∃ a ∈ first :: more, ∃ e, f a = .error e ∧ (f first >>= fun _ => more.forM f) = .error e
      cases hfirst : f first with
      | error e => exact ⟨first, List.mem_cons_self .., e, hfirst, rfl⟩
      | ok u =>
          -- The first step is not to blame, so one of those behind it is.
          have hmore : ¬ ∀ a ∈ more, f a = .ok () := fun hall =>
            h (List.forall_mem_cons.mpr ⟨hfirst, hall⟩)
          obtain ⟨a, ha, e, hae, herror⟩ := ih hmore
          exact ⟨a, List.mem_cons_of_mem _ ha, e, hae, herror⟩

end FrontendAssets.Checks
