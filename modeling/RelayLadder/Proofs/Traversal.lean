import Mathlib.Data.List.Forall2

/-!
Lists of computations that may fail, run in order: all values, or the error of the first
that fails.
-/

namespace RelayLadder.Traversal

variable {Item Value Error : Type} {compute : Item → Except Error Value} {items : List Item}

theorem mapM_eq_ok_iff {values : List Value} :
    items.mapM compute = .ok values ↔
      List.Forall₂ (fun item value => compute item = .ok value) items values := by
  induction items generalizing values with
  | nil => simp [pure, Except.pure, eq_comm]
  | cons item items inductionHypothesis =>
    rw [List.mapM_cons, List.forall₂_cons_left_iff]
    simp only [← inductionHypothesis]
    cases compute item with
    | error error => simp [bind, Except.bind]
    | ok value => cases items.mapM compute <;> simp [bind, Except.bind, pure, Except.pure, eq_comm]

theorem mapM_of_first_error {before after : List Item} {item : Item} {error : Error}
    (good : ∀ earlier ∈ before, ∃ value, compute earlier = .ok value)
    (bad : compute item = .error error) :
    (before ++ item :: after).mapM compute = .error error := by
  induction before with
  | nil =>
    rw [List.nil_append, List.mapM_cons, bad]
    rfl
  | cons first before inductionHypothesis =>
    obtain ⟨⟨value, computed⟩, others⟩ := List.forall_mem_cons.mp good
    rw [List.cons_append, List.mapM_cons, computed, inductionHypothesis others]
    rfl

theorem exists_first_error {error : Error} (failed : items.mapM compute = .error error) :
    ∃ before item after, items = before ++ item :: after ∧
      (∀ earlier ∈ before, ∃ value, compute earlier = .ok value) ∧
      compute item = .error error := by
  induction items with
  | nil => contradiction
  | cons item items inductionHypothesis =>
    rw [List.mapM_cons] at failed
    cases computed : compute item with
    | error other =>
      rw [computed] at failed
      cases failed
      exact ⟨[], item, items, rfl, by simp, computed⟩
    | ok value =>
      cases others : items.mapM compute with
      | ok values =>
        rw [computed, others] at failed
        contradiction
      | error other =>
        rw [computed, others] at failed
        cases failed
        obtain ⟨before, bad, after, rfl, good, found⟩ := inductionHypothesis others
        refine ⟨item :: before, bad, after, rfl, ?_, found⟩
        exact List.forall_mem_cons.mpr ⟨⟨value, computed⟩, good⟩

/-- The error of a list is the one of its first bad item. -/
theorem mapM_eq_error_iff {error : Error} :
    items.mapM compute = .error error ↔
      ∃ before item after, items = before ++ item :: after ∧
        (∀ earlier ∈ before, ∃ value, compute earlier = .ok value) ∧
        compute item = .error error := by
  constructor
  · exact exists_first_error
  · rintro ⟨before, item, after, rfl, good, bad⟩
    exact mapM_of_first_error good bad

end RelayLadder.Traversal
