import RelayLadder.Proofs.Source.Acceptance

/-!
The numbers of the lines that are not blank. They grow from the first to the last, and a
line that is not blank comes after as many others as its place among them says.
-/

namespace RelayLadder.Source

variable {first : Nat} {raws : List (List Char)} {entry : Entry}

theorem length_entriesFrom (first : Nat) (raws : List (List Char)) :
    (entriesFrom first raws).length = raws.countP fun raw => Text.trim raw ≠ [] := by
  induction raws generalizing first with
  | nil => simp [entriesFrom]
  | cons raw raws inductionHypothesis =>
    by_cases blank : Text.trim raw = [] <;> simp [entriesFrom_cons, blank, inductionHypothesis]

theorem mem_entriesFrom_iff :
    entry ∈ entriesFrom first raws ↔
      ∃ raw, (raw, entry.line) ∈ raws.zipIdx first ∧ Text.trim raw = entry.text ∧
        entry.text ≠ [] := by
  rcases entry with ⟨line, text⟩
  simp only [entriesFrom, List.mem_filter, List.mem_map, Prod.exists, Entry.mk.injEq,
    decide_eq_true_eq]
  grind

theorem exists_entry_of_line {raw : List Char} (member : raw ∈ raws)
    (written : Text.trim raw ≠ []) :
    ∃ entry ∈ entriesFrom first raws, entry.text = Text.trim raw := by
  obtain ⟨index, found⟩ := List.mem_iff_getElem?.mp member
  refine ⟨⟨first + index, Text.trim raw⟩, mem_entriesFrom_iff.mpr ⟨raw, ?_, rfl, written⟩, rfl⟩
  simp [List.mk_mem_zipIdx_iff_le_and_getElem?_sub, found]

/-- Lines are numbered in their order. -/
theorem entriesFrom_increase (first : Nat) (raws : List (List Char)) :
    (entriesFrom first raws).Pairwise fun left right => left.line < right.line := by
  induction raws generalizing first with
  | nil => simp [entriesFrom]
  | cons raw raws inductionHypothesis =>
    rw [entriesFrom_cons]
    split
    · exact inductionHypothesis (first + 1)
    · apply List.Pairwise.cons ?_ (inductionHypothesis (first + 1))
      intro later member
      obtain ⟨other, numbered, -, -⟩ := mem_entriesFrom_iff.mp member
      exact List.le_snd_of_mem_zipIdx numbered

/-- An entry at a place among the entries is a line below all those that gave the entries
before it. -/
theorem exists_line_of_entry {before after : List Entry}
    (found : entriesFrom first raws = before ++ entry :: after) :
    ∃ above raw below, raws = above ++ raw :: below ∧ entriesFrom first above = before ∧
      entry = ⟨first + above.length, Text.trim raw⟩ ∧ Text.trim raw ≠ [] := by
  induction raws generalizing first before with
  | nil => simp [entriesFrom] at found
  | cons raw raws inductionHypothesis =>
    rw [entriesFrom_cons] at found
    split at found
    · rename_i blank
      obtain ⟨above, line, below, rfl, entries, rfl, written⟩ := inductionHypothesis found
      refine ⟨raw :: above, line, below, rfl, ?_, ?_, written⟩
      · simpa [entriesFrom_cons, blank] using entries
      · simp [Nat.add_comm, Nat.add_left_comm]
    · rename_i written
      cases before with
      | nil =>
        obtain ⟨rfl, -⟩ := List.cons.inj found
        exact ⟨[], raw, raws, rfl, rfl, rfl, written⟩
      | cons head before =>
        obtain ⟨rfl, others⟩ := List.cons.inj found
        obtain ⟨above, line, below, rfl, entries, rfl, alsoWritten⟩ := inductionHypothesis others
        refine ⟨raw :: above, line, below, rfl, ?_, ?_, alsoWritten⟩
        · simpa [entriesFrom_cons, written] using entries
        · simp [Nat.add_comm, Nat.add_left_comm]

end RelayLadder.Source
