/-!
Texts in which every line ends in a newline: they are cut into these lines, and into no
others.
-/

namespace RelayLadder.Text

variable {lines others : List (List Char)}

/-- Lines that each end in a newline are cut apart again, with nothing after the last. -/
theorem splitOn_newlines (uncut : ∀ line ∈ lines, '\n' ∉ line) :
    (lines.flatMap (· ++ ['\n'])).splitOn '\n' = lines ++ [[]] := by
  induction lines with
  | nil => rfl
  | cons line lines inductionHypothesis =>
    obtain ⟨whole, othersUncut⟩ := List.forall_mem_cons.mp uncut
    rw [List.flatMap_cons, List.append_assoc, List.singleton_append,
      List.splitOn_append_cons_self, List.splitOn_eq_singleton whole,
      inductionHypothesis othersUncut]
    rfl

theorem eq_of_newlines (uncut : ∀ line ∈ lines, '\n' ∉ line)
    (othersUncut : ∀ line ∈ others, '\n' ∉ line)
    (same : lines.flatMap (· ++ ['\n']) = others.flatMap (· ++ ['\n'])) : lines = others := by
  have cut := congrArg (List.splitOn '\n') same
  rw [splitOn_newlines uncut, splitOn_newlines othersUncut] at cut
  exact List.append_cancel_right cut

end RelayLadder.Text
