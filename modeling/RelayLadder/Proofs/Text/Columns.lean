import Mathlib.Data.List.Forall2

/-!
Columns of text side by side, with one space between two. Where the columns start depends on
their widths alone, so that lines with columns of the same widths are aligned.
-/

namespace RelayLadder.Text

/-- Columns in one line, with a space between two. -/
def sideBySide (columns : List (List Char)) : List Char := [' '].intercalate columns

/-- Columns that stand after another, each with a space in front. -/
def following (columns : List (List Char)) : List Char := columns.flatMap (' ' :: ·)

/-- Where columns of the given widths start, the first of them at a place. -/
def starts (first : Nat) : List Nat → List Nat
  | [] => []
  | width :: widths => first :: starts (first + width + 1) widths

/-- The texts between the spaces of a line. -/
def words (line : List Char) : List (List Char) := (line.splitOn ' ').filter (· ≠ [])

section Lines

variable {columns others : List (List Char)} {c : Char}

theorem following_cons (column : List Char) (others : List (List Char)) :
    following (column :: others) = ' ' :: column ++ following others :=
  List.flatMap_cons

theorem sideBySide_cons (column : List Char) (others : List (List Char)) :
    sideBySide (column :: others) = column ++ following others := by
  induction others generalizing column with
  | nil => simp [sideBySide, following]
  | cons other others inductionHypothesis =>
    rw [sideBySide, List.intercalate_cons_cons, following_cons, ← sideBySide,
      inductionHypothesis other]
    simp

/-- The length of a line is a matter of its widths. -/
theorem length_sideBySide_eq (same : columns.map List.length = others.map List.length) :
    (sideBySide columns).length = (sideBySide others).length := by
  have separated (columns : List (List Char)) :
      (following columns).length = ((columns.map List.length).map (· + 1)).sum := by
    simp [following, List.length_flatMap, Function.comp_def]
  cases columns with
  | nil =>
    obtain rfl := List.map_eq_nil_iff.mp same.symm
    rfl
  | cons column columns =>
    obtain ⟨other, others, rfl, width, widths⟩ := List.map_eq_cons_iff.mp same.symm
    rw [sideBySide_cons, sideBySide_cons, List.length_append, List.length_append, separated,
      separated, width, widths]

theorem not_mem_sideBySide (other : c ≠ ' ') (absent : ∀ column ∈ columns, c ∉ column) :
    c ∉ sideBySide columns := by
  cases columns with
  | nil => exact List.not_mem_nil
  | cons column others =>
    rw [sideBySide_cons, List.mem_append, following, List.mem_flatMap]
    rintro (here | ⟨later, listed, there⟩)
    · exact absent column List.mem_cons_self here
    · rcases List.mem_cons.mp there with space | inside
      · exact other space
      · exact absent later (List.mem_cons_of_mem column listed) inside

/-- The columns of a line can be told from it, if none is empty or has a space inside. -/
theorem words_sideBySide (whole : ∀ column ∈ columns, column ≠ [] ∧ ' ' ∉ column) :
    words (sideBySide columns) = columns := by
  by_cases some : columns = []
  · subst some
    rfl
  · rw [words, sideBySide, List.splitOn_intercalate ' ' (fun _ member => (whole _ member).2) some]
    apply List.filter_eq_self.mpr
    intro column member
    exact decide_eq_true (whole column member).1

end Lines

section Starts

variable {columns : List (List Char)} {widths : List Nat} {first place offset : Nat} {c : Char}

theorem le_of_mem_starts (member : place ∈ starts first widths) : first ≤ place := by
  induction widths generalizing first with
  | nil => contradiction
  | cons width widths inductionHypothesis =>
    rcases List.mem_cons.mp member with rfl | further
    · exact Nat.le_refl place
    · have after := inductionHypothesis further
      omega

theorem starts_increase (first : Nat) (widths : List Nat) :
    (starts first widths).Pairwise (· < ·) := by
  induction widths generalizing first with
  | nil => exact .nil
  | cons width widths inductionHypothesis =>
    apply List.Pairwise.cons ?_ (inductionHypothesis _)
    intro place further
    have after := le_of_mem_starts further
    omega

theorem lt_of_mem_starts_following (whole : ∀ column ∈ columns, column ≠ [])
    (member : place ∈ starts (first + 1) (columns.map List.length)) :
    place < first + (following columns).length := by
  induction columns generalizing first with
  | nil => contradiction
  | cons column others inductionHypothesis =>
    obtain ⟨here, there⟩ := List.forall_mem_cons.mp whole
    have positive := List.length_pos_iff.mpr here
    rw [following_cons, List.length_append, List.length_cons]
    rcases List.mem_cons.mp member with rfl | further
    · omega
    · rw [Nat.add_right_comm first 1] at further
      have inside := inductionHypothesis there further
      omega

/-- Columns that are not empty start before the end of their line. -/
theorem lt_of_mem_starts (whole : ∀ column ∈ columns, column ≠ [])
    (member : place ∈ starts first (columns.map List.length)) :
    place < first + (sideBySide columns).length := by
  cases columns with
  | nil => contradiction
  | cons column others =>
    obtain ⟨here, there⟩ := List.forall_mem_cons.mp whole
    have positive := List.length_pos_iff.mpr here
    rw [sideBySide_cons, List.length_append]
    rcases List.mem_cons.mp member with rfl | further
    · omega
    · have inside := lt_of_mem_starts_following there further
      omega

theorem following_at_starts (before after : List Char) (columns : List (List Char)) :
    List.Forall₂ (fun place column => column <+: (before ++ following columns ++ after).drop place)
      (starts (before.length + 1) (columns.map List.length)) columns := by
  induction columns generalizing before with
  | nil => exact .nil
  | cons column others inductionHypothesis =>
    have parts : before ++ following (column :: others) ++ after =
        before ++ (' ' :: column) ++ following others ++ after := by
      simp [following_cons]
    rw [parts]
    apply List.Forall₂.cons
    · have here : before ++ (' ' :: column) ++ following others ++ after =
          (before ++ [' ']) ++ (column ++ (following others ++ after)) := by simp
      rw [here, List.drop_left' (by simp)]
      exact List.prefix_append _ _
    · have rest := inductionHypothesis (before ++ ' ' :: column)
      have length : (before ++ ' ' :: column).length = before.length + 1 + column.length := by
        simp [Nat.add_right_comm, Nat.add_assoc]
      rwa [length] at rest

/-- At each of its starts a line has a column, whatever stands before and after the line. -/
theorem columns_at_starts (before after : List Char) (columns : List (List Char)) :
    List.Forall₂ (fun place column => column <+: (before ++ sideBySide columns ++ after).drop place)
      (starts before.length (columns.map List.length)) columns := by
  cases columns with
  | nil => exact .nil
  | cons column others =>
    rw [sideBySide_cons]
    apply List.Forall₂.cons
    · rw [List.append_assoc, List.append_assoc, List.drop_left]
      exact List.prefix_append _ _
    · have rest := following_at_starts (before ++ column) after others
      rwa [List.length_append, List.append_assoc before] at rest

theorem blank_in_tail {column : List Char} (padded : ∀ c ∈ column.tail, c = ' ')
    (found : column[offset]? = some c) (further : offset ≠ 0) : c = ' ' := by
  obtain ⟨place, rfl⟩ := Nat.exists_eq_succ_of_ne_zero further
  apply padded
  apply List.mem_of_getElem?
  rwa [List.getElem?_tail]

theorem blank_off_starts_following (padded : ∀ column ∈ columns, ∀ c ∈ column.tail, c = ' ')
    (found : (following columns)[offset]? = some c)
    (other : first + offset ∉ starts (first + 1) (columns.map List.length)) : c = ' ' := by
  induction columns generalizing first offset with
  | nil => contradiction
  | cons column others inductionHypothesis =>
    obtain ⟨here, there⟩ := List.forall_mem_cons.mp padded
    rw [List.map_cons, starts, List.mem_cons, not_or] at other
    obtain ⟨notFirst, further⟩ := other
    rw [following_cons, List.getElem?_append] at found
    split at found
    next =>
      cases offset with
      | zero => exact (Option.some.inj found).symm
      | succ place => exact blank_in_tail here found (by omega)
    next beyond =>
      rw [List.length_cons] at beyond found
      have place : first + 1 + column.length + (offset - (column.length + 1)) = first + offset := by
        omega
      rw [← place] at further
      exact inductionHypothesis there found further

/-- Off its starts a line is blank, if its columns are blank but for their first characters. -/
theorem blank_off_starts (padded : ∀ column ∈ columns, ∀ c ∈ column.tail, c = ' ')
    (found : (sideBySide columns)[offset]? = some c)
    (other : first + offset ∉ starts first (columns.map List.length)) : c = ' ' := by
  cases columns with
  | nil => contradiction
  | cons column others =>
    obtain ⟨here, there⟩ := List.forall_mem_cons.mp padded
    rw [List.map_cons, starts, List.mem_cons, not_or] at other
    obtain ⟨notFirst, further⟩ := other
    rw [sideBySide_cons, List.getElem?_append] at found
    split at found
    · exact blank_in_tail here found (by omega)
    · have place : first + column.length + (offset - column.length) = first + offset := by omega
      rw [← place] at further
      exact blank_off_starts_following there found further

end Starts

end RelayLadder.Text
