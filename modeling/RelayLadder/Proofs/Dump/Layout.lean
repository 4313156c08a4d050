import RelayLadder.Memory.Dump
import RelayLadder.Proofs.Numeral.Digits

/-!
The layout of a dump, said without the way it is computed: which addresses a line names and
how wide, where the spaces stand between its bits, and that the dump of any number of cells
has these lines and no others.
-/

namespace RelayLadder.Dump

section Pieces

variable {Item : Type} {length : Nat}

/-- A list cut into pieces of one length, of which the last may be shorter. -/
def pieces (length : Nat) (items : List Item) : List (List Item) :=
  (List.range (pieceCount length items.length)).map fun index =>
    (items.drop (index * length)).take length

theorem pieceCount_of_pos (positive : 0 < length) {count : Nat} (some : 0 < count) :
    pieceCount length count = pieceCount length (count - length) + 1 := by
  unfold pieceCount
  by_cases more : length ≤ count
  · have moved : count + (length - 1) = count - length + (length - 1) + length := by omega
    rw [moved, Nat.add_div_right _ positive]
  · have rest : count - length = 0 := by omega
    have whole : count + (length - 1) = (count - 1) + length := by omega
    rw [rest, whole, Nat.add_div_right _ positive, Nat.div_eq_of_lt (by omega),
      Nat.div_eq_of_lt (by omega)]

@[simp] theorem pieces_nil (positive : 0 < length) : pieces length ([] : List Item) = [] := by
  have none : pieceCount length 0 = 0 := Nat.div_eq_of_lt (by omega)
  simp [pieces, none]

/-- A piece and then the pieces of what is left. -/
theorem pieces_of_ne_nil (positive : 0 < length) {items : List Item} (nonempty : items ≠ []) :
    pieces length items = items.take length :: pieces length (items.drop length) := by
  have count := pieceCount_of_pos positive (List.length_pos_iff.mpr nonempty)
  rw [pieces, count, List.range_succ_eq_map, List.map_cons, List.map_map, pieces,
    List.length_drop]
  simp only [Nat.zero_mul, List.drop_zero, List.cons.injEq, true_and]
  apply List.map_congr_left
  intro index _
  simp [List.drop_drop, Nat.succ_mul, Nat.add_comm]

/-- What holds of the empty list, and of a list whenever it holds of all but its first piece,
holds of every list. -/
theorem piecewise {motive : List Item → Prop} (positive : 0 < length) (empty : motive [])
    (more : ∀ items, items ≠ [] → motive (items.drop length) → motive items)
    (items : List Item) : motive items := by
  induction bound : items.length using Nat.strongRecOn generalizing items with
  | ind size inductionHypothesis =>
    by_cases nonempty : items = []
    · exact nonempty ▸ empty
    · apply more items nonempty
      refine inductionHypothesis _ ?_ _ rfl
      have some := List.length_pos_iff.mpr nonempty
      rw [List.length_drop]
      omega

theorem flatten_pieces (positive : 0 < length) (items : List Item) :
    (pieces length items).flatten = items := by
  induction items using piecewise positive with
  | empty => simp [positive]
  | more items nonempty inductionHypothesis =>
    rw [pieces_of_ne_nil positive nonempty, List.flatten_cons, inductionHypothesis,
      List.take_append_drop]

end Pieces

section Bits

/-- The bits of a row as they are written: in groups of four, of which the last may be
shorter, with one space between two groups. -/
inductive Spaced : List Bool → List Char → Prop where
  | last {bits : List Bool} : bits.length ≤ 4 → Spaced bits (bits.map bitChar)
  | group {first rest : List Bool} {text : List Char} :
      first.length = 4 → rest ≠ [] → Spaced rest text →
      Spaced (first ++ rest) (first.map bitChar ++ ' ' :: text)

theorem rowBits_eq (row : List Bool) :
    rowBits row = [' '].intercalate ((pieces groupLength row).map (List.map bitChar)) := by
  simp [rowBits, pieces, Function.comp_def]

theorem rowBits_of_short {row : List Bool} (short : row.length ≤ groupLength) :
    rowBits row = row.map bitChar := by
  have positive : 0 < groupLength := by decide
  rw [rowBits_eq]
  by_cases nonempty : row = []
  · simp [nonempty, positive]
  · rw [pieces_of_ne_nil positive nonempty, List.drop_eq_nil_of_le short, pieces_nil positive,
      List.take_of_length_le short, List.map_singleton, List.intercalate_singleton]

theorem rowBits_of_long {row : List Bool} (long : groupLength < row.length) :
    rowBits row = (row.take groupLength).map bitChar ++ ' ' :: rowBits (row.drop groupLength) := by
  have positive : 0 < groupLength := by decide
  have nonempty : row ≠ [] := List.ne_nil_of_length_pos (Nat.lt_trans positive long)
  have more : row.drop groupLength ≠ [] := by
    rw [Ne, List.drop_eq_nil_iff]
    exact Nat.not_le.mpr long
  rw [rowBits_eq, rowBits_eq, pieces_of_ne_nil positive nonempty, pieces_of_ne_nil positive more,
    List.map_cons, List.map_cons, List.intercalate_cons_cons, List.append_assoc]
  rfl

theorem spaced_rowBits (row : List Bool) : Spaced row (rowBits row) := by
  have positive : 0 < groupLength := by decide
  induction row using piecewise positive with
  | empty => exact .last (Nat.zero_le 4)
  | more row nonempty inductionHypothesis =>
    by_cases short : row.length ≤ groupLength
    · rw [rowBits_of_short short]
      exact .last short
    · have long := Nat.lt_of_not_le short
      have full : (row.take groupLength).length = 4 := by
        rw [List.length_take]
        exact Nat.min_eq_left (Nat.le_of_lt long)
      have more : row.drop groupLength ≠ [] := by
        rw [Ne, List.drop_eq_nil_iff]
        exact short
      have grouped := Spaced.group full more inductionHypothesis
      rwa [List.take_append_drop, ← rowBits_of_long long] at grouped

end Bits

section Lines

variable {width address row : Nat} {bits : List Bool} {text : List Char}

/-- An address as a label shows it: hexadecimal digits in capitals, as many as the width. -/
structure Label (width address : Nat) (text : List Char) : Prop where
  length : text.length = width
  digits : ∀ c ∈ text, c ∈ Numeral.ascending
  value : Numeral.value .hexadecimal text = address

theorem label_hexadecimal (fits : (Numeral.digits .hexadecimal address).length ≤ width) :
    Label width address (hexadecimal width address).toList := by
  rw [hexadecimal, String.toList_ofList]
  refine ⟨?_, ?_, ?_⟩
  · rw [List.length_leftpad]
    exact Nat.max_eq_left fits
  · exact Numeral.ascending_mem_leftpad _ _ _
  · rw [Numeral.value_leftpad, Numeral.value_digits]

/-- A line of a dump, up to its newline: the first and the last address of the row, and its
bits. The last address is named even if the row is not full. -/
inductive Line (width row : Nat) (bits : List Bool) : List Char → Prop where
  | mk {first last text : List Char} :
      Label width (row * 16) first → Label width (row * 16 + 15) last → Spaced bits text →
      Line width row bits (first ++ '-' :: (last ++ ':' :: ' ' :: text))

/-- Every address that a dump names fits the width of its labels. -/
theorem length_digits_le_labelWidth {count : Nat} (shown : row < pieceCount rowLength count)
    (within : address ≤ row * 16 + 15) :
    (Numeral.digits .hexadecimal address).length ≤ labelWidth count := by
  have last : address ≤ lastLabel count := by
    unfold lastLabel
    simp only [rowLength] at shown ⊢
    omega
  apply Nat.le_trans (Numeral.length_digits_le last)
  exact Nat.le_max_right _ _

/-- The cells that a row shows. -/
def rowCells (cells : Array Bool) (row : Nat) : List Bool := (cells.toList.drop (row * 16)).take 16

/-- The line of a row without its newline. -/
def lineText (cells : Array Bool) (row : Nat) : List Char :=
  let width := labelWidth cells.size
  (hexadecimal width (row * 16)).toList ++
    '-' :: ((hexadecimal width (row * 16 + 15)).toList ++
      ':' :: ' ' :: rowBits (rowCells cells row))

def lines (cells : Array Bool) : List (List Char) :=
  (List.range (pieceCount rowLength cells.size)).map (lineText cells)

theorem toList_render (cells : Array Bool) :
    (render cells).toList = (lines cells).flatMap (· ++ ['\n']) := by
  simp [render, lines, lineText, rowText, rowCells, List.flatMap_map, List.extract, rowLength]

theorem length_lines (cells : Array Bool) : (lines cells).length = (cells.size + 15) / 16 := by
  simp [lines, pieceCount, rowLength]

theorem line_lineText {cells : Array Bool} (shown : row < pieceCount rowLength cells.size) :
    Line (labelWidth cells.size) row (rowCells cells row) (lineText cells row) := by
  apply Line.mk
  · exact label_hexadecimal (length_digits_le_labelWidth shown (Nat.le_add_right _ _))
  · exact label_hexadecimal (length_digits_le_labelWidth shown (Nat.le_refl _))
  · exact spaced_rowBits _

end Lines

end RelayLadder.Dump
