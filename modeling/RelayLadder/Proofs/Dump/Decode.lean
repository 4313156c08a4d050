import RelayLadder.Proofs.Dump.Layout
import RelayLadder.Proofs.Engine.Coherence
import RelayLadder.Proofs.Text.Lines

/-!
A dump can be read back. Without its labels and spaces it is the cells that it was made of,
so that no two sequences of cells have one dump; and the dump of an engine's memory tells
every cell below the size as the engine reads it.
-/

namespace RelayLadder

namespace Dump

/-- The bit that a character stands for. -/
def bit? (c : Char) : Option Bool :=
  if c = '0' then some false else if c = '1' then some true else none

/-- The bits of a line: what comes after the label, without the spaces. -/
def lineBits (line : List Char) : List Bool :=
  ((line.dropWhile (· ≠ ':')).drop 1).filterMap bit?

/-- Reads a dump back. -/
def decode (text : String) : List Bool := (text.toList.splitOn '\n').flatMap lineBits

section Lines

variable {width address row : Nat} {bits : List Bool} {text line : List Char} {c : Char}

theorem filterMap_bit?_map (bits : List Bool) : (bits.map bitChar).filterMap bit? = bits := by
  have read : bit? ∘ bitChar = some := by
    funext bit
    cases bit <;> rfl
  rw [List.filterMap_map, read, List.filterMap_some]

theorem Spaced.bits_eq (spaced : Spaced bits text) : text.filterMap bit? = bits := by
  induction spaced with
  | last short => exact filterMap_bit?_map _
  | group full more rest inductionHypothesis =>
    have space : bit? ' ' = none := rfl
    rw [List.filterMap_append, filterMap_bit?_map, List.filterMap_cons_none space,
      inductionHypothesis]

theorem Spaced.newline_not_mem (spaced : Spaced bits text) : '\n' ∉ text := by
  have written (bits : List Bool) : '\n' ∉ bits.map bitChar := by
    intro member
    obtain ⟨bit, -, same⟩ := List.mem_map.mp member
    cases bit <;> contradiction
  induction spaced with
  | last short => exact written _
  | group full more rest inductionHypothesis =>
    rw [List.mem_append, List.mem_cons]
    rintro (first | space | rest)
    · exact written _ first
    · contradiction
    · exact inductionHypothesis rest

/-- Nothing but digits stands in a label. -/
theorem Label.not_mem (label : Label width address text) (other : c ∉ Numeral.ascending) :
    c ∉ text :=
  fun member => other (label.digits c member)

theorem Line.newline_not_mem (written : Line width row bits line) : '\n' ∉ line := by
  obtain ⟨first, last, spaced⟩ := written
  have noDigit : '\n' ∉ Numeral.ascending := by decide
  simpa using ⟨first.not_mem noDigit, last.not_mem noDigit, spaced.newline_not_mem⟩

theorem Line.lineBits_eq (written : Line width row bits line) : lineBits line = bits := by
  obtain @⟨firstText, lastText, text, first, last, spaced⟩ := written
  have noDigit : ':' ∉ Numeral.ascending := by decide
  have labels : ∀ c ∈ firstText ++ '-' :: lastText, decide (c ≠ ':') = true := by
    intro c member
    apply decide_eq_true
    rintro rfl
    simp [first.not_mem noDigit, last.not_mem noDigit] at member
  have parts : firstText ++ '-' :: (lastText ++ ':' :: ' ' :: text) =
      (firstText ++ '-' :: lastText) ++ ':' :: ' ' :: text := by simp
  have space : bit? ' ' = none := rfl
  rw [lineBits, parts, List.dropWhile_append_of_pos labels]
  simpa [List.filterMap_cons_none space] using spaced.bits_eq

end Lines

theorem newline_not_mem_lines (cells : Array Bool) : ∀ line ∈ lines cells, '\n' ∉ line := by
  intro line member
  obtain ⟨row, shown, rfl⟩ := List.mem_map.mp member
  exact (line_lineText (List.mem_range.mp shown)).newline_not_mem

/-- The rows of a dump are the pieces of its cells. -/
theorem map_lineBits_lines (cells : Array Bool) :
    (lines cells).map lineBits = pieces rowLength cells.toList := by
  rw [lines, List.map_map, pieces, Array.length_toList]
  apply List.map_congr_left
  intro row shown
  exact (line_lineText (List.mem_range.mp shown)).lineBits_eq

theorem decode_render (cells : Array Bool) : decode (render cells) = cells.toList := by
  have positive : 0 < rowLength := by decide
  rw [decode, toList_render, Text.splitOn_newlines (newline_not_mem_lines cells),
    List.flatMap_append, List.flatMap_def, map_lineBits_lines, flatten_pieces positive]
  exact List.append_nil _

theorem render_injective : Function.Injective render := by
  intro left right same
  have decoded := congrArg decode same
  rw [decode_render, decode_render] at decoded
  exact Array.toList_inj.mp decoded

end Dump

namespace Memory

theorem size_le_cells (memory : Memory) : memory.size ≤ memory.cells := by
  rw [cells]
  cases memory.bounds with
  | inclusive => exact Nat.le_succ memory.size
  | strict => exact Nat.le_refl memory.size

/-- The dump of a memory has a bit for every cell below the size, and none for the cell that
inclusive bounds add. -/
theorem decode_dump (memory : Memory) :
    Dump.decode memory.dump = (List.range memory.size).map memory.liveAt := by
  have enough := memory.size_le_cells
  rw [dump, Dump.decode_render]
  apply List.ext_getElem
  · simpa using enough
  · intro address shown listed
    have below : address < memory.size := by simpa using listed
    have inside : address < memory.live.size := by
      rw [memory.size_live]
      exact Nat.lt_of_lt_of_le below enough
    simp [liveAt, Array.getElem?_eq_getElem inside]

end Memory

namespace Dump

/-- A dump has a line for every sixteen cells, with labels of one width that all of them fit
and the bits of these cells in groups of four; read back, it is the cells. So different cells
have different dumps, and at any time the dump of an engine tells what it reads. -/
theorem dump_decodes_to_cells :
    (∀ cells : Array Bool, ∃ (width : Nat) (lines : List (List Char)),
      2 ≤ width ∧
      (render cells).toList = lines.flatMap (· ++ ['\n']) ∧ (∀ line ∈ lines, '\n' ∉ line) ∧
      lines.length = (cells.size + 15) / 16 ∧
      (∀ (row : Nat) (line : List Char), lines[row]? = some line →
        Line width row ((cells.toList.drop (row * 16)).take 16) line) ∧
      decode (render cells) = cells.toList) ∧
    Function.Injective render ∧
    ∀ (program : Program) (config : Config) (requests : List Request),
      let engine := (Engine.start program config).serveAll requests
      (decode engine.memory.dump).map .ok = (List.range config.bankSize).map engine.read := by
  refine ⟨?layout, render_injective, ?engine⟩
  case layout =>
    intro cells
    refine ⟨labelWidth cells.size, lines cells, Nat.le_max_left _ _, toList_render cells,
      newline_not_mem_lines cells, length_lines cells, ?_, decode_render cells⟩
    intro row line found
    rw [lines, List.getElem?_map, Option.map_eq_some_iff] at found
    obtain ⟨shown, place, rfl⟩ := found
    obtain ⟨bound, rfl⟩ := List.getElem?_eq_some_iff.mp place
    rw [List.getElem_range]
    exact line_lineText (by simpa using bound)
  case engine =>
    intro program config requests engine
    have coherent : Engine.Coherent program config engine := .of_history program config requests
    have size : engine.memory.size = config.bankSize := congrArg Extent.size coherent.extent_eq
    rw [engine.memory.decode_dump, size, List.map_map]
    apply List.map_congr_left
    intro address member
    have below : address < engine.memory.size := by
      rw [size]
      exact List.mem_range.mp member
    have inside := Nat.lt_of_lt_of_le below engine.memory.size_le_cells
    exact (Engine.read_eq_ok inside).symm

/-- Eighteen cells take a full line and one of two bits. -/
theorem dump_decodes_to_eighteen_cells :
    let cells := Array.replicate 18 true
    ∃ width first second, 2 ≤ width ∧
      (render cells).toList = first ++ '\n' :: (second ++ ['\n']) ∧
      Line width 0 (List.replicate 16 true) first ∧ Line width 1 [true, true] second ∧
      decode (render cells) = List.replicate 18 true := by
  intro cells
  obtain ⟨width, lines, wide, text, -, count, shown, decoded⟩ := dump_decodes_to_cells.1 cells
  have two : lines.length = 2 := by simpa [cells] using count
  obtain ⟨first, second, rfl⟩ := List.length_eq_two.mp two
  refine ⟨width, first, second, wide, ?_, shown 0 first rfl, shown 1 second rfl, ?_⟩
  · simpa using text
  · rw [decoded]
    rfl

end Dump

end RelayLadder
