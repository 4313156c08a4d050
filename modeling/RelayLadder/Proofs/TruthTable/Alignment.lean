import RelayLadder.Command.Session
import RelayLadder.Proofs.Bench.Assignment
import RelayLadder.Proofs.Command.Values
import RelayLadder.Proofs.Dump.Decode
import RelayLadder.Proofs.Text.Columns
import RelayLadder.Proofs.TruthTable.Complete

/-!
Printed tables are aligned: every value stands under the first character of its label, and
the bar of every line under the bar of the header. So a printed table can be read back.
-/

namespace RelayLadder

/-- A row has a value for each cell of its table. -/
def Row.Fits (row : Row) (inputs outputs : List Nat) : Prop :=
  row.inputs.length = inputs.length ∧ row.outputs.length = outputs.length

namespace Bench

variable {bench : Bench} {inputs : List Nat} {rows : List Row} {row : Row}

theorem rows_of_truthTable (table : bench.truthTable inputs = .ok rows) :
    bench.rows inputs = rows.map .ok := by
  have narrow : inputs.length ≤ widestTable := by
    by_contra wide
    rw [truthTable, if_pos (Nat.lt_of_not_le wide)] at table
    contradiction
  have collected : Collected (bench.rows inputs) (bench.truthTable inputs) :=
    collected_truthTable narrow
  rw [table] at collected
  cases collected with
  | ok computed => exact computed

theorem fits_of_mem_truthTable (table : bench.truthTable inputs = .ok rows)
    (member : row ∈ rows) : row.Fits inputs bench.outputs := by
  have result : .ok row ∈ bench.rows inputs := by
    rw [rows_of_truthTable table]
    exact List.mem_map_of_mem member
  obtain ⟨number, _, computed⟩ := List.mem_map.mp result
  obtain ⟨values, ran⟩ := row_eq_ok_iff.mp computed
  obtain ⟨_, _, _, shown⟩ := inside_of_run ran
  refine ⟨?_, shown⟩
  rw [values, length_binary]

/-- The cells of a table are there, so that their addresses fit a word. -/
theorem small_of_truthTable (table : bench.truthTable inputs = .ok rows) :
    (∀ address ∈ inputs, address < 2 ^ 64) ∧ ∀ address ∈ bench.outputs, address < 2 ^ 64 := by
  obtain ⟨_, _, ran⟩ := row_of_rows (rows_of_truthTable table) (Nat.two_pow_pos inputs.length)
  obtain ⟨fits, inside, found, _⟩ := inside_of_run ran
  have short : Memory.longestBank < 2 ^ 64 := by decide
  have names : (inputs.zip (binary inputs.length 0)).map Prod.fst = inputs := by
    rw [List.map_fst_zip]
    rw [length_binary]
  constructor
  · intro address member
    rw [← names] at member
    obtain ⟨entry, listed, rfl⟩ := List.mem_map.mp member
    exact Nat.lt_trans (Nat.lt_of_lt_of_le (inside entry listed) fits) short
  · intro address member
    exact Nat.lt_trans (Nat.lt_of_lt_of_le (found address member) fits) short

end Bench

namespace TruthTable

open Text

/-- The labels of cells. -/
def labels (cells : List Nat) : List (List Char) :=
  cells.map fun address => (cellLabel address).toList

/-- Values, each in a column of the width of its label. -/
def valueColumns (cells : List Nat) (values : List Bool) : List (List Char) :=
  (cells.zip values).map fun entry => (column (cellLabel entry.1) entry.2).toList

/-- Columns on both sides of a bar. -/
def barred (left right : List (List Char)) : List Char :=
  sideBySide left ++ ' ' :: '|' :: ' ' :: sideBySide right

/-- The first line of a table. -/
def header (inputs outputs : List Nat) : List Char := barred (labels inputs) (labels outputs)

/-- The line of a row. -/
def rowLine (inputs outputs : List Nat) (row : Row) : List Char :=
  barred (valueColumns inputs row.inputs) (valueColumns outputs row.outputs)

/-- The texts before the bar of a header. -/
def inputLabels (header : List Char) : List (List Char) :=
  words (header.take (header.idxOf '|' - 1))

/-- The texts after the bar of a header. -/
def outputLabels (header : List Char) : List (List Char) :=
  words (header.drop (header.idxOf '|' + 2))

/-- Where the lines of a table have their values and their bar. -/
structure Layout where
  inputs : List Nat
  bar : Nat
  outputs : List Nat
  deriving DecidableEq

namespace Layout

/-- The places of the first characters of the labels in a header, and the place of its bar. -/
def of (header : List Char) : Layout where
  inputs := starts 0 ((inputLabels header).map List.length)
  bar := header.idxOf '|'
  outputs := starts (header.idxOf '|' + 2) ((outputLabels header).map List.length)

/-- The layout of a line with these columns. -/
def ofColumns (left right : List (List Char)) : Layout where
  inputs := starts 0 (left.map List.length)
  bar := (sideBySide left).length + 1
  outputs := starts ((sideBySide left).length + 3) (right.map List.length)

/-- All places, from left to right. -/
def places (layout : Layout) : List Nat := layout.inputs ++ layout.bar :: layout.outputs

/-- A header has the labels of its cells at the places of the layout. -/
structure Heads (layout : Layout) (inputs outputs : List Nat) (header : List Char) : Prop where
  inputs : List.Forall₂ (fun place address => (cellLabel address).toList <+: header.drop place)
    layout.inputs inputs
  separator : [' ', '|', ' '] <+: header.drop (layout.bar - 1)
  outputs : List.Forall₂ (fun place address => (cellLabel address).toList <+: header.drop place)
    layout.outputs outputs
  ordered : layout.places.Pairwise (· < ·)

/-- A line has the values of its row at the places of the layout, and is blank elsewhere. -/
structure Shows (layout : Layout) (row : Row) (text : List Char) : Prop where
  inputs : List.Forall₂ (fun place value => text[place]? = some (Dump.bitChar value))
    layout.inputs row.inputs
  separator : [' ', '|', ' '] <+: text.drop (layout.bar - 1)
  outputs : List.Forall₂ (fun place value => text[place]? = some (Dump.bitChar value))
    layout.outputs row.outputs
  blank : ∀ place c, text[place]? = some c → place ∉ layout.places → c = ' '

end Layout

/-- The values that stand at some places of a line. -/
def valuesAt (places : List Nat) (text : List Char) : List Bool :=
  places.filterMap fun place => text[place]?.bind Dump.bit?

/-- Reads a line with values at the places of a layout. -/
def Layout.read (layout : Layout) (text : List Char) : Row :=
  ⟨valuesAt layout.inputs text, valuesAt layout.outputs text⟩

/-- Reads a table back: its input cells, its output cells and its rows. -/
def decode (text : String) : Except AddressError (List Nat × List Nat × List Row) := do
  let lines := text.toList.splitOn '\n'
  let header := lines.headD []
  let inputs ← (inputLabels header).mapM readAddress
  let outputs ← (outputLabels header).mapM readAddress
  pure (inputs, outputs, lines.tail.dropLast.map (Layout.of header).read)

section Lines

variable {left right otherLeft otherRight : List (List Char)}

theorem length_barred (left right : List (List Char)) :
    (barred left right).length = (sideBySide left).length + 3 + (sideBySide right).length := by
  simp only [barred, List.length_append, List.length_cons]
  omega

theorem newline_not_mem_barred (uncutLeft : ∀ column ∈ left, '\n' ∉ column)
    (uncutRight : ∀ column ∈ right, '\n' ∉ column) : '\n' ∉ barred left right := by
  have before := not_mem_sideBySide (by decide) uncutLeft
  have after := not_mem_sideBySide (by decide) uncutRight
  simp [barred, before, after]

theorem idxOf_bar (noBar : ∀ column ∈ left, '|' ∉ column) :
    (barred left right).idxOf '|' = (sideBySide left).length + 1 := by
  rw [barred, List.idxOf_append_of_notMem (not_mem_sideBySide (by decide) noBar)]
  simp

theorem inputLabels_barred (noBar : ∀ column ∈ left, '|' ∉ column)
    (whole : ∀ column ∈ left, column ≠ [] ∧ ' ' ∉ column) :
    inputLabels (barred left right) = left := by
  rw [inputLabels, idxOf_bar noBar, Nat.add_sub_cancel, barred, List.take_left,
    words_sideBySide whole]

theorem outputLabels_barred (noBar : ∀ column ∈ left, '|' ∉ column)
    (whole : ∀ column ∈ right, column ≠ [] ∧ ' ' ∉ column) :
    outputLabels (barred left right) = right := by
  have rest : (barred left right).drop ((sideBySide left).length + 3) = sideBySide right := by
    simp [barred, List.drop_append]
  rw [outputLabels, idxOf_bar noBar, Nat.add_assoc, rest, words_sideBySide whole]

namespace Layout

theorem ofColumns_congr (sameLeft : left.map List.length = otherLeft.map List.length)
    (sameRight : right.map List.length = otherRight.map List.length) :
    ofColumns left right = ofColumns otherLeft otherRight := by
  rw [ofColumns, ofColumns, sameLeft, sameRight, length_sideBySide_eq sameLeft]

theorem bar_ofColumns (left right : List (List Char)) :
    (ofColumns left right).bar = (sideBySide left).length + 1 :=
  rfl

theorem inputs_ofColumns (left right : List (List Char)) :
    List.Forall₂ (fun place column => column <+: (barred left right).drop place)
      (ofColumns left right).inputs left :=
  columns_at_starts [] (' ' :: '|' :: ' ' :: sideBySide right) left

theorem outputs_ofColumns (left right : List (List Char)) :
    List.Forall₂ (fun place column => column <+: (barred left right).drop place)
      (ofColumns left right).outputs right := by
  have shown := columns_at_starts (sideBySide left ++ [' ', '|', ' ']) [] right
  simpa [barred, ofColumns] using shown

theorem separator_ofColumns (left right : List (List Char)) :
    [' ', '|', ' '] <+: (barred left right).drop ((ofColumns left right).bar - 1) := by
  rw [bar_ofColumns, Nat.add_sub_cancel, barred, List.drop_left]
  exact ⟨sideBySide right, rfl⟩

theorem ordered_ofColumns (whole : ∀ column ∈ left, column ≠ []) :
    (ofColumns left right).places.Pairwise (· < ·) := by
  rw [places, List.pairwise_append, List.pairwise_cons, bar_ofColumns]
  refine ⟨starts_increase _ _, ⟨?_, starts_increase _ _⟩, ?_⟩
  · intro place member
    have after := le_of_mem_starts member
    omega
  · intro place member other further
    have before := lt_of_mem_starts whole member
    rcases List.mem_cons.mp further with rfl | further
    · omega
    · have after := le_of_mem_starts further
      omega

/-- Columns that are blank but for their first characters leave the rest of a line blank. -/
theorem blank_ofColumns {place : Nat} {c : Char}
    (paddedLeft : ∀ column ∈ left, ∀ c ∈ column.tail, c = ' ')
    (paddedRight : ∀ column ∈ right, ∀ c ∈ column.tail, c = ' ')
    (found : (barred left right)[place]? = some c) (other : place ∉ (ofColumns left right).places) :
    c = ' ' := by
  rw [places, List.mem_append, List.mem_cons, not_or, not_or, bar_ofColumns] at other
  obtain ⟨noInput, noBar, noOutput⟩ := other
  rw [barred, List.getElem?_append] at found
  split at found
  next =>
    rw [← Nat.zero_add place] at noInput
    exact blank_off_starts paddedLeft found noInput
  next beyond =>
    obtain ⟨offset, rfl⟩ := Nat.exists_eq_add_of_le (Nat.le_of_not_lt beyond)
    rw [Nat.add_sub_cancel_left] at found
    -- The separator takes three places, and its bar is one of the layout's.
    rcases offset with _ | _ | _ | offset
    · exact (Option.some.inj found).symm
    · contradiction
    · exact (Option.some.inj found).symm
    · have place : (sideBySide left).length + (offset + 3) =
          (sideBySide left).length + 3 + offset := by omega
      rw [place] at noOutput
      exact blank_off_starts paddedRight found noOutput

end Layout

end Lines

section Cells

variable {cells places : List Nat} {values : List Bool} {text : List Char} {c : Char}

theorem not_mem_labels (other : c ≠ 'M') (noDigit : c ∉ Numeral.ascending) (cells : List Nat) :
    ∀ label ∈ labels cells, c ∉ label := by
  intro label member
  obtain ⟨address, -, rfl⟩ := List.mem_map.mp member
  exact not_mem_cellLabel other noDigit address

theorem whole_labels (cells : List Nat) : ∀ label ∈ labels cells, label ≠ [] ∧ ' ' ∉ label := by
  intro label member
  refine ⟨?_, not_mem_labels (by decide) (by decide) cells label member⟩
  obtain ⟨address, -, rfl⟩ := List.mem_map.mp member
  rw [Source.toList_cellLabel]
  exact List.cons_ne_nil _ _

theorem readAddress_labels (small : ∀ address ∈ cells, address < 2 ^ 64) :
    (labels cells).mapM readAddress = .ok cells := by
  apply Traversal.mapM_eq_ok_iff.mpr
  rw [labels, List.forall₂_map_left_iff, List.forall₂_same]
  intro address member
  rw [Source.toList_cellLabel]
  exact readAddress_addressDigits (small address member) (.inr rfl)

theorem toList_column (label : String) (value : Bool) :
    (column label value).toList =
      Dump.bitChar value :: List.replicate (label.length - 1) ' ' := by
  simp [column, List.rightpad]

theorem padded_valueColumns (cells : List Nat) (values : List Bool) :
    ∀ column ∈ valueColumns cells values, ∀ c ∈ column.tail, c = ' ' := by
  intro text member c padding
  obtain ⟨entry, -, rfl⟩ := List.mem_map.mp member
  rw [toList_column] at padding
  exact List.eq_of_mem_replicate padding

theorem newline_not_mem_valueColumns (cells : List Nat) (values : List Bool) :
    ∀ column ∈ valueColumns cells values, '\n' ∉ column := by
  intro text member
  obtain ⟨⟨address, value⟩, -, rfl⟩ := List.mem_map.mp member
  rw [toList_column]
  cases value <;> simp [Dump.bitChar]

/-- Values are as wide as their labels, if none is missing. -/
theorem width_valueColumns (fits : values.length = cells.length) :
    (valueColumns cells values).map List.length = (labels cells).map List.length := by
  have names : (cells.zip values).map Prod.fst = cells := List.map_fst_zip fits.ge
  have width (entry : Nat × Bool) :
      (column (cellLabel entry.1) entry.2).toList.length = (cellLabel entry.1).toList.length := by
    rw [toList_column, List.length_cons, List.length_replicate, ← String.length_toList,
      Source.toList_cellLabel, List.length_cons, Nat.add_sub_cancel]
  conv_rhs => rw [← names]
  simp [valueColumns, labels, width]

theorem getElem?_of_prefix_drop {place : Nat} {rest : List Char}
    (stands : c :: rest <+: text.drop place) : text[place]? = some c := by
  obtain ⟨after, split⟩ := stands
  have first := congrArg List.head? split
  rwa [List.head?_drop, eq_comm] at first

/-- Where the columns of values stand, there are the values themselves. -/
theorem values_of_columns (fits : values.length = cells.length)
    (shown : List.Forall₂ (fun place column => column <+: text.drop place) places
      (valueColumns cells values)) :
    List.Forall₂ (fun place value => text[place]? = some (Dump.bitChar value)) places values := by
  have own : (cells.zip values).map Prod.snd = values := List.map_snd_zip fits.le
  rw [← own, List.forall₂_map_right_iff]
  rw [valueColumns, List.forall₂_map_right_iff] at shown
  apply shown.imp
  intro place entry stands
  rw [toList_column] at stands
  exact getElem?_of_prefix_drop stands

theorem valuesAt_eq
    (shown : List.Forall₂ (fun place value => text[place]? = some (Dump.bitChar value))
      places values) : valuesAt places text = values := by
  have read (value : Bool) : Dump.bit? (Dump.bitChar value) = some value := by
    cases value <;> rfl
  induction shown with
  | nil => rfl
  | cons here there inductionHypothesis =>
    rw [valuesAt, List.filterMap_cons_some (by rw [here, Option.bind_some, read])]
    exact congrArg _ inductionHypothesis

end Cells

theorem Layout.Shows.read_eq {layout : Layout} {row : Row} {text : List Char}
    (shown : layout.Shows row text) : layout.read text = row := by
  rw [read, valuesAt_eq shown.inputs, valuesAt_eq shown.outputs]

section Tables

variable {inputs outputs : List Nat} {row : Row} {rows : List Row}

theorem toList_text (inputs outputs : List Nat) (rows : List Row) :
    (text inputs outputs rows).toList =
      (header inputs outputs :: rows.map (rowLine inputs outputs)).flatMap (· ++ ['\n']) := by
  have top (cells : List Nat) :
      (" ".intercalate (cells.map cellLabel)).toList = sideBySide (labels cells) := by
    simp [String.toList_intercalate, sideBySide, labels, Function.comp_def]
  have side (cells : List Nat) (values : List Bool) :
      (columns (cells.map cellLabel) values).toList = sideBySide (valueColumns cells values) := by
    simp [columns, String.toList_intercalate, sideBySide, valueColumns, Function.comp_def,
      ← List.map_uncurry_zip_eq_zipWith, Function.uncurry_def, List.zip_map_left]
  simp [text, line, header, rowLine, barred, top, side, List.flatMap_map]

theorem newline_not_mem_lines (inputs outputs : List Nat) (rows : List Row) :
    ∀ line ∈ header inputs outputs :: rows.map (rowLine inputs outputs), '\n' ∉ line := by
  rw [List.forall_mem_cons]
  constructor
  · exact newline_not_mem_barred (not_mem_labels (by decide) (by decide) inputs)
      (not_mem_labels (by decide) (by decide) outputs)
  · intro line member
    obtain ⟨row, -, rfl⟩ := List.mem_map.mp member
    exact newline_not_mem_barred (newline_not_mem_valueColumns _ _)
      (newline_not_mem_valueColumns _ _)

/-- The labels of a header can be told from it. -/
theorem labels_of_header (inputs outputs : List Nat) :
    inputLabels (header inputs outputs) = labels inputs ∧
      outputLabels (header inputs outputs) = labels outputs := by
  have noBar := not_mem_labels (c := '|') (by decide) (by decide) inputs
  exact ⟨inputLabels_barred noBar (whole_labels inputs),
    outputLabels_barred noBar (whole_labels outputs)⟩

theorem layout_of_header (inputs outputs : List Nat) :
    Layout.of (header inputs outputs) = .ofColumns (labels inputs) (labels outputs) := by
  have noBar := not_mem_labels (c := '|') (by decide) (by decide) inputs
  obtain ⟨before, after⟩ := labels_of_header inputs outputs
  rw [Layout.of, before, after, header, idxOf_bar noBar, Layout.ofColumns]

theorem heads_header (inputs outputs : List Nat) :
    (Layout.of (header inputs outputs)).Heads inputs outputs (header inputs outputs) := by
  rw [layout_of_header]
  refine ⟨?_, Layout.separator_ofColumns _ _, ?_, ?_⟩
  · exact List.forall₂_map_right_iff.mp (Layout.inputs_ofColumns (labels inputs) (labels outputs))
  · exact List.forall₂_map_right_iff.mp (Layout.outputs_ofColumns (labels inputs) (labels outputs))
  · exact Layout.ordered_ofColumns fun label member => (whole_labels inputs label member).1

theorem length_rowLine (fits : row.Fits inputs outputs) :
    (rowLine inputs outputs row).length = (header inputs outputs).length := by
  rw [rowLine, header, length_barred, length_barred,
    length_sideBySide_eq (width_valueColumns fits.1),
    length_sideBySide_eq (width_valueColumns fits.2)]

/-- The line of a row is aligned with the header, since it has columns of the same widths. -/
theorem shows_rowLine (fits : row.Fits inputs outputs) :
    (Layout.of (header inputs outputs)).Shows row (rowLine inputs outputs row) := by
  have same : Layout.of (header inputs outputs) =
      .ofColumns (valueColumns inputs row.inputs) (valueColumns outputs row.outputs) := by
    rw [layout_of_header,
      Layout.ofColumns_congr (width_valueColumns fits.1) (width_valueColumns fits.2)]
  rw [same]
  refine ⟨?_, Layout.separator_ofColumns _ _, ?_, ?_⟩
  · exact values_of_columns fits.1 (Layout.inputs_ofColumns _ _)
  · exact values_of_columns fits.2 (Layout.outputs_ofColumns _ _)
  · intro place c found other
    exact Layout.blank_ofColumns (padded_valueColumns _ _) (padded_valueColumns _ _) found other

theorem decode_text (fits : ∀ row ∈ rows, row.Fits inputs outputs)
    (smallInputs : ∀ address ∈ inputs, address < 2 ^ 64)
    (smallOutputs : ∀ address ∈ outputs, address < 2 ^ 64) :
    decode (text inputs outputs rows) = .ok (inputs, outputs, rows) := by
  have lines : (text inputs outputs rows).toList.splitOn '\n' =
      header inputs outputs :: (rows.map (rowLine inputs outputs) ++ [[]]) := by
    rw [toList_text, splitOn_newlines (newline_not_mem_lines inputs outputs rows)]
    rfl
  have read : (rows.map (rowLine inputs outputs)).map (Layout.of (header inputs outputs)).read =
      rows := by
    rw [List.map_map]
    apply (List.map_congr_left ?_).trans (List.map_id rows)
    intro row member
    exact (shows_rowLine (fits row member)).read_eq
  obtain ⟨before, after⟩ := labels_of_header inputs outputs
  simp only [decode, lines, List.headD_cons, List.tail_cons, List.dropLast_concat, before, after,
    readAddress_labels smallInputs, readAddress_labels smallOutputs, read]
  rfl

end Tables

end TruthTable

section Printing

open TruthTable

/-- A printed table is aligned with its header and can be read back, whatever the lengths of
its labels; where there is no table, nothing is printed. The header and the lines of the
rows, in order, are as long as each other. Under the first character of a label stands the
value of its cell, under the bar of the header a bar, and nothing anywhere else. From the
labels the cells are read again, and from the places below them the rows. -/
theorem TablePlan.text_aligned_and_decodable (plan : TablePlan) (program : Program) :
    let bench : Bench :=
      { program, config := plan.config, scans := plan.scans, outputs := plan.outputs }
    let header := header plan.inputs plan.outputs
    let layout := Layout.of header
    (∀ failure, bench.truthTable plan.inputs = .error failure →
      plan.text program = .error failure) ∧
    ∀ rows, bench.truthTable plan.inputs = .ok rows →
      ∃ (text : String) (lines : List (List Char)),
        plan.text program = .ok text ∧
        text.toList = (header :: lines).flatMap (· ++ ['\n']) ∧
        (∀ line ∈ header :: lines, '\n' ∉ line) ∧
        layout.Heads plan.inputs plan.outputs header ∧
        List.Forall₂ (fun row line => line.length = header.length ∧ layout.Shows row line)
          rows lines ∧
        decode text = .ok (plan.inputs, plan.outputs, rows) := by
  intro bench header layout
  refine ⟨?failure, ?table⟩
  case failure =>
    intro failure failed
    rw [TablePlan.text, failed]
    rfl
  case table =>
    intro rows table
    have fits : ∀ row ∈ rows, row.Fits plan.inputs plan.outputs :=
      fun row member => Bench.fits_of_mem_truthTable table member
    obtain ⟨smallInputs, smallOutputs⟩ := Bench.small_of_truthTable table
    refine ⟨_, rows.map (rowLine plan.inputs plan.outputs), ?_, toList_text _ _ rows,
      newline_not_mem_lines _ _ rows, heads_header _ _, ?_,
      decode_text fits smallInputs smallOutputs⟩
    · rw [TablePlan.text, table]
      rfl
    · rw [List.forall₂_map_right_iff, List.forall₂_same]
      intro row member
      exact ⟨length_rowLine (fits row member), shows_rowLine (fits row member)⟩

/-- A longer label before another, and a table that cannot be made. -/
theorem TablePlan.text_aligned_and_decodable_with_longer_label :
    let program : Program := ⟨#[⟨1, ⟨.load true, some 0⟩⟩, ⟨2, ⟨.out, some 1⟩⟩], by decide⟩
    let plan : TablePlan := ⟨.file "negation", { bankSize := 0x1000 }, [0], [0x1000, 1], 1⟩
    let broken : TablePlan := { plan with outputs := [0x1001] }
    let layout : Layout := ⟨[0], 5, [7, 13]⟩
    let rows : List Row := [⟨[false], [false, true]⟩, ⟨[true], [false, false]⟩]
    broken.text program = .error (.outOfBounds ⟨0x1001, 0x1000, .inclusive⟩) ∧
    ∃ (text : String) (lines : List (List Char)),
      plan.text program = .ok text ∧
      text.toList = ("M000 | M1000 M001".toList :: lines).flatMap (· ++ ['\n']) ∧
      List.Forall₂ (fun row line => line.length = 17 ∧ layout.Shows row line) rows lines ∧
      decode text = .ok ([0], [0x1000, 1], rows) := by
  intro program plan broken layout rows
  have table : Bench.truthTable ⟨program, plan.config, 1, plan.outputs⟩ plan.inputs =
      .ok rows := by decide +kernel
  have refused : Bench.truthTable ⟨program, plan.config, 1, broken.outputs⟩ plan.inputs =
      .error (.outOfBounds ⟨0x1001, 0x1000, .inclusive⟩) := by decide +kernel
  have first : header plan.inputs plan.outputs = "M000 | M1000 M001".toList := by decide +kernel
  have places : Layout.of "M000 | M1000 M001".toList = layout := by decide +kernel
  obtain ⟨text, lines, printed, split, -, -, shown, decoded⟩ :=
    (TablePlan.text_aligned_and_decodable plan program).2 rows table
  rw [first] at split shown
  rw [places] at shown
  exact ⟨(TablePlan.text_aligned_and_decodable broken program).1 _ refused,
    text, lines, printed, split, shown, decoded⟩

end Printing

end RelayLadder
