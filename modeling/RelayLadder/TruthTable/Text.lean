import RelayLadder.Memory.Dump
import RelayLadder.TruthTable.Basic

/-!
Truth tables as text: a line of cell labels, then a line for each row with every
value under the start of its label. A bar stands between inputs and outputs.
-/

namespace RelayLadder.TruthTable

/-- A value in a column of the width of its label. -/
def column (label : String) (value : Bool) : String :=
  String.ofList ([Dump.bitChar value].rightpad label.length ' ')

/-- One side of a row. -/
def columns (labels : List String) (values : List Bool) : String :=
  " ".intercalate (List.zipWith column labels values)

def line (inputs outputs : String) : String := inputs ++ " | " ++ outputs ++ "\n"

/-- The whole table of the given cells. -/
def text (inputs outputs : List Nat) (rows : List Row) : String :=
  let inputLabels := inputs.map cellLabel
  let outputLabels := outputs.map cellLabel
  let header := line (" ".intercalate inputLabels) (" ".intercalate outputLabels)
  header ++ String.join (rows.map fun row =>
    line (columns inputLabels row.inputs) (columns outputLabels row.outputs))

end RelayLadder.TruthTable
