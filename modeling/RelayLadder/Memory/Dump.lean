import RelayLadder.Memory.Basic

/-!
Memory contents as text: sixteen cells a row in groups of four, each row after
the range of addresses that it covers.
-/

namespace RelayLadder.Dump

def rowLength : Nat := 16

def groupLength : Nat := 4

/-- The number of pieces of a given length that cover a number of items. -/
def pieceCount (length items : Nat) : Nat := (items + (length - 1)) / length

def bitChar (bit : Bool) : Char := if bit then '1' else '0'

/-- The last address that a row label shows for a number of cells. -/
def lastLabel (cells : Nat) : Nat :=
  (pieceCount rowLength cells - 1) * rowLength + (rowLength - 1)

/-- The width of every address in the labels: that of the last one, two at least. -/
def labelWidth (cells : Nat) : Nat :=
  max 2 (Numeral.digits .hexadecimal (lastLabel cells)).length

/-- The bits of a row, with a space between groups. -/
def rowBits (row : List Bool) : List Char :=
  let groups := (List.range (pieceCount groupLength row.length)).map fun group =>
    ((row.drop (group * groupLength)).take groupLength).map bitChar
  [' '].intercalate groups

/-- One line of the dump. -/
def rowText (width start : Nat) (row : List Bool) : String :=
  hexadecimal width start ++ "-" ++ hexadecimal width (start + (rowLength - 1)) ++ ": " ++
    String.ofList (rowBits row) ++ "\n"

/-- The dump of a sequence of cells. -/
def render (cells : Array Bool) : String :=
  let width := labelWidth cells.size
  String.join <| (List.range (pieceCount rowLength cells.size)).map fun row =>
    let start := row * rowLength
    rowText width start (cells.extract start (start + rowLength)).toList

end RelayLadder.Dump

namespace RelayLadder

/-- The dump of the live cells below the size; an inclusive bank has one more,
which is not shown. -/
def Memory.dump (memory : Memory) : String :=
  Dump.render (memory.live.extract 0 memory.size)

end RelayLadder
