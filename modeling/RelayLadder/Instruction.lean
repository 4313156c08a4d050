import RelayLadder.Opcode

/-!
Instructions and their written form.
-/

namespace RelayLadder

/-- The letter that names the memory bank in an operand. -/
def bankLetter : Char := 'M'

/-- Whether a letter names a bank. -/
def namesBank (letter : Char) : Bool := letter == bankLetter

/-- The label of a cell: the bank letter and at least three hexadecimal digits. -/
def cellLabel (address : Nat) : String :=
  String.singleton bankLetter ++ hexadecimal 3 address

/-- An opcode with the address that was written after it, if any. Whether the
opcode wants an address is checked when the instruction runs. -/
structure Instruction where
  opcode : Opcode
  operand : Option Nat := none
  deriving DecidableEq

def Instruction.text (instruction : Instruction) : String :=
  match instruction.operand with
  | none => instruction.opcode.mnemonic
  | some address => instruction.opcode.mnemonic ++ " " ++ cellLabel address

end RelayLadder
