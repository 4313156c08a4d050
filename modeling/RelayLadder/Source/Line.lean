import RelayLadder.Instruction
import RelayLadder.Source.Error

/-!
One line of source text: a mnemonic of capital letters, then optionally a gap of
spaces and tabs, one capital letter for the bank, and hexadecimal digits.
-/

namespace RelayLadder.Source

def isGap (c : Char) : Bool := c == ' ' || c == '\t'

def isHexDigit (c : Char) : Bool := (Numeral.digitValue? .hexadecimal c).isSome

/-- The parts of a well-formed line, before any name is looked up. -/
structure RawLine where
  name : List Char
  operand : Option (Char × List Char)
  deriving DecidableEq

/-- The operand after the mnemonic: a gap, a letter, and digits to the end. -/
def readOperand? (text : List Char) : Option (Char × List Char) :=
  match text.takeWhile isGap, text.dropWhile isGap with
  | _ :: _, letter :: digits =>
    if letter.isUpper ∧ digits ≠ [] ∧ digits.all isHexDigit then some (letter, digits) else none
  | _, _ => none

/-- Splits a line into its parts; nothing may be left over. -/
def readRaw? (text : List Char) : Option RawLine :=
  match text.takeWhile Char.isUpper, text.dropWhile Char.isUpper with
  | [], _ => none
  | name, [] => some ⟨name, none⟩
  | name, rest => (readOperand? rest).map fun operand => ⟨name, some operand⟩

/-- Reads one line. Of several faults the first in the order of the line counts:
form, mnemonic, bank, address. -/
def parseLine (line : Nat) (text : List Char) : Except SourceError Instruction :=
  match readRaw? text with
  | none => .error (.malformed line)
  | some raw =>
    let name := String.ofList raw.name
    match Opcode.ofMnemonic? name with
    | none => .error (.unknownOpcode line name)
    | some opcode =>
      match raw.operand with
      | none => .ok { opcode }
      | some (letter, digits) =>
        if namesBank letter then
          match Numeral.read .hexadecimal wordLimit digits with
          | .ok address => .ok { opcode, operand := some address }
          | .error _ => .error (.addressOverflow line)
        else .error (.unknownBank line letter)

end RelayLadder.Source
