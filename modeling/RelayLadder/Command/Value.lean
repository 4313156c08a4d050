import RelayLadder.Instruction

/-!
Values on the command line: cell addresses, and assignments of a cell.
-/

namespace RelayLadder

/-- A text that is no address, and what is wrong with its digits. -/
structure AddressError where
  text : List Char
  reason : NumeralError
  deriving DecidableEq

def AddressError.message (error : AddressError) : String :=
  "Invalid address '" ++ String.ofList error.text ++ "': " ++ error.reason.message

/-- An address without the bank letter that may stand before it. -/
def dropBankLetter : List Char → List Char
  | [] => []
  | c :: rest => if c = bankLetter then rest else c :: rest

/-- Reads an address: hexadecimal digits, with or without the bank letter. -/
def readAddress (text : List Char) : Except AddressError Nat :=
  (Numeral.read .hexadecimal wordLimit (dropBankLetter text)).mapError (⟨text, ·⟩)

/-- Why a text is no assignment. -/
inductive AssignmentError where
  /-- There is no equals sign. -/
  | form (text : List Char)
  | value (text : List Char)
  | address (error : AddressError)
  deriving DecidableEq

def AssignmentError.message : AssignmentError → String
  | .form text => "Invalid input '" ++ String.ofList text ++ "', expected ADDR=0|1"
  | .value text => "Invalid input value '" ++ String.ofList text ++ "', expected 0 or 1"
  | .address error => error.message

/-- The truth value of a digit or a word. -/
def readBit? (text : List Char) : Option Bool :=
  if text = "0".toList ∨ text = "false".toList then some false
  else if text = "1".toList ∨ text = "true".toList then some true
  else none

/-- Reads an assignment: an address, an equals sign and a truth value. The text
is cut at the first equals sign, and the value is judged before the address. -/
def readAssignment (text : List Char) : Except AssignmentError (Nat × Bool) :=
  match text.dropWhile (· ≠ '=') with
  | [] => .error (.form text)
  | _ :: value =>
    match readBit? value with
    | none => .error (.value value)
    | some bit =>
      match readAddress (text.takeWhile (· ≠ '=')) with
      | .ok address => .ok (address, bit)
      | .error error => .error (.address error)

end RelayLadder
