import RelayLadder.Fault
import RelayLadder.Source.Error

/-!
The structural text of errors, for the error stream: every constructor and field
by name.
-/

namespace RelayLadder

namespace Inspect

/-- A constructor with named fields. -/
def record (name : String) (fields : List (String × String)) : String :=
  name ++ " \x7b " ++ ", ".intercalate (fields.map fun (field, value) => field ++ ": " ++ value) ++
    " \x7d"

/-- A constructor with one unnamed field. -/
def wrapped (name value : String) : String := name ++ "(" ++ value ++ ")"

/-- A text in quotes. The texts shown are names and fixed messages, in which
nothing needs an escape. -/
def quoted (text : String) : String := "\"" ++ text ++ "\""

end Inspect

open Inspect

def Opcode.identifier : Opcode → String
  | .finish => "End"
  | .load false => "Ld"
  | .load true => "LdNot"
  | .out => "Out"
  | .combine .or false => "Or"
  | .combine .or true => "OrNot"
  | .combine .and false => "And"
  | .combine .and true => "AndNot"
  | .merge .or => "OrStack"
  | .merge .and => "AndStack"

def DepthRule.inspect : DepthRule → String
  | .any => "Any"
  | .exactly depth => wrapped "Exactly" (decimal depth)
  | .atLeast depth => wrapped "AtLeast" (decimal depth)

def DepthViolation.inspect (violation : DepthViolation) : String :=
  record "StackError" [("rule", violation.rule.inspect), ("depth", decimal violation.depth)]

def OutOfBounds.inspect (error : OutOfBounds) : String :=
  record "OutOfBounds"
    [("address", decimal error.address), ("size", decimal error.size),
     ("bounds", error.bounds.name)]

def Instruction.inspect (instruction : Instruction) : String :=
  let operand :=
    match instruction.operand with
    | none => "None"
    | some address =>
      wrapped "Some" (record "Argument" [("bank", "Memory"), ("address", decimal address)])
  record "Instruction" [("opcode", instruction.opcode.identifier), ("arg", operand)]

def FaultKind.inspect : FaultKind → String
  | .missingArgument => "MissingArgument"
  | .unexpectedArgument => "UnexpectedArgument"
  | .outOfBounds error => wrapped "AddressOutOfBounds" error.inspect
  | .stack violation => wrapped "Stack" violation.inspect

def Fault.inspect (fault : Fault) : String :=
  record "Fault"
    [("index", decimal fault.index), ("line", decimal fault.line),
     ("instruction", fault.instruction.inspect), ("kind", fault.kind.inspect)]

def Failure.inspect : Failure → String
  | .fault cause => wrapped "Fault" cause.inspect
  | .halted cause => wrapped "Halted" cause.inspect
  | .stepLimit limit => record "StepLimit" [("limit", decimal limit)]
  | .outOfBounds error => wrapped "OutOfBounds" error.inspect
  | .tableTooWide inputs max =>
    record "TableTooWide" [("inputs", decimal inputs), ("max", decimal max)]
  | .unallocatable => "CapacityOverflow"

def SourceError.inspect : SourceError → String
  | .malformed line => record "Syntax" [("line", decimal line)]
  | .unknownOpcode line name =>
    record "UnknownOpcode" [("line", decimal line), ("name", quoted name)]
  | .unknownBank line letter =>
    record "UnknownBank"
      [("line", decimal line), ("letter", "'" ++ String.singleton letter ++ "'")]
  | .addressOverflow line => record "AddressOverflow" [("line", decimal line)]
  | .emptyProgram => "EmptyProgram"

end RelayLadder
