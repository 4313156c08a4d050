import RelayLadder.Memory.Basic
import RelayLadder.Instruction

/-!
Faults of single instructions, and the failures of the operations built on them.
-/

namespace RelayLadder

/-- Why an instruction cannot run. -/
inductive FaultKind where
  | missingArgument
  | unexpectedArgument
  | outOfBounds (error : OutOfBounds)
  | stack (violation : DepthViolation)
  deriving DecidableEq

def FaultKind.message : FaultKind → String
  | .missingArgument => "memory argument required"
  | .unexpectedArgument => "no argument expected"
  | .outOfBounds error => error.message
  | .stack violation => violation.message

/-- An instruction that could not run, with its place in the program and in the source. -/
structure Fault where
  index : Nat
  line : Nat
  instruction : Instruction
  kind : FaultKind
  deriving DecidableEq

def Fault.message (fault : Fault) : String :=
  "logic fault at line " ++ decimal fault.line ++ " (`" ++ fault.instruction.text ++ "`): " ++
    fault.kind.message

/-- Why a request to an engine, or to several of them, fails. -/
inductive Failure where
  /-- The instruction just run faulted. -/
  | fault (cause : Fault)
  /-- An earlier fault is still latched. -/
  | halted (cause : Fault)
  | stepLimit (limit : Nat)
  | outOfBounds (error : OutOfBounds)
  | tableTooWide (inputs max : Nat)
  /-- The banks are longer than memory can hold. -/
  | unallocatable
  deriving DecidableEq

def Failure.message : Failure → String
  | .fault cause => cause.message
  | .halted cause => "engine halted: " ++ cause.message
  | .stepLimit limit => "scan exceeded step limit of " ++ decimal limit
  | .outOfBounds error => error.message
  | .tableTooWide inputs max =>
    "truth table over " ++ decimal inputs ++ " inputs exceeds the maximum of " ++ decimal max
  | .unallocatable => "capacity overflow"

end RelayLadder
