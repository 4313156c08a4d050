/-!
Reasons to refuse a command line.
-/

namespace RelayLadder

/-- Why a command line is not carried out. -/
inductive Refusal where
  /-- Help was asked for. -/
  | help
  | missingCommand
  | unknownCommand
  | unknownArgument
  | missingArgument
  /-- An option without a value, or with a value outside its list. -/
  | invalidValue
  /-- Two arguments that exclude each other, or one given twice. -/
  | conflict
  /-- A value given to an option that takes none. -/
  | unexpectedValue
  /-- A value that cannot be read, with the reader's message. -/
  | rejected (cause : String)
  deriving DecidableEq

/-- The exit code of a refused command line. -/
def Refusal.exitCode : Refusal → Nat
  | .help => 0
  | _ => 2

end RelayLadder
