import RelayLadder.Numeral

/-!
Reasons to reject the source text of a program.
-/

namespace RelayLadder

inductive SourceError where
  /-- The line is not a mnemonic with at most one operand. -/
  | malformed (line : Nat)
  | unknownOpcode (line : Nat) (name : String)
  | unknownBank (line : Nat) (letter : Char)
  /-- The address does not fit a word. -/
  | addressOverflow (line : Nat)
  | emptyProgram
  deriving DecidableEq

namespace SourceError

private def atLine (line : Nat) : String := " [Line: " ++ decimal line ++ "]"

def message : SourceError → String
  | malformed line => "Syntax Error" ++ atLine line
  | unknownOpcode line name => "Unknown opcode `" ++ name ++ "`" ++ atLine line
  | unknownBank line letter =>
    "Unknown memory bank `" ++ String.singleton letter ++ "`" ++ atLine line
  | addressOverflow line => "Address overflow" ++ atLine line
  | emptyProgram => "Program has no instructions"

end SourceError

end RelayLadder
