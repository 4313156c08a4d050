import RelayLadder.Source.Program

/-!
The demonstration programs.
-/

namespace RelayLadder

inductive Demo where
  /-- Copies one cell to another and then inverts it, so it alternates from scan to scan. -/
  | selfToggle
  /-- Three branches merged on the stack and gated by one cell. -/
  | logicChain
  deriving DecidableEq

namespace Demo

/-- The name on the command line. -/
def name : Demo → String
  | selfToggle => "self-toggle"
  | logicChain => "logic-chain"

def ofName? (name : String) : Option Demo :=
  [selfToggle, logicChain].find? fun demo => demo.name == name

def source : Demo → String
  | selfToggle => "LD M000\nOUT M001\nLDNOT M000\nOUT M000\n"
  | logicChain =>
    "LD M000\nANDNOT M001\nLD M010\nAND M011\nORSTACK\n" ++
    "LDNOT M002\nAND M003\nLDNOT M012\nAND M013\nLD M022\nAND M023\nORSTACK\nORSTACK\n" ++
    "ANDSTACK\nAND M004\nOUT M100\n"

def program (demo : Demo) : Except SourceError Program := Source.parse demo.source

/-- The cells that the logic chain reads. -/
def logicChainInputs : List Nat :=
  [0x000, 0x001, 0x002, 0x003, 0x004, 0x010, 0x011, 0x012, 0x013, 0x022, 0x023]

/-- The cell that the logic chain writes. -/
def logicChainOutput : Nat := 0x100

end Demo

end RelayLadder
