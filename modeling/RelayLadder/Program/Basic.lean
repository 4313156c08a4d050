import RelayLadder.Instruction

/-!
Programs: instructions with the source lines that they stand on, at least one.
-/

namespace RelayLadder

/-- An instruction and its line, counted from one. -/
structure Statement where
  line : Nat
  instruction : Instruction
  deriving DecidableEq

/-- A non-empty sequence of statements. -/
@[ext]
structure Program where
  statements : Array Statement
  nonempty : 0 < statements.size
  deriving DecidableEq

namespace Program

def ofStatements? (statements : List Statement) : Option Program :=
  if nonempty : 0 < statements.toArray.size then some ⟨statements.toArray, nonempty⟩ else none

/-- A program with one instruction a line. -/
def ofInstructions? (instructions : List Instruction) : Option Program :=
  ofStatements? <| instructions.zipIdx.map fun (instruction, index) => ⟨index + 1, instruction⟩

def size (program : Program) : Nat := program.statements.size

theorem size_pos (program : Program) : 0 < program.size := program.nonempty

def get? (program : Program) (index : Nat) : Option Statement := program.statements[index]?

/-- The statement at an index counted around the program. -/
def fetch (program : Program) (index : Nat) : Statement :=
  have bound : index % program.statements.size < program.statements.size :=
    Nat.mod_lt index program.nonempty
  program.statements[index % program.statements.size]

theorem get?_eq_fetch {program : Program} {index : Nat} (bound : index < program.size) :
    program.get? index = some (program.fetch index) := by
  have inside : index < program.statements.size := bound
  simp [get?, fetch, Nat.mod_eq_of_lt inside, inside]

/-- The index after an index, counted around the program. -/
def next (program : Program) (index : Nat) : Nat := (index + 1) % program.size

end Program

/-- A listed statement: the line number in four columns, then the instruction. -/
def Statement.text (statement : Statement) : String :=
  String.ofList ((Numeral.digits .decimal statement.line).leftpad 4 ' ') ++ ": " ++
    statement.instruction.text ++ "\n"

def Program.listing (program : Program) : String :=
  String.join (program.statements.toList.map Statement.text)

end RelayLadder
