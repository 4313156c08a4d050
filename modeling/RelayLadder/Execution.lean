import RelayLadder.Fault

/-!
The effect of one instruction on memory and stack. Checks come first: the
operand against the opcode, its address against the banks, then the stack depth.
A failure does not take back what was done before it.
-/

namespace RelayLadder

/-- Work on memory and stack. Where it fails, it gives what it has made of them so far. -/
abbrev Execution := EStateM FaultKind (Memory × Stack)

namespace Execution

/-- Looks at memory and stack and changes neither. -/
def observe {Value : Type} (view : Memory → Stack → Except FaultKind Value) : Execution Value :=
  fun (memory, stack) =>
    match view memory stack with
    | .ok value => .ok value (memory, stack)
    | .error kind => .error kind (memory, stack)

def push (value : Bool) : Execution Unit :=
  fun (memory, stack) => .ok () (memory, stack.push value)

/-- Takes the top value off the stack. -/
def pop : Execution Bool :=
  fun (memory, stack) =>
    match stack.pop with
    | .ok (value, rest) => .ok value (memory, rest)
    | .error violation => .error (.stack violation) (memory, stack)

/-- Stores a value in the pending bank. -/
def write (address : Nat) (value : Bool) : Execution Unit :=
  fun (memory, stack) =>
    match memory.write address value with
    | .ok memory => .ok () (memory, stack)
    | .error error => .error (.outOfBounds error) (memory, stack)

section Runs

variable {Value Result : Type} {first : Execution Value} {next : Value → Execution Result}
variable {view : Memory → Stack → Except FaultKind Value} {before after : Memory × Stack}
variable {memory : Memory} {stack : Stack} {value : Value} {kind : FaultKind}

theorem run_bind_of_ok (ran : first.run before = .ok value after) :
    (first >>= next).run before = (next value).run after := by
  unfold EStateM.run at ran
  simp only [EStateM.run, bind, EStateM.bind, ran]

theorem run_bind_of_error (failed : first.run before = .error kind after) :
    (first >>= next).run before = .error kind after := by
  unfold EStateM.run at failed
  simp only [EStateM.run, bind, EStateM.bind, failed]

theorem run_observe_of_ok (seen : view memory stack = .ok value) :
    (observe view).run (memory, stack) = .ok value (memory, stack) := by
  simp only [EStateM.run, observe, seen]

theorem run_observe_of_error (refused : view memory stack = .error kind) :
    (observe view).run (memory, stack) = .error kind (memory, stack) := by
  simp only [EStateM.run, observe, refused]

/-- Two looks in a row are one. -/
theorem observe_bind (view : Memory → Stack → Except FaultKind Unit)
    (other : Memory → Stack → Except FaultKind Value) (next : Value → Execution Result) :
    (observe view >>= fun _ => observe other >>= next) =
      observe (fun memory stack => view memory stack >>= fun _ => other memory stack) >>= next := by
  funext ⟨memory, stack⟩
  simp only [bind, EStateM.bind, observe]
  cases view memory stack <;> rfl

theorem run_write_of_inside {address : Nat} (inside : address < memory.cells) (value : Bool)
    (stack : Stack) :
    (write address value).run (memory, stack) =
      .ok () (memory.setPending address value, stack) := by
  have written : memory.write address value = .ok (memory.setPending address value) :=
    if_pos inside
  simp only [EStateM.run, write, written]

end Runs

end Execution

namespace Instruction

open Execution

/-- Checks that an address is present exactly when the opcode takes one, and that
the memory has it. -/
def checkOperand (instruction : Instruction) (memory : Memory) : Except FaultKind Unit :=
  match instruction.opcode.takesAddress, instruction.operand with
  | true, some address =>
    match memory.check address with
    | .ok _ => .ok ()
    | .error error => .error (.outOfBounds error)
  | true, none => .error .missingArgument
  | false, some _ => .error .unexpectedArgument
  | false, none => .ok ()

/-- The cell that an instruction names. -/
def cell (instruction : Instruction) (memory : Memory) : Except FaultKind Bool :=
  match instruction.operand with
  | some address => (memory.read address).mapError .outOfBounds
  | none => .error .missingArgument

/-- What the instruction does once the checks have passed. -/
def effect (instruction : Instruction) : Execution Unit :=
  match instruction.opcode with
  | .finish => pure ()
  | .load inverted => do
    let value ← observe fun memory _ => instruction.cell memory
    push (value ^^ inverted)
  | .out =>
    match instruction.operand with
    | none => throw .missingArgument
    | some address => do
      let value ← pop
      write address value
  | .combine gate inverted => do
    let top ← pop
    let value ← observe fun memory _ => instruction.cell memory
    push (gate.apply top value ^^ inverted)
  | .merge gate => do
    let first ← pop
    let second ← pop
    push (gate.apply first second)

/-- Runs an instruction on memory and stack. -/
def perform (instruction : Instruction) : Execution Unit := do
  observe fun memory _ => instruction.checkOperand memory
  observe fun _ stack => (stack.check instruction.opcode.rule).mapError .stack
  instruction.effect

end Instruction

end RelayLadder
