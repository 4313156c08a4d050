import RelayLadder.Execution
import RelayLadder.Program.Basic

/-!
The scan engine: a program run around and around on two-bank memory. A fault
latches, and nothing runs again before the engine is reset.
-/

namespace RelayLadder

/-- When the two banks change roles. -/
inductive TogglePolicy where
  /-- After every instruction. -/
  | perInstruction
  /-- When a scan is complete, so that its writes show in the next scan. -/
  | perScan
  deriving DecidableEq

/-- The memory after an instruction, which may have completed a scan. -/
def TogglePolicy.settle : TogglePolicy → Bool → Memory → Memory
  | .perInstruction, _, memory => memory.toggle
  | .perScan, true, memory => memory.commit
  | .perScan, false, memory => memory

structure Config where
  bankSize : Nat := Memory.defaultSize
  bounds : Bounds := .inclusive
  toggle : TogglePolicy := .perInstruction
  /-- The most steps that a scan may take, if there is a limit. -/
  stepLimit : Option Nat := none
  deriving DecidableEq

/-- The state of a running program. -/
@[ext]
structure Engine where
  program : Program
  memory : Memory
  stack : Stack
  /-- The index of the next instruction; zero between scans. -/
  pc : Nat
  toggle : TogglePolicy
  stepLimit : Option Nat
  steps : Nat
  scans : Nat
  /-- The fault that halts the engine. -/
  fault : Option Fault
  deriving DecidableEq

namespace Engine

/-- The state in which an engine runs on given memory for the first time. -/
def ofMemory (program : Program) (config : Config) (memory : Memory) : Engine where
  program := program
  memory := memory
  stack := .empty
  pc := 0
  toggle := config.toggle
  stepLimit := config.stepLimit
  steps := 0
  scans := 0
  fault := none

/-- A new engine with blank memory. -/
def start (program : Program) (config : Config) : Engine :=
  ofMemory program config (.blank config.bankSize config.bounds)

/-- A new engine, if its banks can be allocated. -/
def start? (program : Program) (config : Config) : Except Failure Engine :=
  match Memory.allocate? config.bankSize config.bounds with
  | some memory => .ok (ofMemory program config memory)
  | none => .error .unallocatable

theorem start?_eq_ok {program : Program} {config : Config}
    (fits : config.bounds.cells config.bankSize ≤ Memory.longestBank) :
    start? program config = .ok (start program config) := by
  simp [start?, start, Memory.allocate?, fits]

def isHalted (engine : Engine) : Bool := engine.fault.isSome

/-- The index after an instruction that ran: zero after the end of a scan. -/
def nextIndex (engine : Engine) (opcode : Opcode) : Nat :=
  if opcode = .finish then 0 else engine.program.next engine.pc

/-- The engine after an instruction that left the given memory and stack. -/
def advance (engine : Engine) (opcode : Opcode) (memory : Memory) (stack : Stack) : Engine :=
  let pc := engine.nextIndex opcode
  { engine with
    memory := engine.toggle.settle (decide (pc = 0)) memory
    stack := stack
    pc := pc
    steps := engine.steps + 1
    scans := if pc = 0 then engine.scans + 1 else engine.scans }

/-- The engine with a fault latched, at the index after it. -/
def latch (engine : Engine) (fault : Fault) : Engine :=
  { engine with pc := engine.program.next engine.pc, fault := some fault }

/-- Runs the next instruction. -/
def step (engine : Engine) : Except Failure Unit × Engine :=
  match engine.fault with
  | some fault => (.error (.halted fault), engine)
  | none =>
    let statement := engine.program.fetch engine.pc
    match statement.instruction.perform.run (engine.memory, engine.stack) with
    | .ok _ (memory, stack) => (.ok (), engine.advance statement.instruction.opcode memory stack)
    | .error kind (memory, stack) =>
      let fault := ⟨engine.pc, statement.line, statement.instruction, kind⟩
      (.error (.fault fault), { engine with memory, stack }.latch fault)

theorem step_of_fault {engine : Engine} {fault : Fault} (latched : engine.fault = some fault) :
    engine.step = (.error (.halted fault), engine) := by
  simp [step, latched]

/-- Runs a number of instructions, up to the first failure. -/
def stepMany : Nat → Engine → Except Failure Unit × Engine
  | 0, engine => (.ok (), engine)
  | count + 1, engine =>
    match engine.step with
    | (.ok (), next) => stepMany count next
    | (.error failure, next) => (.error failure, next)

/-- Runs to the end of the scan within a remaining number of steps, counting on
from the steps already taken. -/
def scanOn (limit : Nat) : (remaining taken : Nat) → Engine → Except Failure Nat × Engine
  | 0, _, engine => (.error (.stepLimit limit), engine)
  | remaining + 1, taken, engine =>
    match engine.step with
    | (.ok (), next) =>
      if next.pc = 0 then (.ok (taken + 1), next) else scanOn limit remaining (taken + 1) next
    | (.error failure, next) => (.error failure, next)

/-- Runs to the end of the scan in at most the given number of steps, and answers
how many were taken. The limit counts before the latch: with no step allowed a
halted engine exceeds it too. -/
def scanWithin (limit : Nat) (engine : Engine) : Except Failure Nat × Engine :=
  scanOn limit limit 0 engine

/-- Runs to the end of the scan. Without a limit the program's length is enough,
since the index comes around in that many steps. -/
def scan (engine : Engine) : Except Failure Nat × Engine :=
  engine.scanWithin (engine.stepLimit.getD engine.program.size)

/-- The value of a live cell. -/
def read (engine : Engine) (address : Nat) : Except Failure Bool :=
  (engine.memory.read address).mapError .outOfBounds

/-- Forces a cell in both banks. -/
def setInput (engine : Engine) (address : Nat) (value : Bool) : Except Failure Engine :=
  match engine.memory.setInput address value with
  | .ok memory => .ok { engine with memory }
  | .error error => .error (.outOfBounds error)

def clearMemory (engine : Engine) : Engine :=
  { engine with memory := engine.memory.clear }

/-- Goes back to the start of the run and releases the latch; the cells are kept. -/
def reset (engine : Engine) : Engine :=
  { engine with
    memory := engine.memory.resetMode
    stack := .empty
    pc := 0
    steps := 0
    scans := 0
    fault := none }

end Engine

end RelayLadder
