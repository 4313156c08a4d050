import RelayLadder.Engine.Request
import RelayLadder.Proofs.Instruction.Effect
import RelayLadder.Proofs.Program.Body

/-!
One step of an engine, said once: it is halted, or its next statement objects, or
the statement runs. Everything about runs is derived from these three cases.
-/

namespace RelayLadder

@[simp] theorem TogglePolicy.extent_settle (policy : TogglePolicy) (completed : Bool)
    (memory : Memory) : (policy.settle completed memory).extent = memory.extent := by
  cases policy <;> cases completed <;> rfl

namespace Engine

/-- The statement that the engine runs next. -/
def statement (engine : Engine) : Statement := engine.program.fetch engine.pc

/-- Why the next statement cannot run. -/
def objection? (engine : Engine) : Option FaultKind :=
  engine.statement.instruction.objection? engine.memory.extent engine.stack.depth

def blame (engine : Engine) (kind : FaultKind) : Fault :=
  ⟨engine.pc, engine.statement.line, engine.statement.instruction, kind⟩

def store? (engine : Engine) : Option (Nat × Bool) :=
  engine.statement.instruction.store? engine.stack

/-- The engine after its next statement has run. -/
def stepped (engine : Engine) : Engine :=
  engine.advance engine.statement.instruction.opcode (engine.memory.put engine.store?)
    (engine.statement.instruction.evaluate engine.memory.liveAt engine.stack)

section Step

variable {engine next : Engine}

theorem step_of_accepted (running : engine.fault = none) (accepted : engine.objection? = none) :
    engine.step = (.ok (), engine.stepped) := by
  have performed := engine.statement.instruction.perform_eq engine.memory engine.stack
  unfold objection? at accepted
  rw [accepted] at performed
  unfold statement at performed
  simp only [step, running, performed]
  rfl

theorem step_of_objection {kind : FaultKind} (running : engine.fault = none)
    (refused : engine.objection? = some kind) :
    engine.step = (.error (.fault (engine.blame kind)), engine.latch (engine.blame kind)) := by
  have performed := engine.statement.instruction.perform_eq engine.memory engine.stack
  unfold objection? at refused
  rw [refused] at performed
  unfold statement at performed
  simp only [step, running, performed]
  rfl

theorem step_eq_ok_iff :
    engine.step = (.ok (), next) ↔
      engine.fault = none ∧ engine.objection? = none ∧ next = engine.stepped := by
  cases latched : engine.fault with
  | some fault => simp [step_of_fault latched]
  | none =>
    cases decided : engine.objection? with
    | none => simp [step_of_accepted latched decided, eq_comm]
    | some kind => simp [step_of_objection latched decided]

theorem exists_objection_of_step_error {failure : Failure} (running : engine.fault = none)
    (failed : engine.step = (.error failure, next)) :
    ∃ kind, failure = .fault (engine.blame kind) ∧ next = engine.latch (engine.blame kind) := by
  cases decided : engine.objection? with
  | none => simp [step_of_accepted running decided] at failed
  | some kind =>
    rw [step_of_objection running decided] at failed
    cases failed
    exact ⟨kind, rfl, rfl⟩

/-- What the engine has, and what its next statement keeps or its objection keeps, is kept by
a step. -/
theorem keeps_step (Kept : Engine → Prop) (kept : Kept engine)
    (stepped : engine.fault = none → engine.objection? = none → Kept engine.stepped)
    (latched : ∀ kind, engine.fault = none → engine.objection? = some kind →
      Kept (engine.latch (engine.blame kind))) :
    Kept engine.step.2 := by
  cases halted : engine.fault with
  | some fault =>
    rw [step_of_fault halted]
    exact kept
  | none =>
    cases decided : engine.objection? with
    | none =>
      rw [step_of_accepted halted decided]
      exact stepped halted decided
    | some kind =>
      rw [step_of_objection halted decided]
      exact latched kind halted decided

theorem stepMany_of_step_ok (stepped : engine.step = (.ok (), next)) (count : Nat) :
    engine.stepMany (count + 1) = next.stepMany count := by
  simp only [stepMany, stepped]

theorem stepMany_of_step_error {failure : Failure} (failed : engine.step = (.error failure, next))
    (count : Nat) : engine.stepMany (count + 1) = (.error failure, next) := by
  simp only [stepMany, failed]

/-- Several steps succeed exactly when the first does and the others do after it. -/
theorem stepMany_succ_eq_ok_iff {count : Nat} :
    engine.stepMany (count + 1) = (.ok (), next) ↔
      engine.fault = none ∧ engine.objection? = none ∧
        engine.stepped.stepMany count = (.ok (), next) := by
  cases latched : engine.fault with
  | some fault => simp [stepMany_of_step_error (step_of_fault latched)]
  | none =>
    cases decided : engine.objection? with
    | none => simp [stepMany_of_step_ok (step_of_accepted latched decided)]
    | some kind => simp [stepMany_of_step_error (step_of_objection latched decided)]

theorem scanOn_of_step_ok (stepped : engine.step = (.ok (), next))
    (limit remaining taken : Nat) :
    engine.scanOn limit (remaining + 1) taken =
      if next.pc = 0 then (.ok (taken + 1), next)
      else next.scanOn limit remaining (taken + 1) := by
  simp only [scanOn, stepped]

theorem scanOn_of_step_error {failure : Failure} (failed : engine.step = (.error failure, next))
    (limit remaining taken : Nat) :
    engine.scanOn limit (remaining + 1) taken = (.error failure, next) := by
  simp only [scanOn, failed]

end Step

@[simp] theorem program_stepped (engine : Engine) :
    engine.stepped.program = engine.program := rfl

@[simp] theorem fault_stepped (engine : Engine) : engine.stepped.fault = engine.fault := rfl

@[simp] theorem extent_stepped (engine : Engine) :
    engine.stepped.memory.extent = engine.memory.extent := by
  simp [stepped, advance]

theorem pc_stepped (engine : Engine) :
    engine.stepped.pc =
      if engine.statement.instruction.opcode = .finish then 0
      else engine.program.next engine.pc := rfl

theorem depth_stepped {engine : Engine} (accepted : engine.objection? = none) :
    engine.stepped.stack.depth =
      engine.statement.instruction.opcode.depthAfter engine.stack.depth :=
  Instruction.depth_evaluate _ accepted

/-- In the body of its program, an engine goes to the next statement or back to the start. -/
theorem pc_stepped_of_body {engine : Engine} {statement : Statement} {rest : List Statement}
    (ahead : engine.program.body.drop engine.pc = statement :: rest) :
    engine.statement = statement ∧
      engine.stepped.pc = if rest = [] then 0 else engine.pc + 1 := by
  have fetched : engine.statement = statement := Program.fetch_body ahead
  rw [pc_stepped, fetched]
  exact ⟨rfl, Program.next_body ahead⟩

theorem objection?_of_body {engine : Engine} {statement : Statement} {rest : List Statement}
    (ahead : engine.program.body.drop engine.pc = statement :: rest) :
    engine.objection? =
      statement.instruction.objection? engine.memory.extent engine.stack.depth := by
  rw [objection?, (pc_stepped_of_body ahead).1]

theorem ahead_stepped {engine : Engine} {statement : Statement} {rest : List Statement}
    (ahead : engine.program.body.drop engine.pc = statement :: rest) (unfinished : rest ≠ []) :
    engine.stepped.pc = engine.pc + 1 ∧
      engine.stepped.program.body.drop engine.stepped.pc = rest := by
  have index := (pc_stepped_of_body ahead).2
  rw [if_neg unfinished] at index
  rw [index]
  exact ⟨rfl, Program.drop_body_succ ahead⟩

section Banks

variable {engine : Engine}

theorem memory_stepped (engine : Engine) :
    engine.stepped.memory =
      engine.toggle.settle (decide (engine.stepped.pc = 0)) (engine.memory.put engine.store?) :=
  rfl

theorem pendingAt_put_store? (accepted : engine.objection? = none) :
    (engine.memory.put engine.store?).pendingAt =
      Memory.afterStores engine.memory.pendingAt engine.store?.toList :=
  Instruction.pendingAt_put accepted

/-- Under the default policy a step shows the pending bank, with what it stored. -/
theorem liveAt_stepped_of_perInstruction (policy : engine.toggle = .perInstruction)
    (accepted : engine.objection? = none) :
    engine.stepped.memory.liveAt =
      Memory.afterStores engine.memory.pendingAt engine.store?.toList := by
  rw [memory_stepped, policy, ← pendingAt_put_store? accepted]
  rfl

theorem pendingAt_stepped_of_perInstruction (policy : engine.toggle = .perInstruction) :
    engine.stepped.memory.pendingAt = engine.memory.liveAt := by
  rw [memory_stepped, policy, ← engine.memory.liveAt_put engine.store?]
  rfl

/-- Under the per-scan policy a step shows what was stored only if it completes a scan. -/
theorem liveAt_stepped_of_perScan (policy : engine.toggle = .perScan)
    (accepted : engine.objection? = none) :
    engine.stepped.memory.liveAt =
      if engine.stepped.pc = 0 then
        Memory.afterStores engine.memory.pendingAt engine.store?.toList
      else engine.memory.liveAt := by
  rw [memory_stepped, policy, ← pendingAt_put_store? accepted]
  by_cases completed : engine.stepped.pc = 0 <;> simp [completed, TogglePolicy.settle]

theorem pendingAt_stepped_of_perScan (policy : engine.toggle = .perScan)
    (accepted : engine.objection? = none) :
    engine.stepped.memory.pendingAt =
      Memory.afterStores engine.memory.pendingAt engine.store?.toList := by
  rw [memory_stepped, policy, ← pendingAt_put_store? accepted]
  by_cases completed : engine.stepped.pc = 0 <;> simp [completed, TogglePolicy.settle]

end Banks

theorem read_eq_ok {engine : Engine} {address : Nat} (inside : address < engine.memory.cells) :
    engine.read address = .ok (engine.memory.liveAt address) := by
  rw [read, Memory.read_eq_ok inside]
  rfl

theorem setInput_eq_ok_iff {engine next : Engine} {address : Nat} {value : Bool} :
    engine.setInput address value = .ok next ↔
      address < engine.memory.cells ∧
        next = { engine with memory := engine.memory.setBoth address value } := by
  by_cases inside : address < engine.memory.cells <;>
    simp [setInput, Memory.setInput, inside, eq_comm]

theorem serve_setInput (engine : Engine) (address : Nat) (value : Bool) :
    engine.serve (.setInput address value) =
      if address < engine.memory.cells then
        (.ok .done, { engine with memory := engine.memory.setBoth address value })
      else (.error (.outOfBounds (engine.memory.outOfBounds address)), engine) := by
  by_cases inside : address < engine.memory.cells <;>
    simp [serve, setInput, Memory.setInput, inside]

end Engine

end RelayLadder
