import Mathlib.Data.Bool.Basic
import RelayLadder.Execution
import RelayLadder.Proofs.Memory.Cells

/-!
One instruction in closed form. Whether it can run is decided by its operand, the
extent of the memory and the stack depth alone; once it can, it replaces the stack
and stores at most one value.
-/

namespace RelayLadder

/-- The stack depth after an opcode that was admitted at a depth. -/
def Opcode.depthAfter : Opcode → Nat → Nat
  | .finish, depth | .combine _ _, depth => depth
  | .load _, depth => depth + 1
  | .out, depth | .merge _, depth => depth - 1

/-- The memory with an optional store made in its pending bank. -/
def Memory.put (memory : Memory) : Option (Nat × Bool) → Memory
  | none => memory
  | some (address, value) => memory.setPending address value

@[simp] theorem Memory.extent_put (memory : Memory) (stored : Option (Nat × Bool)) :
    (memory.put stored).extent = memory.extent := by
  cases stored <;> rfl

@[simp] theorem Memory.liveAt_put (memory : Memory) (stored : Option (Nat × Bool)) :
    (memory.put stored).liveAt = memory.liveAt := by
  cases stored <;> rfl

@[simp] theorem Memory.mode_put (memory : Memory) (stored : Option (Nat × Bool)) :
    (memory.put stored).mode = memory.mode := by
  cases stored <;> rfl

namespace Instruction

/-- Why the depth of the stack keeps the instruction from running. -/
def depthObjection? (instruction : Instruction) (depth : Nat) : Option FaultKind :=
  if instruction.opcode.rule.admits depth then none
  else some (.stack ⟨instruction.opcode.rule, depth⟩)

/-- Why the instruction cannot run: its operand is looked at first, then the
address, then the stack depth. -/
def objection? (instruction : Instruction) (extent : Extent) (depth : Nat) : Option FaultKind :=
  match instruction.opcode.takesAddress, instruction.operand with
  | true, none => some .missingArgument
  | false, some _ => some .unexpectedArgument
  | false, none => instruction.depthObjection? depth
  | true, some address =>
    if address < extent.cells then instruction.depthObjection? depth
    else some (.outOfBounds ⟨address, extent.size, extent.bounds⟩)

/-- The address of the cell that the instruction looks at, if it looks at one. -/
def source? (instruction : Instruction) : Option Nat :=
  match instruction.opcode with
  | .load _ | .combine _ _ => instruction.operand
  | .finish | .out | .merge _ => none

/-- The stack after the instruction has run on the given cells. -/
def evaluate (instruction : Instruction) (cells : Nat → Bool) (stack : Stack) : Stack :=
  match instruction.opcode, instruction.operand, stack with
  | .load inverted, some address, stack => (cells address ^^ inverted) :: stack
  | .out, _, _ :: rest => rest
  | .combine gate inverted, some address, top :: rest =>
    (gate.apply top (cells address) ^^ inverted) :: rest
  | .merge gate, _, first :: second :: rest => gate.apply first second :: rest
  | _, _, stack => stack

/-- The address that the instruction stores to, with the value that it pops for it. -/
def store? (instruction : Instruction) (stack : Stack) : Option (Nat × Bool) :=
  match instruction.opcode, instruction.operand, stack with
  | .out, some address, value :: _ => some (address, value)
  | _, _, _ => none

section Accepted

variable {instruction : Instruction} {extent : Extent} {depth : Nat}

theorem admits_of_accepted (accepted : instruction.objection? extent depth = none) :
    instruction.opcode.rule.admits depth = true := by
  unfold objection? depthObjection? at accepted
  grind

theorem operand_of_accepted (accepted : instruction.objection? extent depth = none)
    (addressed : instruction.opcode.takesAddress = true) :
    ∃ address, instruction.operand = some address ∧ address < extent.cells := by
  unfold objection? at accepted
  grind

/-- The operand of an accepted instruction stays accepted at another depth. -/
theorem objection?_of_accepted (accepted : instruction.objection? extent depth = none)
    (other : Nat) :
    instruction.objection? extent other = instruction.depthObjection? other := by
  unfold objection? at accepted ⊢
  grind

end Accepted

section Performance

open Execution

variable {instruction : Instruction} {memory : Memory} {stack : Stack}

theorem cell_of_accepted (accepted : instruction.objection? memory.extent stack.depth = none)
    {address : Nat} (looked : instruction.source? = some address) :
    address < memory.cells ∧ instruction.cell memory = .ok (memory.liveAt address) := by
  have addressed := operand_of_accepted accepted
  have operand : instruction.opcode.takesAddress = true ∧ instruction.operand = some address := by
    unfold source? at looked
    unfold Opcode.takesAddress
    grind
  obtain ⟨present, inside⟩ := addressed operand.1
  rw [operand.2, Option.some.injEq] at inside
  obtain ⟨rfl, inside⟩ := inside
  refine ⟨inside, ?_⟩
  rw [cell, operand.2]
  simp only [Memory.read_eq_ok inside]
  rfl

/-- Once nothing is objected to, nothing fails on the way. -/
theorem effect_eq_ok (accepted : instruction.objection? memory.extent stack.depth = none) :
    instruction.effect.run (memory, stack) =
      .ok () (memory.put (instruction.store? stack), instruction.evaluate memory.liveAt stack) := by
  have admitted := admits_of_accepted accepted
  have addressed := operand_of_accepted accepted
  rcases instruction with ⟨opcode, operand⟩
  cases opcode with
  | finish => rfl
  | load inverted =>
    obtain ⟨address, rfl, inside⟩ := addressed rfl
    have seen := (cell_of_accepted accepted rfl).2
    exact run_bind_of_ok (run_observe_of_ok seen)
  | out =>
    obtain ⟨address, rfl, inside⟩ := addressed rfl
    rcases stack with _ | ⟨value, rest⟩
    · simp [Opcode.rule, DepthRule.admits, Stack.depth] at admitted
    · exact run_write_of_inside inside value rest
  | combine gate inverted =>
    obtain ⟨address, rfl, inside⟩ := addressed rfl
    rcases stack with _ | ⟨top, rest⟩
    · simp [Opcode.rule, DepthRule.admits, Stack.depth] at admitted
    · have seen := (cell_of_accepted accepted rfl).2
      exact run_bind_of_ok (run_observe_of_ok seen)
  | merge gate =>
    rcases stack with _ | ⟨first, _ | ⟨second, rest⟩⟩
    · simp [Opcode.rule, DepthRule.admits, Stack.depth] at admitted
    · simp [Opcode.rule, DepthRule.admits, Stack.depth] at admitted
    · rfl

/-- The checks before the effect make exactly the objections of the instruction. -/
theorem checks_eq (instruction : Instruction) (memory : Memory) (stack : Stack) :
    (do
      instruction.checkOperand memory
      (stack.check instruction.opcode.rule).mapError .stack) =
      match instruction.objection? memory.extent stack.depth with
      | some kind => .error kind
      | none => .ok () := by
  have depthCheck : (stack.check instruction.opcode.rule).mapError .stack =
      match instruction.depthObjection? stack.depth with
      | some kind => .error kind
      | none => .ok () := by
    unfold Stack.check depthObjection?
    by_cases admitted : instruction.opcode.rule.admits stack.depth = true <;>
      simp [admitted, Except.mapError]
  unfold checkOperand objection?
  cases instruction.opcode.takesAddress with
  | false =>
    cases instruction.operand with
    | none => exact depthCheck
    | some address => rfl
  | true =>
    cases instruction.operand with
    | none => rfl
    | some address =>
      by_cases inside : address < memory.cells
      · have passed : memory.check address = .ok address := if_pos inside
        simp only [passed, Memory.cells_extent, inside, if_true]
        exact depthCheck
      · have refused : memory.check address = .error (memory.outOfBounds address) :=
          if_neg inside
        simp only [refused, Memory.cells_extent, inside, if_false]
        rfl

/-- Running an instruction, as its objections and its effect describe it: an objection comes
before anything is changed. -/
theorem perform_eq (instruction : Instruction) (memory : Memory) (stack : Stack) :
    instruction.perform.run (memory, stack) =
      match instruction.objection? memory.extent stack.depth with
      | some kind => .error kind (memory, stack)
      | none =>
        .ok () (memory.put (instruction.store? stack),
          instruction.evaluate memory.liveAt stack) := by
  have checks := checks_eq instruction memory stack
  rw [perform, observe_bind]
  cases decided : instruction.objection? memory.extent stack.depth with
  | none =>
    rw [decided] at checks
    exact (run_bind_of_ok (run_observe_of_ok checks)).trans (effect_eq_ok decided)
  | some kind =>
    rw [decided] at checks
    exact run_bind_of_error (run_observe_of_error checks)

theorem depth_evaluate (cells : Nat → Bool)
    (accepted : instruction.objection? memory.extent stack.depth = none) :
    (instruction.evaluate cells stack).depth = instruction.opcode.depthAfter stack.depth := by
  have admitted := admits_of_accepted accepted
  have addressed := operand_of_accepted accepted
  rcases instruction with ⟨opcode, operand⟩
  cases opcode with
  | finish => rfl
  | load inverted =>
    obtain ⟨address, rfl, _⟩ := addressed rfl
    rfl
  | out =>
    rcases stack with _ | ⟨value, rest⟩
    · rfl
    · rfl
  | combine gate inverted =>
    obtain ⟨address, rfl, _⟩ := addressed rfl
    rcases stack with _ | ⟨top, rest⟩
    · rfl
    · rfl
  | merge gate =>
    rcases stack with _ | ⟨first, _ | ⟨second, rest⟩⟩
    · rfl
    · simp [Opcode.rule, DepthRule.admits, Stack.depth] at admitted
    · rfl

theorem store?_inside (accepted : instruction.objection? memory.extent stack.depth = none)
    {address : Nat} {value : Bool} (stored : instruction.store? stack = some (address, value)) :
    address < memory.cells := by
  have addressed := operand_of_accepted accepted
  unfold store? at stored
  unfold Opcode.takesAddress at addressed
  grind [Memory.cells_extent]

/-- An accepted store reaches the pending bank and no other. -/
theorem pendingAt_put (accepted : instruction.objection? memory.extent stack.depth = none) :
    (memory.put (instruction.store? stack)).pendingAt =
      Memory.afterStores memory.pendingAt (instruction.store? stack).toList := by
  cases stored : instruction.store? stack with
  | none => rfl
  | some entry =>
    rcases entry with ⟨address, value⟩
    exact Memory.pendingAt_setPending value (store?_inside accepted stored)

end Performance

section Store

variable {instruction : Instruction} {stack : Stack} {address : Nat}

theorem eq_out_of_store? {value : Bool}
    (stored : instruction.store? stack = some (address, value)) :
    instruction = ⟨.out, some address⟩ := by
  rcases instruction with ⟨opcode, operand⟩
  unfold store? at stored
  grind

theorem afterStores_store?_of_ne (other : instruction ≠ ⟨.out, some address⟩)
    (cells : Nat → Bool) (stack : Stack) :
    Memory.afterStores cells (instruction.store? stack).toList address = cells address := by
  cases stored : instruction.store? stack with
  | none => rfl
  | some entry =>
    rcases entry with ⟨target, value⟩
    have different : address ≠ target := by
      rintro rfl
      exact other (eq_out_of_store? stored)
    exact Function.update_of_ne different value cells

/-- A store that runs decides its cell, whatever was there. -/
theorem afterStores_store?_of_out {extent : Extent}
    (accepted : instruction.objection? extent stack.depth = none)
    (out : instruction = ⟨.out, some address⟩) (left right : Nat → Bool) :
    Memory.afterStores left (instruction.store? stack).toList address =
      Memory.afterStores right (instruction.store? stack).toList address := by
  subst out
  have admitted := admits_of_accepted accepted
  rcases stack with _ | ⟨value, rest⟩
  · simp [Opcode.rule, DepthRule.admits, Stack.depth] at admitted
  · simp [store?, Memory.afterStores]

end Store

end Instruction

end RelayLadder
