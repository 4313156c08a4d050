import RelayLadder.Proofs.Engine.Coherence
import RelayLadder.Proofs.Engine.Latch
import RelayLadder.Proofs.Instruction.Table

/-!
One step against the instruction table. It fails exactly when the next instruction
breaks its row, and then leaves no trace but the latched fault; otherwise it does what
the row says and no more.
-/

namespace RelayLadder

/-- What becomes of the banks when an instruction has run, by what it stores, by the policy
and by whether it completes a scan. A store changes one cell, in the pending bank. Then the
banks exchange their roles, or stay as they are, or the pending bank becomes live and stays
pending as well. -/
inductive Memory.Settles (before after : Memory) (stored : Option (Nat × Bool)) :
    TogglePolicy → (completed : Bool) → Prop where
  | exchanged {completed : Bool} :
      after.mode = !before.mode →
      after.liveAt = afterStores before.pendingAt stored.toList →
      after.pendingAt = before.liveAt →
      Settles before after stored .perInstruction completed
  | kept :
      after.mode = before.mode →
      after.liveAt = before.liveAt →
      after.pendingAt = afterStores before.pendingAt stored.toList →
      Settles before after stored .perScan false
  | committed :
      after.mode = !before.mode →
      after.liveAt = afterStores before.pendingAt stored.toList →
      after.pendingAt = afterStores before.pendingAt stored.toList →
      Settles before after stored .perScan true

namespace Engine

variable {engine : Engine}

theorem step_eq_error_iff (running : engine.fault = none) {failure : Failure} :
    engine.step.1 = .error failure ↔
      ∃ kind, engine.statement.instruction.Violates engine.memory.extent engine.stack.depth kind ∧
        failure = .fault (engine.blame kind) := by
  cases decided : engine.objection? with
  | none =>
    have obeys (kind : FaultKind) : ¬ engine.statement.instruction.Violates
        engine.memory.extent engine.stack.depth kind := by
      intro violated
      have refused := Instruction.objection?_eq_some_iff.mpr violated
      exact Option.some_ne_none kind (refused.symm.trans decided)
    simp [step_of_accepted running decided, obeys]
  | some kind =>
    have violated := Instruction.objection?_eq_some_iff.mp decided
    rw [step_of_objection running decided]
    constructor
    · intro failed
      exact ⟨kind, violated, (Except.error.inj failed).symm⟩
    · rintro ⟨other, alsoViolated, rfl⟩
      have same : some other = some kind :=
        (Instruction.objection?_eq_some_iff.mpr alsoViolated).symm.trans decided
      rw [Option.some.inj same]

theorem accepted_of_step_ok (succeeded : engine.step.1 = .ok ()) : engine.objection? = none := by
  have step : engine.step = (.ok (), engine.step.2) := Prod.ext succeeded rfl
  exact (step_eq_ok_iff.mp step).2.1

theorem step_eq_ok_iff_row (running : engine.fault = none) :
    engine.step.1 = .ok () ↔
      (∃ after stored, engine.statement.instruction.Row engine.memory.liveAt engine.stack
        after stored) ∧
      ∀ address, engine.statement.instruction.operand = some address →
        address < engine.memory.cells := by
  constructor
  · intro succeeded
    have accepted := accepted_of_step_ok succeeded
    refine ⟨⟨_, _, Instruction.row_of_accepted accepted _⟩, ?_⟩
    intro address named
    exact Instruction.operand_inside_of_accepted accepted named
  · rintro ⟨⟨after, stored, row⟩, inside⟩
    have accepted : engine.objection? = none := Instruction.accepted_of_row row inside
    rw [step_of_accepted running accepted]

/-- Once the checks have passed, nothing that comes after them fails. -/
theorem effect_succeeds_of_checks {instruction : Instruction} {memory : Memory} {stack : Stack}
    (operand : instruction.checkOperand memory = .ok ())
    (depth : stack.check instruction.opcode.rule = .ok ()) :
    ∃ after, instruction.effect.run (memory, stack) = .ok () after := by
  have checks := Instruction.checks_eq instruction memory stack
  rw [operand, depth] at checks
  cases decided : instruction.objection? memory.extent stack.depth with
  | none => exact ⟨_, Instruction.effect_eq_ok decided⟩
  | some kind =>
    rw [decided] at checks
    cases checks

/-- The banks after a step, cell by cell. -/
theorem settles_stepped (accepted : engine.objection? = none) :
    engine.memory.Settles engine.stepped.memory engine.store? engine.toggle
      (decide (engine.stepped.pc = 0)) := by
  have pending := pendingAt_put_store? accepted
  have live := engine.memory.liveAt_put engine.store?
  have mode := engine.memory.mode_put engine.store?
  rw [memory_stepped]
  cases engine.toggle with
  | perInstruction => exact .exchanged (congrArg (!·) mode) pending live
  | perScan =>
    cases decide (engine.stepped.pc = 0) with
    | false => exact .kept mode live pending
    | true => exact .committed (congrArg (!·) mode) pending pending

/-- A step of a running engine, after any history, against the instruction table. It fails
exactly when the instruction breaks its row, and reports the first way in which it does;
no check fails after that. If it succeeds, the stack is that of the row, and of all cells of
the pending bank only the one that the row stores to can change before the banks settle. If
it fails, only the index and the latch change, and no request to run changes anything after
that. -/
theorem step_follows_table {program : Program} {config : Config} {requests : List Request}
    (running : ((start program config).serveAll requests).fault = none) :
    let engine := (start program config).serveAll requests
    ∃ line instruction, program.get? engine.pc = some ⟨line, instruction⟩ ∧
      (∀ failure, engine.step.1 = .error failure ↔
        ∃ kind, instruction.Violates ⟨config.bankSize, config.bounds⟩ engine.stack.depth kind ∧
          failure = .fault ⟨engine.pc, line, instruction, kind⟩) ∧
      (instruction.checkOperand engine.memory = .ok () →
        engine.stack.check instruction.opcode.rule = .ok () →
          ∃ after, instruction.effect.run (engine.memory, engine.stack) = .ok () after) ∧
      (engine.step.1 = .ok () ↔
        (∃ after stored, instruction.Row engine.memory.liveAt engine.stack after stored) ∧
          ∀ address, instruction.operand = some address →
            address < config.bounds.cells config.bankSize) ∧
      (engine.step.1 = .ok () →
        ∃ after stored, instruction.Row engine.memory.liveAt engine.stack after stored ∧
          let index := if instruction.opcode = .finish then 0 else (engine.pc + 1) % program.size
          engine.memory.Settles engine.step.2.memory stored config.toggle (decide (index = 0)) ∧
          engine.step.2.memory.extent = ⟨config.bankSize, config.bounds⟩ ∧
          engine.step.2 =
            { engine with
              memory := engine.step.2.memory
              stack := after
              pc := index
              steps := engine.steps + 1
              scans := if index = 0 then engine.scans + 1 else engine.scans }) ∧
      ∀ fault, engine.step.1 = .error (.fault fault) →
        engine.step.2 =
            { engine with pc := (engine.pc + 1) % program.size, fault := some fault } ∧
          ∀ runs : List Request, (∀ request ∈ runs, request.isRun = true) →
            engine.step.2.serveAll runs = engine.step.2 := by
  intro engine
  have coherent : Coherent program config engine := .of_history program config requests
  have cells : engine.memory.cells = config.bounds.cells config.bankSize :=
    congrArg Extent.cells coherent.extent_eq
  have fetched : program.get? engine.pc = some engine.statement := by
    rw [Program.get?_eq_fetch coherent.pc_lt, statement, coherent.program_eq]
  refine ⟨engine.statement.line, engine.statement.instruction, fetched, ?fails, ?checks,
    ?succeeds, ?effect, ?latch⟩
  case fails =>
    intro failure
    rw [← coherent.extent_eq]
    exact step_eq_error_iff running
  case checks => exact effect_succeeds_of_checks
  case succeeds =>
    rw [← cells]
    exact step_eq_ok_iff_row running
  case effect =>
    intro succeeded
    have accepted := accepted_of_step_ok succeeded
    have moved : engine.step.2 = engine.stepped := by rw [step_of_accepted running accepted]
    refine ⟨_, _, Instruction.row_of_accepted accepted _, ?_, ?_, ?_⟩
    · rw [moved, ← coherent.toggle_eq, ← coherent.program_eq]
      exact settles_stepped accepted
    · rw [moved, extent_stepped, coherent.extent_eq]
    · rw [moved, ← coherent.program_eq]
      rfl
  case latch =>
    intro fault failed
    cases decided : engine.objection? with
    | none =>
      rw [step_of_accepted running decided] at failed
      cases failed
    | some kind =>
      rw [step_of_objection running decided] at failed ⊢
      cases failed
      constructor
      · rw [latch, Program.next, coherent.program_eq]
      · intro runs allRuns
        exact serveAll_runs_of_fault rfl allRuns

/-- A store that runs under either policy, and one with two things wrong, which reports its
address and leaves the engine as it was. -/
theorem step_follows_table_at_stores :
    let program : Program :=
      ⟨#[⟨1, ⟨.load false, some 0⟩⟩, ⟨2, ⟨.out, some 1⟩⟩, ⟨4, ⟨.load false, some 0⟩⟩,
        ⟨5, ⟨.load true, some 1⟩⟩, ⟨6, ⟨.out, some 2⟩⟩], by decide⟩
    let config : Config := { bankSize := 2, bounds := .strict, stepLimit := some 9 }
    let exchanging := (start program config).serveAll [.setInput 0 true, .step]
    let keeping := (start program { config with toggle := .perScan }).serveAll
      [.setInput 0 true, .step]
    let failing := (start program config).serveAll [.setInput 0 true, .stepMany 4]
    let fault : Fault := ⟨4, 6, ⟨.out, some 2⟩, .outOfBounds ⟨2, 2, .strict⟩⟩
    (exchanging.step.1 = .ok () ∧ exchanging.step.2.stack = [] ∧
      exchanging.step.2.memory.liveAt = Function.update exchanging.memory.pendingAt 1 true ∧
      exchanging.step.2.memory.pendingAt = exchanging.memory.liveAt) ∧
    (keeping.step.1 = .ok () ∧ keeping.step.2.stack = [] ∧
      keeping.step.2.memory.liveAt = keeping.memory.liveAt ∧
      keeping.step.2.memory.pendingAt = Function.update keeping.memory.pendingAt 1 true) ∧
    failing.stack = [true, true] ∧ failing.step.1 = .error (.fault fault) ∧
      failing.step.2 = { failing with pc := (4 + 1) % 5, fault := some fault } ∧
      failing.step.2.serveAll [.scan, .step, .scanWithin 0] = failing.step.2 := by
  intro program config exchanging keeping failing fault
  refine ⟨?exchanging, ?keeping, ?failing⟩
  case exchanging =>
    dsimp only [exchanging]
    have running : exchanging.fault = none := by decide
    have succeeded : exchanging.step.1 = .ok () := by decide
    have stack : exchanging.stack = [true] := by decide
    have listed : program.get? exchanging.pc = some ⟨2, ⟨.out, some 1⟩⟩ := by decide
    obtain ⟨line, instruction, fetched, _, _, _, effect, _⟩ := step_follows_table running
    obtain ⟨rfl, rfl⟩ := Statement.mk.inj (Option.some.inj (fetched.symm.trans listed))
    obtain ⟨after, stored, row, settles, _, moved⟩ := effect succeeded
    rw [stack] at row
    cases row with
    | out =>
      cases settles with
      | exchanged _ live pending =>
        refine ⟨succeeded, ?_, live, pending⟩
        rw [moved]
  case keeping =>
    dsimp only [keeping]
    have running : keeping.fault = none := by decide
    have succeeded : keeping.step.1 = .ok () := by decide
    have stack : keeping.stack = [true] := by decide
    have listed : program.get? keeping.pc = some ⟨2, ⟨.out, some 1⟩⟩ := by decide
    have index : keeping.pc = 1 := by decide
    obtain ⟨line, instruction, fetched, _, _, _, effect, _⟩ := step_follows_table running
    obtain ⟨rfl, rfl⟩ := Statement.mk.inj (Option.some.inj (fetched.symm.trans listed))
    obtain ⟨after, stored, row, settles, _, moved⟩ := effect succeeded
    rw [stack] at row
    rw [index] at settles
    cases row with
    | out =>
      cases settles with
      | kept _ live pending =>
        refine ⟨succeeded, ?_, live, pending⟩
        rw [moved]
  case failing =>
    have running : failing.fault = none := by decide
    have index : failing.pc = 4 := by decide
    have listed : program.get? failing.pc = some ⟨6, ⟨.out, some 2⟩⟩ := by decide
    obtain ⟨line, instruction, fetched, fails, _, _, _, latched⟩ := step_follows_table running
    obtain ⟨rfl, rfl⟩ := Statement.mk.inj (Option.some.inj (fetched.symm.trans listed))
    have failed : failing.step.1 = .error (.fault fault) := by
      apply (fails _).mpr
      rw [index]
      exact ⟨_, .outside rfl rfl (Nat.le_refl 2), rfl⟩
    obtain ⟨next, unmoved⟩ := latched fault failed
    exact ⟨by decide, failed, index ▸ next, unmoved _ (by decide)⟩

end Engine

end RelayLadder
