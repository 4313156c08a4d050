import RelayLadder.Proofs.Engine.Control

/-!
A scan without a limit, told by stack depths alone: a walk over the body of the
program decides whether the scan completes, where it faults, and how deep it
leaves the stack.
-/

namespace RelayLadder

namespace Statement

/-- The depth after the statements, numbered on from an index, have run from a depth,
or the fault of the first that objects. -/
def walk (extent : Extent) : List Statement → (index depth : Nat) → Except Fault Nat
  | [], _, depth => .ok depth
  | ⟨line, instruction⟩ :: rest, index, depth =>
    match instruction.objection? extent depth with
    | some kind => .error ⟨index, line, instruction, kind⟩
    | none => walk extent rest (index + 1) (instruction.opcode.depthAfter depth)

section Walk

variable {extent : Extent} {statement : Statement} {rest : List Statement}
  {index depth final : Nat}

theorem walk_of_accepted (accepted : statement.instruction.objection? extent depth = none) :
    walk extent (statement :: rest) index depth =
      walk extent rest (index + 1) (statement.instruction.opcode.depthAfter depth) := by
  simp only [walk, accepted]

theorem walk_of_objection {kind : FaultKind}
    (refused : statement.instruction.objection? extent depth = some kind) :
    walk extent (statement :: rest) index depth =
      .error ⟨index, statement.line, statement.instruction, kind⟩ := by
  simp only [walk, refused]

theorem accepted_of_walk (walked : walk extent (statement :: rest) index depth = .ok final) :
    statement.instruction.objection? extent depth = none := by
  cases decided : statement.instruction.objection? extent depth with
  | none => rfl
  | some kind =>
    rw [walk_of_objection decided] at walked
    contradiction

end Walk

end Statement

namespace Engine

variable {engine : Engine}

theorem control_stepped_of_body (accepted : engine.objection? = none) {statement : Statement}
    {rest : List Statement} (ahead : engine.program.body.drop engine.pc = statement :: rest) :
    engine.stepped.control =
      { engine.control with
        pc := if rest = [] then 0 else engine.pc + 1
        steps := engine.steps + 1
        scans := if rest = [] then engine.scans + 1 else engine.scans
        depth := statement.instruction.opcode.depthAfter engine.stack.depth } := by
  obtain ⟨fetched, index⟩ := pc_stepped_of_body ahead
  have target : engine.control.nextIndex = if rest = [] then 0 else engine.pc + 1 := index
  have current : engine.control.statement = statement := fetched
  rw [control_stepped accepted, Control.stepped, target, current]
  by_cases last : rest = [] <;> simp [last, control]

/-- The rest of a scan goes as the walk over the rest of the body says. -/
theorem scanOn_eq_walk (running : engine.fault = none) {statements : List Statement}
    (ahead : engine.program.body.drop engine.pc = statements) (unfinished : statements ≠ [])
    {remaining : Nat} (enough : statements.length ≤ remaining) (limit taken : Nat) :
    match Statement.walk engine.memory.extent statements engine.pc engine.stack.depth with
    | .ok depth =>
      outcome (engine.scanOn limit remaining taken) =
        (.ok (taken + statements.length),
          { engine.control with
            pc := 0
            steps := engine.steps + statements.length
            scans := engine.scans + 1
            depth })
    | .error fault => (engine.scanOn limit remaining taken).1 = .error (.fault fault) := by
  induction statements generalizing engine remaining taken with
  | nil => contradiction
  | cons statement rest inductionHypothesis =>
    rcases statement with ⟨line, instruction⟩
    obtain ⟨fetched, index⟩ := pc_stepped_of_body ahead
    obtain ⟨remaining, rfl⟩ : ∃ fewer, remaining = fewer + 1 :=
      Nat.exists_eq_add_one.mpr (Nat.lt_of_lt_of_le (by simp) enough)
    have objections := objection?_of_body ahead
    cases decided : instruction.objection? engine.memory.extent engine.stack.depth with
    | some kind =>
      have failed := step_of_objection running (objections.trans decided)
      rw [blame, fetched] at failed
      simp only [Statement.walk, decided]
      rw [scanOn_of_step_error failed]
    | none =>
      have accepted : engine.objection? = none := objections.trans decided
      have stepped := step_of_accepted running accepted
      have control := control_stepped_of_body accepted ahead
      simp only [Statement.walk, decided]
      rw [scanOn_of_step_ok stepped]
      by_cases last : rest = []
      · subst last
        rw [if_pos rfl] at index
        rw [if_pos index]
        simp only [Statement.walk, outcome, control]
        rfl
      · obtain ⟨index, following⟩ := ahead_stepped ahead last
        simp only [if_neg last] at control
        have stillRunning : engine.stepped.fault = none := running
        have result := inductionHypothesis stillRunning following last
          (Nat.le_of_succ_le_succ enough) (taken + 1)
        have depth : engine.stepped.stack.depth =
            instruction.opcode.depthAfter engine.stack.depth := congrArg Control.depth control
        have steps : engine.stepped.steps = engine.steps + 1 := congrArg Control.steps control
        have scans : engine.stepped.scans = engine.scans := congrArg Control.scans control
        rw [extent_stepped, index, depth, steps, scans, control] at result
        have count (before : Nat) : before + 1 + rest.length = before + (rest.length + 1) := by
          omega
        rw [count, count] at result
        rw [if_neg (by omega : engine.stepped.pc ≠ 0)]
        exact result

theorem scan_eq_walk (start : engine.pc = 0) (running : engine.fault = none)
    (unlimited : engine.stepLimit = none) :
    match Statement.walk engine.memory.extent engine.program.body 0 engine.stack.depth with
    | .ok depth =>
      outcome engine.scan =
        (.ok engine.program.body.length,
          { engine.control with
            pc := 0
            steps := engine.steps + engine.program.body.length
            scans := engine.scans + 1
            depth })
    | .error fault => engine.scan.1 = .error (.fault fault) := by
  have ahead : engine.program.body.drop engine.pc = engine.program.body := by
    rw [start]
    rfl
  have result := scanOn_eq_walk running ahead engine.program.body_ne_nil
    engine.program.length_body_le engine.program.size 0
  rw [start, Nat.zero_add] at result
  rw [scan, unlimited]
  exact result

end Engine

end RelayLadder
