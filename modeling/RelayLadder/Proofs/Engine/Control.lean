import Mathlib.Data.List.Forall2
import RelayLadder.Proofs.Engine.Step

/-!
Control without data. What an engine answers, where it stands and how deep its
stack is never depend on the values in its cells or on its stack, nor on when the
banks change roles: one step of the control is a function of the control.
-/

namespace RelayLadder

/-- The part of an engine's state that holds no truth value. -/
structure Control where
  program : Program
  extent : Extent
  stepLimit : Option Nat
  pc : Nat
  steps : Nat
  scans : Nat
  depth : Nat
  fault : Option Fault
  deriving DecidableEq

/-- Two requests that ask for the same, though perhaps with another value for a cell. -/
inductive Request.Alike : Request → Request → Prop where
  | step : Alike .step .step
  | stepMany (count : Nat) : Alike (.stepMany count) (.stepMany count)
  | scan : Alike .scan .scan
  | scanWithin (limit : Nat) : Alike (.scanWithin limit) (.scanWithin limit)
  | setInput (address : Nat) (left right : Bool) :
      Alike (.setInput address left) (.setInput address right)
  | clearMemory : Alike .clearMemory .clearMemory
  | reset : Alike .reset .reset

namespace Control

def statement (control : Control) : Statement := control.program.fetch control.pc

def objection? (control : Control) : Option FaultKind :=
  control.statement.instruction.objection? control.extent control.depth

def blame (control : Control) (kind : FaultKind) : Fault :=
  ⟨control.pc, control.statement.line, control.statement.instruction, kind⟩

def nextIndex (control : Control) : Nat :=
  if control.statement.instruction.opcode = .finish then 0
  else control.program.next control.pc

/-- The control after the next statement has run. -/
def stepped (control : Control) : Control :=
  { control with
    pc := control.nextIndex
    steps := control.steps + 1
    scans := if control.nextIndex = 0 then control.scans + 1 else control.scans
    depth := control.statement.instruction.opcode.depthAfter control.depth }

def step (control : Control) : Except Failure Unit × Control :=
  match control.fault, control.objection? with
  | some fault, _ => (.error (.halted fault), control)
  | none, none => (.ok (), control.stepped)
  | none, some kind =>
    (.error (.fault (control.blame kind)),
      { control with
        pc := control.program.next control.pc
        fault := some (control.blame kind) })

end Control

namespace Engine

def control (engine : Engine) : Control where
  program := engine.program
  extent := engine.memory.extent
  stepLimit := engine.stepLimit
  pc := engine.pc
  steps := engine.steps
  scans := engine.scans
  depth := engine.stack.depth
  fault := engine.fault

/-- A result with the control of the engine that it leaves. -/
def outcome {Value : Type} (result : Except Failure Value × Engine) :
    Except Failure Value × Control :=
  (result.1, result.2.control)

theorem control_stepped {engine : Engine} (accepted : engine.objection? = none) :
    engine.stepped.control = engine.control.stepped := by
  have extent := extent_stepped engine
  have depth := depth_stepped accepted
  rw [control, extent, depth]
  rfl

/-- The control of an engine moves by itself. -/
theorem outcome_step (engine : Engine) : outcome engine.step = engine.control.step := by
  cases latched : engine.fault with
  | some fault =>
    rw [step_of_fault latched]
    simp [Control.step, control, latched, outcome]
  | none =>
    have running : engine.control.fault = none := latched
    cases decided : engine.objection? with
    | none =>
      have accepted : engine.control.objection? = none := decided
      rw [step_of_accepted latched decided]
      simp only [outcome, control_stepped decided, Control.step, running, accepted]
    | some kind =>
      have refused : engine.control.objection? = some kind := decided
      rw [step_of_objection latched decided]
      simp only [outcome, Control.step, running, refused]
      rfl

theorem control_reset (engine : Engine) :
    engine.reset.control =
      { engine.control with pc := 0, steps := 0, scans := 0, depth := 0, fault := none } := by
  simp [control, reset, Stack.depth, Stack.empty]

/-- The answers to a history of requests, each with the control after it. -/
def transcript (engine : Engine) : List Request → List (Except Failure Reply × Control)
  | [] => []
  | request :: requests =>
    outcome (engine.serve request) :: (engine.serve request).2.transcript requests

section TwoRuns

variable {left right : Engine}

theorem step_of_control_eq (same : left.control = right.control) :
    ∃ result leftNext rightNext,
      left.step = (result, leftNext) ∧ right.step = (result, rightNext) ∧
        leftNext.control = rightNext.control := by
  have outcomes : outcome left.step = outcome right.step := by
    rw [outcome_step, outcome_step, same]
  obtain ⟨result, controls⟩ := Prod.mk.inj outcomes
  exact ⟨left.step.1, left.step.2, right.step.2, rfl, by rw [result], controls⟩

theorem outcome_stepMany_eq (same : left.control = right.control) (count : Nat) :
    outcome (left.stepMany count) = outcome (right.stepMany count) := by
  induction count generalizing left right with
  | zero => simp [stepMany, outcome, same]
  | succ count inductionHypothesis =>
    obtain ⟨result, leftNext, rightNext, leftStep, rightStep, nextSame⟩ :=
      step_of_control_eq same
    cases result with
    | ok _ =>
      rw [stepMany_of_step_ok leftStep, stepMany_of_step_ok rightStep]
      exact inductionHypothesis nextSame
    | error failure =>
      rw [stepMany_of_step_error leftStep, stepMany_of_step_error rightStep]
      simp [outcome, nextSame]

theorem outcome_scanOn_eq (same : left.control = right.control) (limit remaining taken : Nat) :
    outcome (left.scanOn limit remaining taken) = outcome (right.scanOn limit remaining taken) := by
  induction remaining generalizing left right taken with
  | zero => simp [scanOn, outcome, same]
  | succ remaining inductionHypothesis =>
    obtain ⟨result, leftNext, rightNext, leftStep, rightStep, nextSame⟩ :=
      step_of_control_eq same
    have index : leftNext.pc = rightNext.pc := congrArg Control.pc nextSame
    cases result with
    | ok _ =>
      rw [scanOn_of_step_ok leftStep, scanOn_of_step_ok rightStep, index]
      split
      · simp [outcome, nextSame]
      · exact inductionHypothesis nextSame (taken + 1)
    | error failure =>
      rw [scanOn_of_step_error leftStep, scanOn_of_step_error rightStep]
      simp [outcome, nextSame]

theorem outcome_scan_eq (same : left.control = right.control) :
    outcome left.scan = outcome right.scan := by
  have program : left.program = right.program := congrArg Control.program same
  have stepLimit : left.stepLimit = right.stepLimit := congrArg Control.stepLimit same
  rw [scan, scan, program, stepLimit]
  exact outcome_scanOn_eq same _ _ 0

theorem outcome_map_eq {Value Other : Type} {first second : Except Failure Value × Engine}
    (same : outcome first = outcome second) (f : Value → Other) :
    outcome (first.1.map f, first.2) = outcome (second.1.map f, second.2) := by
  obtain ⟨result, controls⟩ := Prod.mk.inj same
  simp [outcome, result, controls]

/-- A cell can be forced in both engines or in neither. -/
theorem outcome_setInput_eq (same : left.control = right.control) (address : Nat)
    (leftValue rightValue : Bool) :
    outcome (left.serve (.setInput address leftValue)) =
      outcome (right.serve (.setInput address rightValue)) := by
  have extent : left.memory.extent = right.memory.extent := congrArg Control.extent same
  have cells : left.memory.cells = right.memory.cells := congrArg Extent.cells extent
  have refusal : left.memory.outOfBounds address = right.memory.outOfBounds address :=
    congrArg (fun extent : Extent => OutOfBounds.mk address extent.size extent.bounds) extent
  rw [serve_setInput, serve_setInput, cells, refusal]
  split
  · exact congrArg (Prod.mk _) same
  · exact congrArg (Prod.mk _) same

theorem outcome_serve_eq (same : left.control = right.control) {first second : Request}
    (alike : first.Alike second) :
    outcome (left.serve first) = outcome (right.serve second) := by
  cases alike with
  | step =>
    have steps : outcome left.step = outcome right.step := by
      rw [outcome_step, outcome_step, same]
    exact outcome_map_eq steps _
  | stepMany count => exact outcome_map_eq (outcome_stepMany_eq same count) _
  | scan => exact outcome_map_eq (outcome_scan_eq same) _
  | scanWithin limit => exact outcome_map_eq (outcome_scanOn_eq same limit limit 0) _
  | setInput address leftValue rightValue =>
    exact outcome_setInput_eq same address leftValue rightValue
  | clearMemory => exact congrArg (Prod.mk _) same
  | reset =>
    have controls : left.reset.control = right.reset.control := by
      rw [control_reset, control_reset, same]
    exact congrArg (Prod.mk _) controls

/-- Control is independent of data and of the toggle policy: engines that differ
only in truth values, in the roles of their banks and in when these change answer
every history alike and keep the same control throughout. -/
theorem transcript_eq_of_control_eq (same : left.control = right.control)
    {first second : List Request} (alike : List.Forall₂ Request.Alike first second) :
    left.transcript first = right.transcript second := by
  induction alike generalizing left right with
  | nil => rfl
  | cons alike _ inductionHypothesis =>
    have outcomes := outcome_serve_eq same alike
    have nextSame := (Prod.mk.inj outcomes).2
    rw [transcript, transcript, outcomes, inductionHypothesis nextSame]

/-- A store that faults on a second scan, under both policies and on other cells. -/
theorem transcript_eq_of_leftover :
    let program : Program :=
      ⟨#[⟨1, ⟨.load false, some 0⟩⟩, ⟨2, ⟨.load true, some 1⟩⟩, ⟨3, ⟨.merge .or, none⟩⟩,
        ⟨4, ⟨.out, some 1⟩⟩, ⟨5, ⟨.load true, some 1⟩⟩], by decide⟩
    let left := start program { bankSize := 1 }
    let right := { start program { bankSize := 1, toggle := .perScan } with
      memory := (Memory.blank 1 .inclusive).toggle.setPending 1 true }
    left.control = right.control ∧
      left.transcript [.setInput 0 true, .scan, .scanWithin 9, .step, .setInput 2 true, .reset] =
        right.transcript
          [.setInput 0 false, .scan, .scanWithin 9, .step, .setInput 2 false, .reset] := by
  intro program left right
  have same : left.control = right.control := by decide
  refine ⟨same, transcript_eq_of_control_eq same ?_⟩
  exact .cons (.setInput 0 true false) (.cons .scan (.cons (.scanWithin 9) (.cons .step
    (.cons (.setInput 2 true false) (.cons .reset .nil)))))

end TwoRuns

end Engine

end RelayLadder
