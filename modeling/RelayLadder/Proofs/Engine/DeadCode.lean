import RelayLadder.Proofs.Engine.Termination

/-!
Statements after the end of a scan are dead code. Programs with the same body drive
an engine alike. They differ only in where the index goes when a fault latches, since
that depends on the length of the whole program; and no one looks at it before the
engine is reset.
-/

namespace RelayLadder

namespace Engine

/-- Without a limit of its own, a scan can be given as many steps as the body has. -/
theorem scan_eq_of_unlimited {engine : Engine} (unlimited : engine.stepLimit = none)
    (inside : engine.fault = none → engine.pc < engine.program.body.length) :
    engine.scan = engine.scanWithin engine.program.body.length := by
  cases latched : engine.fault with
  | none =>
    obtain ⟨count, ⟨result, final⟩, course⟩ := Course.exists_of_inside latched (inside latched)
    have enough := course.le_length latched (inside latched)
    have scan := course.scan_eq latched (inside latched) unlimited
    exact scan.trans (course.scanWithin_eq enough).symm
  | some fault =>
    simp [scan_of_fault latched, scanWithin_of_fault latched, unlimited, Program.body_ne_nil]

/-- The engine with another program put into it. -/
def reprogram (engine : Engine) (program : Program) : Engine := { engine with program }

section Reprogram

variable {engine : Engine} {program : Program}
  (same : program.body = engine.program.body)
  (inside : engine.pc < engine.program.body.length)

include same inside

theorem statement_reprogram : (engine.reprogram program).statement = engine.statement := by
  obtain ⟨statement, rest, ahead⟩ := ahead_of_inside inside
  have other : program.body.drop engine.pc = statement :: rest := same ▸ ahead
  exact (Program.fetch_body other).trans (Program.fetch_body ahead).symm

theorem objection?_reprogram : (engine.reprogram program).objection? = engine.objection? := by
  rw [objection?, statement_reprogram same inside]
  rfl

theorem blame_reprogram (kind : FaultKind) :
    (engine.reprogram program).blame kind = engine.blame kind := by
  rw [blame, statement_reprogram same inside]
  rfl

theorem stepped_reprogram :
    (engine.reprogram program).stepped = engine.stepped.reprogram program := by
  obtain ⟨statement, rest, ahead⟩ := ahead_of_inside inside
  have other : program.body.drop engine.pc = statement :: rest := same ▸ ahead
  have index : (engine.reprogram program).nextIndex engine.statement.instruction.opcode =
      engine.nextIndex engine.statement.instruction.opcode := by
    have current : engine.statement = statement := Program.fetch_body ahead
    rw [current]
    exact (Program.next_body other).trans (Program.next_body ahead).symm
  rw [stepped, store?, statement_reprogram same inside, advance, index]
  rfl

end Reprogram

/-- Engines that differ in nothing but their programs, which have the same body, and in
the index at which they halted. -/
structure Twins (left right : Engine) : Prop where
  body : right.program.body = left.program.body
  same : right = { left.reprogram right.program with pc := right.pc }
  index : left.fault = none → left.pc = right.pc
  inside : left.fault = none → left.pc < left.program.body.length

namespace Twins

variable {left right : Engine}

theorem memory_eq (twins : Twins left right) : left.memory = right.memory :=
  (congrArg Engine.memory twins.same).symm

theorem fault_eq (twins : Twins left right) : left.fault = right.fault :=
  (congrArg Engine.fault twins.same).symm

theorem stepLimit_eq (twins : Twins left right) : left.stepLimit = right.stepLimit :=
  (congrArg Engine.stepLimit twins.same).symm

theorem reprogram (twins : Twins left right) (running : left.fault = none) :
    right = left.reprogram right.program := by
  have same := twins.same
  rwa [← twins.index running] at same

theorem step (twins : Twins left right) :
    left.step.1 = right.step.1 ∧ Twins left.step.2 right.step.2 := by
  cases latched : left.fault with
  | some fault =>
    have alsoLatched := twins.fault_eq.symm.trans latched
    rw [step_of_fault latched, step_of_fault alsoLatched]
    exact ⟨rfl, twins⟩
  | none =>
    have inside := twins.inside latched
    have body := twins.body
    have reprogrammed := twins.reprogram latched
    generalize right.program = program at body reprogrammed
    subst reprogrammed
    have running : (left.reprogram program).fault = none := latched
    have objections := objection?_reprogram body inside
    cases decided : left.objection? with
    | none =>
      rw [step_of_accepted latched decided,
        step_of_accepted running (objections.trans decided), stepped_reprogram body inside]
      refine ⟨rfl, body, rfl, fun _ => rfl, ?_⟩
      intro _
      rcases pc_stepped_of_inside inside with ⟨index, following⟩ | ⟨index, last⟩
      · rw [index]
        exact following
      · rw [index]
        exact Nat.lt_of_le_of_lt (Nat.zero_le left.pc) inside
    | some kind =>
      rw [step_of_objection latched decided,
        step_of_objection running (objections.trans decided), blame_reprogram body inside]
      exact ⟨rfl, body, rfl, nofun, nofun⟩

theorem lockstep : Lockstep Twins where
  step := step
  index := index

theorem scan (twins : Twins left right) :
    left.scan.1 = right.scan.1 ∧ Twins left.scan.2 right.scan.2 := by
  cases limited : left.stepLimit with
  | some limit =>
    have alsoLimited := twins.stepLimit_eq.symm.trans limited
    rw [Engine.scan, Engine.scan, limited, alsoLimited]
    exact lockstep.scanOn twins limit limit 0
  | none =>
    have alsoUnlimited := twins.stepLimit_eq.symm.trans limited
    have inside : right.fault = none → right.pc < right.program.body.length := by
      intro running
      have leftRunning := twins.fault_eq.trans running
      rw [← twins.index leftRunning, twins.body]
      exact twins.inside leftRunning
    rw [scan_eq_of_unlimited limited twins.inside, scan_eq_of_unlimited alsoUnlimited inside,
      twins.body]
    exact lockstep.scanOn twins _ _ 0

theorem with_memory (twins : Twins left right) (memory : Memory) :
    Twins { left with memory } { right with memory } := by
  obtain ⟨body, same, index, inside⟩ := twins
  exact ⟨body, congrArg (fun engine : Engine => { engine with memory }) same, index, inside⟩

theorem setInput (twins : Twins left right) (address : Nat) (value : Bool) :
    (left.serve (.setInput address value)).1 = (right.serve (.setInput address value)).1 ∧
      Twins (left.serve (.setInput address value)).2 (right.serve (.setInput address value)).2 := by
  rw [serve_setInput, serve_setInput, ← twins.memory_eq]
  split
  · exact ⟨rfl, twins.with_memory _⟩
  · exact ⟨rfl, twins⟩

theorem clearMemory (twins : Twins left right) : Twins left.clearMemory right.clearMemory := by
  have cleared := twins.with_memory left.memory.clear
  rwa [Engine.clearMemory, Engine.clearMemory, ← twins.memory_eq]

theorem reset (twins : Twins left right) : Twins left.reset right.reset := by
  have nonempty := List.length_pos_iff.mpr left.program.body_ne_nil
  obtain ⟨body, same, _, _⟩ := twins
  refine ⟨body, ?_, fun _ => rfl, fun _ => nonempty⟩
  exact congrArg Engine.reset same

/-- Twins answer every request alike and are twins after it. -/
theorem serve (twins : Twins left right) (request : Request) :
    (left.serve request).1 = (right.serve request).1 ∧
      Twins (left.serve request).2 (right.serve request).2 := by
  cases request with
  | step =>
    obtain ⟨results, after⟩ := twins.step
    exact ⟨congrArg (Except.map _) results, after⟩
  | stepMany count =>
    obtain ⟨results, after⟩ := lockstep.stepMany twins count
    exact ⟨congrArg (Except.map _) results, after⟩
  | scan =>
    obtain ⟨results, after⟩ := twins.scan
    exact ⟨congrArg (Except.map Reply.count) results, after⟩
  | scanWithin limit =>
    obtain ⟨results, after⟩ := lockstep.scanOn twins limit limit 0
    exact ⟨congrArg (Except.map Reply.count) results, after⟩
  | read address =>
    refine ⟨?_, twins⟩
    rw [Engine.serve, Engine.serve, Engine.read, Engine.read, twins.memory_eq]
  | setInput address value => exact twins.setInput address value
  | clearMemory => exact ⟨rfl, twins.clearMemory⟩
  | reset => exact ⟨rfl, twins.reset⟩

theorem serveAll (twins : Twins left right) (requests : List Request) :
    Twins (left.serveAll requests) (right.serveAll requests) := by
  induction requests generalizing left right with
  | nil => exact twins
  | cons request rest inductionHypothesis => exact inductionHypothesis (twins.serve request).2

theorem start {program cut : Program} (body : cut.body = program.body) (config : Config) :
    Twins (Engine.start program config) (Engine.start cut config) :=
  ⟨body, rfl, fun _ => rfl, fun _ => List.length_pos_iff.mpr program.body_ne_nil⟩

end Twins

/-- Statements after the first that ends a scan are dead, whatever they are. After any
history of requests an engine over the whole program and one over the program cut off
there have the same memory, stack, counters and latched fault, stand at the same index
unless they are halted, and answer the next request alike. -/
theorem dead_after_end {program cut : Program} {before after : List Statement}
    {ending : Statement} (whole : program.statements.toList = before ++ ending :: after)
    (kept : cut.statements.toList = before ++ [ending])
    (ordinary : ∀ statement ∈ before, statement.instruction.opcode ≠ .finish)
    (ends : ending.instruction.opcode = .finish) (config : Config) (requests : List Request) :
    let left := (start program config).serveAll requests
    let right := (start cut config).serveAll requests
    left.memory = right.memory ∧ left.stack = right.stack ∧ left.steps = right.steps ∧
      left.scans = right.scans ∧ left.fault = right.fault ∧
      (left.fault = none → left.pc = right.pc) ∧
      ∀ request, (left.serve request).1 = (right.serve request).1 := by
  intro left right
  have body : cut.body = program.body := by
    rw [Program.body, Program.body, whole, kept,
      Statement.upToEnd_append_cons ordinary ends, Statement.upToEnd_append_cons ordinary ends]
  have twins : Twins left right := (Twins.start body config).serveAll requests
  refine ⟨twins.memory_eq, ?_, ?_, ?_, twins.fault_eq, twins.index, ?_⟩
  · exact (congrArg Engine.stack twins.same).symm
  · exact (congrArg Engine.steps twins.same).symm
  · exact (congrArg Engine.scans twins.same).symm
  · intro request
    exact (twins.serve request).1

/-- An end that faults because of its operand leaves the engines at different indices, with
the same fault and the same answer to the next request. -/
theorem dead_after_faulting_end :
    let before : List Statement := [⟨1, ⟨.load false, some 0⟩⟩, ⟨2, ⟨.out, some 0⟩⟩]
    let ending : Statement := ⟨4, ⟨.finish, some 0⟩⟩
    let after : List Statement := [⟨5, ⟨.merge .or, none⟩⟩, ⟨6, ⟨.load true, none⟩⟩]
    let program : Program := ⟨(before ++ ending :: after).toArray, by decide⟩
    let cut : Program := ⟨(before ++ [ending]).toArray, by decide⟩
    let left := (start program { bankSize := 0 }).serveAll [.setInput 0 true, .scan]
    let right := (start cut { bankSize := 0 }).serveAll [.setInput 0 true, .scan]
    left.pc = 3 ∧ right.pc = 0 ∧ left.fault = right.fault ∧
      (left.serve .scan).1 = (right.serve .scan).1 := by
  intro before ending after program cut left right
  have whole : program.statements.toList = before ++ ending :: after := rfl
  have kept : cut.statements.toList = before ++ [ending] := rfl
  obtain ⟨_, _, _, _, faults, _, answers⟩ := dead_after_end whole kept (by decide) rfl
    { bankSize := 0 } [.setInput 0 true, .scan]
  exact ⟨by decide, by decide, faults, answers .scan⟩

end Engine

end RelayLadder
