import RelayLadder.Proofs.Engine.Leftover

/-!
Scan after scan. The first scan after a start or a reset decides whether every later
scan completes, how deep each leaves the stack, and where the second one faults.
-/

namespace RelayLadder

/-- Whether a request only reads or forces a cell or clears the memory. -/
def Request.isHostCall : Request → Bool
  | .read _ | .setInput _ _ | .clearMemory => true
  | _ => false

namespace Engine

/-- An engine just started, or just reset with any memory. -/
inductive Fresh : Engine → Prop where
  | start (program : Program) (config : Config) : Fresh (start program config)
  | reset (engine : Engine) : Fresh engine.reset

/-- A scan after a number of earlier ones, where the host calls with its number come
before each. -/
def nthScan (calls : Nat → List Request) : Nat → Engine → Except Failure Nat × Engine
  | 0, engine => (engine.serveAll (calls 0)).scan
  | count + 1, engine => ((nthScan calls count engine).2.serveAll (calls (count + 1))).scan

theorem control_serve_of_hostCall {request : Request} (called : request.isHostCall = true)
    (engine : Engine) : (engine.serve request).2.control = engine.control := by
  cases request with
  | setInput address value =>
    rw [serve_setInput]
    split <;> rfl
  | read address | clearMemory => rfl
  | step | stepMany count | scan | scanWithin limit | reset => contradiction

theorem control_serveAll_of_hostCalls {requests : List Request}
    (called : ∀ request ∈ requests, request.isHostCall = true) (engine : Engine) :
    (engine.serveAll requests).control = engine.control := by
  induction requests generalizing engine with
  | nil => rfl
  | cons request rest inductionHypothesis =>
    have later : ∀ other ∈ rest, other.isHostCall = true :=
      fun other membership => called other (by simp [membership])
    have first := control_serve_of_hostCall (called request (by simp)) engine
    exact (inductionHypothesis later (engine.serve request).2).trans first

/-- An unlimited engine between two scans, with leftovers of a depth on its stack. -/
structure Rests (program : Program) (extent : Extent) (depth : Nat) (engine : Engine) :
    Prop where
  program_eq : engine.program = program
  extent_eq : engine.memory.extent = extent
  unlimited : engine.stepLimit = none
  index : engine.pc = 0
  running : engine.fault = none
  depth_eq : engine.stack.depth = depth

theorem Fresh.rests {engine : Engine} (fresh : engine.Fresh)
    (unlimited : engine.stepLimit = none) :
    engine.Rests engine.program engine.memory.extent 0 := by
  cases fresh with
  | start program config => exact ⟨rfl, rfl, unlimited, rfl, rfl, rfl⟩
  | reset engine => exact ⟨rfl, rfl, unlimited, rfl, rfl, rfl⟩

namespace Rests

variable {engine : Engine} {program : Program} {extent : Extent} {depth : Nat}

theorem of_control_eq {next : Engine} (rests : engine.Rests program extent depth)
    (same : next.control = engine.control) : next.Rests program extent depth where
  program_eq := (congrArg Control.program same).trans rests.program_eq
  extent_eq := (congrArg Control.extent same).trans rests.extent_eq
  unlimited := (congrArg Control.stepLimit same).trans rests.unlimited
  index := (congrArg Control.pc same).trans rests.index
  running := (congrArg Control.fault same).trans rests.running
  depth_eq := (congrArg Control.depth same).trans rests.depth_eq

theorem serveAll (rests : engine.Rests program extent depth) {requests : List Request}
    (called : ∀ request ∈ requests, request.isHostCall = true) :
    (engine.serveAll requests).Rests program extent depth :=
  rests.of_control_eq (control_serveAll_of_hostCalls called engine)

theorem scan_of_walk_ok (rests : engine.Rests program extent depth) {final : Nat}
    (walked : Statement.walk extent program.body 0 depth = .ok final) :
    engine.scan.1 = .ok program.body.length ∧ engine.scan.2.Rests program extent final := by
  have result := scan_eq_walk rests.index rests.running rests.unlimited
  rw [rests.program_eq, rests.extent_eq, rests.depth_eq, walked] at result
  obtain ⟨answer, control⟩ := Prod.mk.inj result
  refine ⟨answer, ?_⟩
  exact {
    program_eq := (congrArg Control.program control).trans rests.program_eq
    extent_eq := (congrArg Control.extent control).trans rests.extent_eq
    unlimited := (congrArg Control.stepLimit control).trans rests.unlimited
    index := congrArg Control.pc control
    running := (congrArg Control.fault control).trans rests.running
    depth_eq := congrArg Control.depth control }

theorem scan_of_walk_error (rests : engine.Rests program extent depth) {fault : Fault}
    (walked : Statement.walk extent program.body 0 depth = .error fault) :
    engine.scan.1 = .error (.fault fault) := by
  have result := scan_eq_walk rests.index rests.running rests.unlimited
  rw [rests.program_eq, rests.extent_eq, rests.depth_eq, walked] at result
  exact result

theorem walk_of_scan (rests : engine.Rests program extent depth) {count : Nat}
    (completed : engine.scan.1 = .ok count) :
    Statement.walk extent program.body 0 depth = .ok engine.scan.2.stack.depth := by
  cases walked : Statement.walk extent program.body 0 depth with
  | ok final =>
    obtain ⟨_, after⟩ := rests.scan_of_walk_ok walked
    rw [after.depth_eq]
  | error fault =>
    rw [rests.scan_of_walk_error walked] at completed
    contradiction

/-- Depths that follow one another by the walk are those that the scans leave. -/
theorem nthScan (depths : Nat → Nat) {calls : Nat → List Request}
    (rests : engine.Rests program extent (depths 0))
    (called : ∀ count, ∀ request ∈ calls count, request.isHostCall = true)
    (walked : ∀ count, Statement.walk extent program.body 0 (depths count) =
      .ok (depths (count + 1))) (count : Nat) :
    (engine.nthScan calls count).1 = .ok program.body.length ∧
      (engine.nthScan calls count).2.Rests program extent (depths (count + 1)) := by
  induction count with
  | zero => exact (rests.serveAll (called 0)).scan_of_walk_ok (walked 0)
  | succ count inductionHypothesis =>
    have before := inductionHypothesis.2.serveAll (called (count + 1))
    exact before.scan_of_walk_ok (walked (count + 1))

end Rests

end Engine

/-- A control that no statement will halt: the rest of its scan leaves an allowed depth,
and so does every scan that begins at an allowed depth. -/
structure Control.Endures (allowed : Nat → Prop) (control : Control) : Prop where
  running : control.fault = none
  inside : control.pc < control.program.body.length
  finishes : ∃ final, allowed final ∧
    Statement.walk control.extent (control.program.body.drop control.pc) control.pc
      control.depth = .ok final
  repeats : ∀ depth, allowed depth → ∃ final, allowed final ∧
    Statement.walk control.extent control.program.body 0 depth = .ok final

namespace Control.Endures

open Engine

variable {engine : Engine} {allowed : Nat → Prop}

theorem step (endures : engine.control.Endures allowed) :
    engine.step = (.ok (), engine.stepped) ∧ engine.stepped.control.Endures allowed := by
  obtain ⟨statement, rest, ahead⟩ :
      ∃ statement rest, engine.program.body.drop engine.pc = statement :: rest :=
    ⟨_, _, List.drop_eq_getElem_cons endures.inside⟩
  obtain ⟨final, allowedFinal, walked⟩ := endures.finishes
  replace walked : Statement.walk engine.memory.extent (engine.program.body.drop engine.pc)
    engine.pc engine.stack.depth = .ok final := walked
  rw [ahead] at walked
  have accepts := Statement.accepted_of_walk walked
  have accepted : engine.objection? = none := (objection?_of_body ahead).trans accepts
  refine ⟨step_of_accepted endures.running accepted, ?_⟩
  rw [Statement.walk_of_accepted accepts] at walked
  rw [control_stepped_of_body accepted ahead]
  -- The last statement of the body leaves an allowed depth, from which a new scan is walked.
  by_cases last : rest = []
  · subst last
    obtain rfl := Except.ok.inj walked
    have nonempty := List.length_pos_iff.mpr engine.program.body_ne_nil
    exact ⟨endures.running, nonempty, endures.repeats _ allowedFinal, endures.repeats⟩
  · have following : engine.program.body.drop (engine.pc + 1) = rest :=
      Program.drop_body_succ ahead
    have inside : engine.pc + 1 < engine.program.body.length := by
      by_contra beyond
      exact last (following ▸ List.drop_eq_nil_of_le (Nat.le_of_not_lt beyond))
    simp only [if_neg last]
    refine ⟨endures.running, inside, ⟨final, allowedFinal, ?_⟩, endures.repeats⟩
    simpa only [Engine.control, following] using walked

theorem stepMany (endures : engine.control.Endures allowed) (count : Nat) :
    (engine.stepMany count).2.control.Endures allowed := by
  induction count generalizing engine with
  | zero => exact endures
  | succ count inductionHypothesis =>
    obtain ⟨stepped, after⟩ := Endures.step endures
    rw [stepMany_of_step_ok stepped]
    exact inductionHypothesis after

theorem scanOn (endures : engine.control.Endures allowed) (limit remaining taken : Nat) :
    (engine.scanOn limit remaining taken).2.control.Endures allowed := by
  induction remaining generalizing engine taken with
  | zero => exact endures
  | succ remaining inductionHypothesis =>
    obtain ⟨stepped, after⟩ := Endures.step endures
    rw [scanOn_of_step_ok stepped]
    split
    · exact after
    · exact inductionHypothesis after (taken + 1)

/-- No request but a reset can end the run. -/
theorem serve (endures : engine.control.Endures allowed) {request : Request}
    (continues : request ≠ .reset) : (engine.serve request).2.control.Endures allowed := by
  cases request with
  | step =>
    obtain ⟨stepped, after⟩ := Endures.step endures
    simpa only [Engine.serve, stepped] using after
  | stepMany count => exact Endures.stepMany endures count
  | scan => exact Endures.scanOn endures _ _ 0
  | scanWithin limit => exact Endures.scanOn endures limit limit 0
  | read address => exact endures
  | setInput address value =>
    rw [control_serve_of_hostCall rfl]
    exact endures
  | clearMemory => exact endures
  | reset => contradiction

theorem serveAll (endures : engine.control.Endures allowed) {requests : List Request}
    (continues : .reset ∉ requests) : (engine.serveAll requests).control.Endures allowed := by
  induction requests generalizing engine with
  | nil => exact endures
  | cons request rest inductionHypothesis =>
    rw [List.mem_cons, not_or] at continues
    exact inductionHypothesis (Endures.serve endures (Ne.symm continues.1)) continues.2

end Control.Endures

namespace Engine

variable {engine : Engine}

namespace Rests

variable {program : Program} {extent : Extent} {depth : Nat}

theorem scan_of_out (rests : engine.Rests program extent depth) (leftover : 0 < depth)
    (walked : Statement.walk extent program.body 0 0 = .ok depth)
    (stores : ∃ statement ∈ program.body, statement.instruction.opcode = .out) :
    engine.scan.1 =
      .error (.fault ⟨program.firstOut, (program.fetch program.firstOut).line,
        (program.fetch program.firstOut).instruction, .stack ⟨.exactly 1, depth + 1⟩⟩) := by
  obtain ⟨before, store, after, split, ordinary, out, index, fetched⟩ :=
    Program.body_eq_of_out stores
  rw [split] at walked
  have refused := Statement.walk_add_of_out ordinary out walked leftover
  rw [← split, Nat.add_zero, Nat.zero_add, index] at refused
  rw [rests.scan_of_walk_error refused, fetched]

theorem endures {allowed : Nat → Prop} (rests : engine.Rests program extent depth)
    (permitted : allowed depth)
    (repeats : ∀ depth, allowed depth → ∃ final, allowed final ∧
      Statement.walk extent program.body 0 depth = .ok final) :
    engine.control.Endures allowed := by
  obtain ⟨rfl, rfl, -, index, running, rfl⟩ := rests
  have nonempty := List.length_pos_iff.mpr engine.program.body_ne_nil
  refine ⟨running, ?_, ?_, repeats⟩
  · simpa only [control, index] using nonempty
  · simpa only [control, index, List.drop_zero] using repeats _ permitted

theorem endures_of_clean (rests : engine.Rests program extent 0)
    (walked : Statement.walk extent program.body 0 0 = .ok 0) :
    engine.control.Endures (· = 0) := by
  refine rests.endures rfl ?_
  rintro base rfl
  exact ⟨0, rfl, walked⟩

theorem endures_of_ordinary {final : Nat} (rests : engine.Rests program extent depth)
    (ordinary : ∀ statement ∈ program.body, statement.instruction.opcode ≠ .out)
    (walked : Statement.walk extent program.body 0 0 = .ok final) :
    engine.control.Endures fun _ => True := by
  refine rests.endures trivial ?_
  intro base _
  exact ⟨base + final, trivial, Statement.walk_add ordinary walked base⟩

end Rests

/-- The first scan of a fresh engine without a limit decides every later one, whatever
the host forces and clears before each. With no leftovers every scan completes and leaves
none. With leftovers and no store every scan completes and leaves as many again. With
leftovers and a store the second scan faults at the first store. So an engine that
completes two scans never faults before it is reset. -/
theorem first_scan_decides (fresh : engine.Fresh) (unlimited : engine.stepLimit = none)
    {calls : Nat → List Request}
    (called : ∀ count, ∀ request ∈ calls count, request.isHostCall = true) {steps : Nat}
    (completed : (engine.nthScan calls 0).1 = .ok steps) :
    let program := engine.program
    let depth := (engine.nthScan calls 0).2.stack.depth
    (depth = 0 → ∀ count,
      (engine.nthScan calls count).1 = .ok program.body.length ∧
        (engine.nthScan calls count).2.stack.depth = 0) ∧
    (0 < depth → (∀ statement ∈ program.body, statement.instruction.opcode ≠ .out) →
      ∀ count,
        (engine.nthScan calls count).1 = .ok program.body.length ∧
          (engine.nthScan calls count).2.stack.depth = (count + 1) * depth) ∧
    (0 < depth → (∃ statement ∈ program.body, statement.instruction.opcode = .out) →
      (engine.nthScan calls 1).1 =
        .error (.fault ⟨program.firstOut, (program.fetch program.firstOut).line,
          (program.fetch program.firstOut).instruction, .stack ⟨.exactly 1, depth + 1⟩⟩)) ∧
    (∀ again, (engine.nthScan calls 1).1 = .ok again → ∀ requests, .reset ∉ requests →
      ((engine.nthScan calls 1).2.serveAll requests).fault = none) := by
  intro program depth
  have rests := fresh.rests unlimited
  have walked : Statement.walk engine.memory.extent program.body 0 0 = .ok depth :=
    (rests.serveAll (called 0)).walk_of_scan completed
  have second : ((engine.nthScan calls 0).2.serveAll (calls 1)).Rests program
      engine.memory.extent depth :=
    ((rests.serveAll (called 0)).scan_of_walk_ok walked).2.serveAll (called 1)
  have faults := fun leftover => second.scan_of_out leftover walked
  refine ⟨?clean, ?ordinary, faults, ?lasting⟩
  case clean =>
    intro clean count
    rw [clean] at walked
    obtain ⟨answer, after⟩ := rests.nthScan (fun _ => 0) called (fun _ => walked) count
    exact ⟨answer, after.depth_eq⟩
  case ordinary =>
    intro _ ordinary count
    have deeper (base : Nat) :
        Statement.walk engine.memory.extent program.body 0 (base * depth) =
          .ok ((base + 1) * depth) := by
      rw [Nat.succ_mul]
      exact Statement.walk_add ordinary walked (base * depth)
    have start : engine.Rests program engine.memory.extent (0 * depth) := by
      rw [Nat.zero_mul]
      exact rests
    obtain ⟨answer, after⟩ := start.nthScan (· * depth) called deeper count
    exact ⟨answer, after.depth_eq⟩
  case lasting =>
    intro again repeated requests continues
    by_cases clean : depth = 0
    · rw [clean] at walked second
      have after := (second.scan_of_walk_ok walked).2
      exact ((after.endures_of_clean walked).serveAll continues).running
    · have ordinary : ∀ statement ∈ program.body, statement.instruction.opcode ≠ .out := by
        intro statement membership out
        have failed := faults (Nat.pos_of_ne_zero clean) ⟨statement, membership, out⟩
        have both := failed.symm.trans repeated
        contradiction
      have after := (second.scan_of_walk_ok (second.walk_of_scan repeated)).2
      exact ((after.endures_of_ordinary ordinary walked).serveAll continues).running

/-- A program that loads once more than it stores faults in its second scan. -/
theorem second_scan_faults_of_spare_load :
    let program : Program :=
      ⟨#[⟨1, ⟨.load false, some 0⟩⟩, ⟨2, ⟨.load true, some 0⟩⟩, ⟨3, ⟨.merge .or, none⟩⟩,
        ⟨5, ⟨.out, some 0⟩⟩, ⟨6, ⟨.load false, some 0⟩⟩, ⟨7, ⟨.finish, none⟩⟩], by decide⟩
    let engine := start program { bankSize := 0 }
    let calls (_ : Nat) : List Request := [.setInput 0 true, .clearMemory]
    (engine.nthScan calls 0).1 = .ok 6 ∧ (engine.nthScan calls 0).2.stack.depth = 1 ∧
      (engine.nthScan calls 1).1 =
        .error (.fault ⟨3, 5, ⟨.out, some 0⟩, .stack ⟨.exactly 1, 2⟩⟩) := by
  intro program engine calls
  have called : ∀ count, ∀ request ∈ calls count, request.isHostCall = true := by
    simp [calls, Request.isHostCall]
  have completed : (engine.nthScan calls 0).1 = .ok 6 := by decide
  have depth : (engine.nthScan calls 0).2.stack.depth = 1 := by decide
  have fresh : engine.Fresh := .start program { bankSize := 0 }
  have decided := first_scan_decides fresh rfl called completed
  simp only [depth] at decided
  have failed := decided.2.2.1 Nat.zero_lt_one (by decide)
  exact ⟨completed, depth, failed⟩

end Engine

end RelayLadder
