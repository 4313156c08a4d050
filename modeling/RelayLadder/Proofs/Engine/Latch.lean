import RelayLadder.Proofs.Engine.Endurance
import RelayLadder.Proofs.Engine.History

/-!
A latched fault. It answers whenever the engine is to take a step, and nothing moves
until a reset releases it. A scan that may take no step meets its limit first.
-/

namespace RelayLadder

/-- Whether a request asks the engine to run its program. -/
def Request.isRun : Request → Bool
  | .step | .stepMany _ | .scan | .scanWithin _ => true
  | .read _ | .setInput _ _ | .clearMemory | .reset => false

/-- What neither runs the program nor resets the engine is a call of the host. -/
theorem Request.isHostCall_of_rests {request : Request} (rests : request.isRun = false)
    (continues : request ≠ .reset) : request.isHostCall = true := by
  cases request with
  | read address | setInput address value | clearMemory => rfl
  | step | stepMany count | scan | scanWithin limit => cases rests
  | reset => contradiction

namespace Engine

variable {engine : Engine} {fault : Fault}

theorem stepMany_of_fault (latched : engine.fault = some fault) (count : Nat) :
    engine.stepMany (count + 1) = (.error (.halted fault), engine) := by
  apply stepMany_of_step_error
  exact step_of_fault latched

theorem scanWithin_of_fault (latched : engine.fault = some fault) (limit : Nat) :
    engine.scanWithin limit =
      (.error (if limit = 0 then .stepLimit 0 else .halted fault), engine) := by
  cases limit with
  | zero => rfl
  | succ limit =>
    apply scanOn_of_step_error
    exact step_of_fault latched

theorem scan_of_fault (latched : engine.fault = some fault) :
    engine.scan =
      (.error (if engine.stepLimit = some 0 then .stepLimit 0 else .halted fault), engine) := by
  rw [scan, scanWithin_of_fault latched]
  cases limited : engine.stepLimit with
  | some limit => simp
  | none =>
    -- A program is never empty, so its length allows a step.
    have allowed : engine.program.size ≠ 0 := Nat.ne_of_gt engine.program.size_pos
    simp [allowed]

theorem serve_run_of_fault (latched : engine.fault = some fault) {request : Request}
    (runs : request.isRun = true) : (engine.serve request).2 = engine := by
  cases request with
  | step => simp only [serve, step_of_fault latched]
  | stepMany count =>
    cases count with
    | zero => rfl
    | succ count => simp only [serve, stepMany_of_fault latched]
  | scan => simp only [serve, scan_of_fault latched]
  | scanWithin limit => simp only [serve, scanWithin_of_fault latched]
  | read address | setInput address value | clearMemory | reset => contradiction

theorem serveAll_runs_of_fault (latched : engine.fault = some fault) {requests : List Request}
    (run : ∀ request ∈ requests, request.isRun = true) : engine.serveAll requests = engine := by
  induction requests with
  | nil => rfl
  | cons request rest inductionHypothesis =>
    obtain ⟨first, others⟩ := List.forall_mem_cons.mp run
    rw [serveAll, List.foldl_cons, serve_run_of_fault latched first]
    exact inductionHypothesis others

/-- Until a reset, only the cells of a halted engine can change. -/
theorem control_serve_of_fault (latched : engine.fault = some fault) {request : Request}
    (continues : request ≠ .reset) : (engine.serve request).2.control = engine.control := by
  cases runs : request.isRun with
  | true => rw [serve_run_of_fault latched runs]
  | false => exact control_serve_of_hostCall (Request.isHostCall_of_rests runs continues) engine

theorem control_serveAll_of_fault (latched : engine.fault = some fault) {requests : List Request}
    (continues : .reset ∉ requests) : (engine.serveAll requests).control = engine.control := by
  induction requests generalizing engine with
  | nil => rfl
  | cons request rest inductionHypothesis =>
    rw [List.mem_cons, not_or] at continues
    have first := control_serve_of_fault latched (Ne.symm continues.1)
    have stillLatched : (engine.serve request).2.fault = some fault :=
      (congrArg Control.fault first).trans latched
    exact (inductionHypothesis stillLatched continues.2).trans first

theorem Invariant.stepLimit (limit : Option Nat) :
    Invariant fun engine => engine.stepLimit = limit where
  step := by
    intro engine kept
    apply keeps_step (fun engine => engine.stepLimit = limit) kept
    · intro _ _
      exact kept
    · intro _ _ _
      exact kept
  force := by
    intro engine address value _ kept
    exact kept
  clearMemory := by
    intro engine kept
    exact kept
  reset := by
    intro engine kept
    exact kept

/-- What a halted engine answers to the requests to run, whatever else was asked of it
since the fault: the fault itself, except that a scan with no step allowed exceeds its
limit before it comes to the fault. -/
theorem halted_answers {program : Program} {config : Config} {requests : List Request}
    {fault : Fault} (latched : ((start program config).serveAll requests).fault = some fault)
    {later : List Request} (continues : .reset ∉ later) :
    let engine := ((start program config).serveAll requests).serveAll later
    (engine.serve .step).1 = .error (.halted fault) ∧
      (∀ count, (engine.serve (.stepMany (count + 1))).1 = .error (.halted fault)) ∧
      (∀ limit, (engine.serve (.scanWithin limit)).1 =
        .error (if limit = 0 then .stepLimit 0 else .halted fault)) ∧
      (engine.serve .scan).1 =
        .error (if config.stepLimit = some 0 then .stepLimit 0 else .halted fault) := by
  intro engine
  have control := control_serveAll_of_fault latched continues
  have stillLatched : engine.fault = some fault := (congrArg Control.fault control).trans latched
  have limit : engine.stepLimit = config.stepLimit := by
    apply (Invariant.stepLimit _).serveAll
    apply (Invariant.stepLimit _).serveAll
    rfl
  refine ⟨?step, ?stepMany, ?scanWithin, ?scan⟩
  case step => simp only [serve, step_of_fault stillLatched, Except.map]
  case stepMany =>
    intro count
    simp only [serve, stepMany_of_fault stillLatched, Except.map]
  case scanWithin =>
    intro limit
    simp only [serve, scanWithin_of_fault stillLatched, Except.map]
  case scan => simp only [serve, scan_of_fault stillLatched, limit, Except.map]

/-- Cells are forced and cleared on a halted engine, and a scan is refused. -/
theorem halted_answers_after_host_calls :
    let program : Program :=
      ⟨#[⟨1, ⟨.load false, some 0⟩⟩, ⟨3, ⟨.out, some 1⟩⟩, ⟨4, ⟨.out, some 0⟩⟩], by decide⟩
    let config : Config := { bankSize := 1, stepLimit := some 3 }
    let fault : Fault := ⟨2, 4, ⟨.out, some 0⟩, .stack ⟨.exactly 1, 0⟩⟩
    let halted := (start program config).serveAll [.setInput 0 true, .scan]
    let engine := halted.serveAll [.scan, .setInput 0 false, .step, .clearMemory, .read 1]
    halted.fault = some fault ∧ (engine.serve .scan).1 = .error (.halted fault) ∧
      (engine.serve (.scanWithin 1)).1 = .error (.halted fault) := by
  intro program config fault halted engine
  have latched : halted.fault = some fault := by decide
  have continues : .reset ∉
      [Request.scan, .setInput 0 false, .step, .clearMemory, .read 1] := by decide
  obtain ⟨_, _, within, scan⟩ := halted_answers latched continues
  exact ⟨latched, scan, within 1⟩

/-- With no step allowed, a halted engine reports its limit in place of its fault. -/
theorem halted_scan_exceeds_empty_limit :
    let program : Program := ⟨#[⟨1, ⟨.merge .or, none⟩⟩], by decide⟩
    let engine := (start program { bankSize := 0, stepLimit := some 0 }).serveAll [.step]
    engine.fault = some ⟨0, 1, ⟨.merge .or, none⟩, .stack ⟨.atLeast 2, 0⟩⟩ ∧
      (engine.serve .scan).1 = .error (.stepLimit 0) ∧
      (engine.serve (.scanWithin 0)).1 = .error (.stepLimit 0) := by
  decide

end Engine

end RelayLadder
