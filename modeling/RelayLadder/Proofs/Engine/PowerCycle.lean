import RelayLadder.Proofs.Engine.Forced

/-!
Resets. With the cells cleared too, a reset makes an engine as it was when it was started.
By itself it leaves the cells alone, but they have no part in what the engine answers when
it runs, so that each run after a reset answers like the first one and faults where it did.
-/

namespace RelayLadder

/-- Memory that is switched off and has its first roles is blank. -/
theorem Memory.eq_blank {memory : Memory} {size : Nat} {bounds : Bounds}
    (extent : memory.extent = ⟨size, bounds⟩) (mode : memory.mode = false)
    (live : memory.liveAt = fun _ => false) (pending : memory.pendingAt = fun _ => false) :
    memory = blank size bounds := by
  apply eq_of_cells
  · exact extent
  · exact mode
  · rw [live, liveAt_blank]
  · rw [pending, pendingAt_blank]

/-- A request to run is the same request to whichever engine it goes. -/
theorem Request.alike_of_isRun {request : Request} (runs : request.isRun = true) :
    request.Alike request := by
  cases request with
  | step => exact .step
  | stepMany count => exact .stepMany count
  | scan => exact .scan
  | scanWithin limit => exact .scanWithin limit
  | read address | setInput address value | clearMemory | reset => cases runs

namespace Control

variable {origin : Control} {fault : Fault}

/-- The control after a number of steps, taken whether they succeed or not. -/
def after (origin : Control) (count : Nat) : Control :=
  (fun control : Control => control.step.2)^[count] origin

theorem after_add (origin : Control) (first second : Nat) :
    (origin.after first).after second = origin.after (first + second) := by
  rw [after, after, after, Nat.add_comm, Function.iterate_add_apply]

theorem after_of_fault (latched : origin.fault = some fault) (count : Nat) :
    origin.after count = origin := by
  apply Function.iterate_fixed
  simp [step, latched]

/-- So many steps succeed, and the next one faults. -/
def FaultsAfter : (count : Nat) → Fault → Control → Prop
  | 0, fault, control => control.step.1 = .error (.fault fault)
  | count + 1, fault, control =>
    control.step.1 = .ok () ∧ FaultsAfter count fault control.step.2

/-- A fault is found again by as many steps as were counted when it was found. -/
theorem exists_faultsAfter {count : Nat} (running : origin.fault = none)
    (latched : (origin.after count).fault = some fault) :
    ∃ taken, (origin.after count).steps = origin.steps + taken ∧
      origin.FaultsAfter taken fault := by
  induction count generalizing origin with
  | zero => cases running.symm.trans latched
  | succ count inductionHypothesis =>
    have first : origin.after (count + 1) = origin.step.2.after count := rfl
    rw [first] at latched ⊢
    cases decided : origin.objection? with
    | none =>
      have stepped : origin.step = (.ok (), origin.stepped) := by
        simp only [step, running, decided]
      have stillRunning : origin.stepped.fault = none := running
      rw [stepped] at latched ⊢
      obtain ⟨taken, counted, faults⟩ := inductionHypothesis stillRunning latched
      refine ⟨taken + 1, ?_, ?_⟩
      · exact counted.trans (Nat.add_right_comm origin.steps 1 taken)
      · rw [FaultsAfter, stepped]
        exact ⟨rfl, faults⟩
    | some kind =>
      have halted : origin.step.2.fault = some (origin.blame kind) := by
        simp only [step, running, decided]
      rw [after_of_fault halted, halted, Option.some.injEq] at latched
      subst latched
      refine ⟨0, ?_, ?_⟩
      · rw [after_of_fault halted]
        simp only [step, running, decided, Nat.add_zero]
      · simp only [FaultsAfter, step, running, decided]

end Control

namespace Engine

variable {engine left right : Engine} {fault : Fault}

/-- The answers to the requests to run, whatever else is asked between them. -/
def runAnswers : Engine → List Request → List (Except Failure Reply)
  | _, [] => []
  | engine, request :: requests =>
    let later := (engine.serve request).2.runAnswers requests
    if request.isRun then (engine.serve request).1 :: later else later

theorem runAnswers_of_run {request : Request} (runs : request.isRun = true)
    (requests : List Request) :
    engine.runAnswers (request :: requests) =
      (engine.serve request).1 :: (engine.serve request).2.runAnswers requests := by
  rw [runAnswers, if_pos runs]

/-- Whatever the host does between the runs, and whatever the cells are, the runs answer as
they would without it. -/
theorem runAnswers_eq (same : left.control = right.control) {history : List Request}
    (continues : .reset ∉ history) :
    left.runAnswers history = right.runAnswers (history.filter Request.isRun) := by
  induction history generalizing left right with
  | nil => rfl
  | cons request history inductionHypothesis =>
    rw [List.mem_cons, not_or] at continues
    obtain ⟨goesOn, continues⟩ := continues
    cases runs : request.isRun with
    | true =>
      obtain ⟨answer, following⟩ :=
        Prod.mk.inj (outcome_serve_eq same (Request.alike_of_isRun runs))
      rw [List.filter_cons_of_pos runs, runAnswers_of_run runs, runAnswers_of_run runs]
      rw [answer, inductionHypothesis following continues]
    | false =>
      have called := Request.isHostCall_of_rests runs (Ne.symm goesOn)
      have kept := control_serve_of_hostCall called left
      have skipped : ¬ request.isRun = true := by simp [runs]
      rw [List.filter_cons_of_neg skipped, runAnswers, if_neg skipped]
      exact inductionHypothesis (kept.trans same) continues

/-- A control that faults after some steps faults after so many requests for one. -/
theorem runAnswers_steps {count : Nat} (faults : engine.control.FaultsAfter count fault) :
    engine.runAnswers (List.replicate (count + 1) .step) =
      List.replicate count (.ok .done) ++ [.error (.fault fault)] := by
  induction count generalizing engine with
  | zero =>
    rw [Control.FaultsAfter, ← outcome_step] at faults
    have failed : engine.step.1 = .error (.fault fault) := faults
    simp [Request.isRun, serve, failed, runAnswers, Except.map]
  | succ count inductionHypothesis =>
    rw [Control.FaultsAfter, ← outcome_step] at faults
    obtain ⟨succeeded, later⟩ := faults
    have passed : engine.step.1 = .ok () := succeeded
    have answered : (engine.serve .step).1 = .ok .done := by simp [serve, passed, Except.map]
    have rest : engine.step.2.runAnswers (List.replicate (count + 1) .step) =
        List.replicate count (.ok .done) ++ [.error (.fault fault)] := inductionHypothesis later
    rw [List.replicate_succ, runAnswers_of_run rfl, answered]
    exact congrArg (List.cons _) rest

theorem control_stepMany (engine : Engine) (count : Nat) :
    ∃ taken, (engine.stepMany count).2.control = engine.control.after taken := by
  induction count generalizing engine with
  | zero => exact ⟨0, rfl⟩
  | succ count inductionHypothesis =>
    have moved : engine.step.2.control = engine.control.step.2 :=
      congrArg Prod.snd (outcome_step engine)
    rcases step : engine.step with ⟨result, next⟩
    rw [step] at moved
    cases result with
    | ok _ =>
      obtain ⟨taken, reached⟩ := inductionHypothesis next
      refine ⟨taken + 1, ?_⟩
      rw [stepMany_of_step_ok step, reached, moved]
      rfl
    | error failure =>
      refine ⟨1, ?_⟩
      rw [stepMany_of_step_error step]
      exact moved

/-- Short of a reset, all that a history does to the control is to take steps. -/
theorem control_serveAll (engine : Engine) {requests : List Request}
    (continues : .reset ∉ requests) :
    ∃ taken, (engine.serveAll requests).control = engine.control.after taken := by
  induction requests generalizing engine with
  | nil => exact ⟨0, rfl⟩
  | cons request requests inductionHypothesis =>
    rw [List.mem_cons, not_or] at continues
    obtain ⟨goesOn, continues⟩ := continues
    have one : ∃ taken, (engine.serve request).2.control = engine.control.after taken := by
      cases runs : request.isRun with
      | true =>
        obtain ⟨count, same⟩ := exists_stepMany_eq_serve engine runs
        rw [same]
        exact control_stepMany engine count
      | false =>
        have called := Request.isHostCall_of_rests runs (Ne.symm goesOn)
        exact ⟨0, control_serve_of_hostCall called engine⟩
    obtain ⟨first, reached⟩ := one
    obtain ⟨others, further⟩ := inductionHypothesis (engine.serve request).2 continues
    refine ⟨first + others, ?_⟩
    rw [← Control.after_add, ← reached]
    exact further

theorem stepLimit_of_history (program : Program) (config : Config) (requests : List Request) :
    ((start program config).serveAll requests).stepLimit = config.stepLimit :=
  (Invariant.stepLimit config.stepLimit).serveAll rfl requests

/-- No request ever changes the program, the policy, the limit or the extent of the banks, so
a reset engine is a started one but for its cells. -/
theorem reset_eq_start (program : Program) (config : Config) (requests : List Request) :
    let engine := (start program config).serveAll requests
    engine.reset = { start program config with memory := engine.memory.resetMode } ∧
      engine.memory.extent = ⟨config.bankSize, config.bounds⟩ := by
  intro engine
  have coherent : Coherent program config engine := .of_history program config requests
  refine ⟨?_, coherent.extent_eq⟩
  rw [reset, coherent.program_eq, coherent.toggle_eq, stepLimit_of_history program config requests]
  rfl

theorem control_reset_of_history (program : Program) (config : Config)
    (requests : List Request) :
    ((start program config).serveAll requests).reset.control = (start program config).control := by
  obtain ⟨same, extent⟩ := reset_eq_start program config requests
  rw [same, control, Memory.extent_resetMode, extent]
  rfl

/-- A reset and a clear together are a power cycle, in either order. A reset alone starts a
run that answers like the first one, whatever is left in the cells and whatever the host
forces meanwhile; and a fault that was met after a number of steps is met again after as
many. -/
theorem reset_repeats_first_run (program : Program) (config : Config) (requests : List Request) :
    let first := start program config
    let engine := first.serveAll requests
    engine.reset.clearMemory = first ∧ engine.clearMemory.reset = first ∧
    (∀ history other : List Request, .reset ∉ history → .reset ∉ other →
      history.filter Request.isRun = other.filter Request.isRun →
      engine.reset.runAnswers history = first.runAnswers other) ∧
    ∀ (during : List Request) (fault : Fault), .reset ∉ during →
      (engine.reset.serveAll during).fault = some fault →
      ∀ later history : List Request, .reset ∉ history →
        let halted := engine.reset.serveAll during
        history.filter Request.isRun = List.replicate (halted.steps + 1) .step →
        (halted.serveAll later).reset.runAnswers history =
          List.replicate halted.steps (.ok .done) ++ [.error (.fault fault)] := by
  intro first engine
  obtain ⟨same, extent⟩ := reset_eq_start program config requests
  have control : engine.reset.control = first.control :=
    control_reset_of_history program config requests
  refine ⟨?resetFirst, ?clearFirst, ?answers, ?faults⟩
  case resetFirst =>
    have memory : engine.memory.resetMode.clear = .blank config.bankSize config.bounds := by
      apply Memory.eq_blank
      · simpa using extent
      · exact engine.memory.mode_resetMode
      · simp
      · simp
    rw [clearMemory, same]
    exact congrArg (fun memory => { first with memory }) memory
  case clearFirst =>
    have memory : engine.memory.clear.resetMode = .blank config.bankSize config.bounds := by
      apply Memory.eq_blank
      · simpa using extent
      · exact engine.memory.clear.mode_resetMode
      · simp [Memory.liveAt_resetMode_eq]
      · simp [Memory.pendingAt_resetMode_eq]
    have swapped : engine.clearMemory.reset =
        { engine.reset with memory := engine.memory.clear.resetMode } := rfl
    rw [swapped, same]
    exact congrArg (fun memory => { first with memory }) memory
  case answers =>
    intro history other continues otherContinues runs
    rw [runAnswers_eq control continues, runs, runAnswers_eq rfl otherContinues]
  case faults =>
    intro during fault continues latched later history historyContinues halted runs
    obtain ⟨taken, reached⟩ := control_serveAll engine.reset continues
    have latchedControl : (engine.reset.control.after taken).fault = some fault := by
      rw [← reached]
      exact latched
    obtain ⟨count, counted, faults⟩ := Control.exists_faultsAfter rfl latchedControl
    have steps : halted.steps = count := by
      have total := (congrArg Control.steps reached).trans counted
      exact total.trans (Nat.zero_add count)
    have joined : halted.serveAll later =
        first.serveAll (requests ++ .reset :: (during ++ later)) := by
      simp [halted, engine, serveAll, serve]
    have again : (halted.serveAll later).reset.control = engine.reset.control := by
      rw [joined, control]
      exact control_reset_of_history program config _
    rw [runAnswers_eq again historyContinues, runs, steps]
    exact runAnswers_steps faults

/-- A store that faults in the second scan, met by scans at first and then by single steps
between which cells are forced. -/
theorem reset_repeats_fault_of_spare_load :
    let program : Program :=
      ⟨#[⟨1, ⟨.load false, some 0⟩⟩, ⟨3, ⟨.out, some 1⟩⟩, ⟨4, ⟨.load true, some 1⟩⟩], by decide⟩
    let config : Config := { bankSize := 1, toggle := .perScan }
    let engine := (start program config).serveAll [.setInput 0 true, .scan, .step]
    let halted := engine.reset.serveAll [.scan, .setInput 1 true, .scanWithin 9]
    let fault : Fault := ⟨1, 3, ⟨.out, some 1⟩, .stack ⟨.exactly 1, 2⟩⟩
    engine.memory.mode = true ∧ engine.pc = 1 ∧ engine.reset.clearMemory = start program config ∧
      halted.fault = some fault ∧
      (halted.serveAll [.step, .clearMemory]).reset.runAnswers
          [.step, .setInput 0 false, .step, .step, .read 1, .setInput 1 true, .step, .step] =
        [.ok .done, .ok .done, .ok .done, .ok .done, .error (.fault fault)] := by
  intro program config engine halted fault
  have latched : halted.fault = some fault := by decide
  have steps : halted.steps = 4 := by decide
  obtain ⟨cycle, _, _, faults⟩ :=
    reset_repeats_first_run program config [.setInput 0 true, .scan, .step]
  have answers : (halted.serveAll [.step, .clearMemory]).reset.runAnswers
      [.step, .setInput 0 false, .step, .step, .read 1, .setInput 1 true, .step, .step] =
        List.replicate halted.steps (.ok .done) ++ [.error (.fault fault)] := by
    apply faults _ fault (by decide) latched _ _ (by decide)
    rw [steps]
    rfl
  rw [steps] at answers
  exact ⟨by decide, by decide, cycle, latched, answers⟩

end Engine

end RelayLadder
