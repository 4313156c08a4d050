import RelayLadder.Proofs.Engine.Banks

/-!
Scans that never complete. Under the per-scan policy what they stored stays in the
pending bank, and no later scan shows it: before the banks next change roles, the same
cells are stored to again.
-/

namespace RelayLadder

/-- The memory with everything that is pending thrown away. -/
def Memory.rollback (memory : Memory) : Memory :=
  { memory with
    pending := memory.live
    pending_size := memory.live_size }

/-- The statements that run before the current scan, or after a fault the next one,
completes. -/
def Control.unrun (control : Control) : List Statement :=
  match control.fault with
  | none => control.program.body.drop control.pc
  | some _ => control.program.body

theorem Control.unrun_subset (control : Control) : control.unrun ⊆ control.program.body := by
  unfold unrun
  split
  · exact List.drop_subset _ _
  · exact List.Subset.refl _

namespace Engine

variable {engine : Engine}

/-- The engine as if its current scan had stored nothing. -/
def rollback (engine : Engine) : Engine := { engine with memory := engine.memory.rollback }

theorem unrun_of_running (running : engine.fault = none) :
    engine.control.unrun = engine.program.body.drop engine.pc := by
  simp only [Control.unrun, control, running]

theorem unrun_of_fault {fault : Fault} (latched : engine.fault = some fault) :
    engine.control.unrun = engine.program.body := by
  simp only [Control.unrun, control, latched]

/-- Engines that differ in nothing but pending cells, which will be stored to before the
pending bank is shown. -/
structure Shadows (left right : Engine) : Prop where
  policy : left.toggle = .perScan
  samePolicy : right.toggle = .perScan
  control : left.control = right.control
  inside : left.fault = none → left.pc < left.program.body.length
  stack : left.stack = right.stack
  mode : left.memory.mode = right.memory.mode
  live : left.memory.liveAt = right.memory.liveAt
  pending : ∀ address, left.memory.pendingAt address = right.memory.pendingAt address ∨
    left.memory.mode = false ∧ Statement.StoresTo left.control.unrun address

namespace Shadows

variable {left right : Engine}

theorem fault (shadows : Shadows left right) : right.fault = left.fault :=
  congrArg Control.fault shadows.control.symm

theorem extent (shadows : Shadows left right) : left.memory.extent = right.memory.extent :=
  congrArg Control.extent shadows.control

theorem statement (shadows : Shadows left right) : right.statement = left.statement :=
  congrArg Control.statement shadows.control.symm

theorem objection? (shadows : Shadows left right) : right.objection? = left.objection? :=
  congrArg Control.objection? shadows.control.symm

theorem store? (shadows : Shadows left right) : right.store? = left.store? := by
  rw [Engine.store?, Engine.store?, shadows.statement, shadows.stack]

/-- A pending cell that still differs after a step waits for one of the other statements. -/
theorem pending_stepped (shadows : Shadows left right) (running : left.fault = none)
    (accepted : left.objection? = none) {next : Statement} {rest : List Statement}
    (ahead : left.program.body.drop left.pc = next :: rest) (address : Nat) :
    left.stepped.memory.pendingAt address = right.stepped.memory.pendingAt address ∨
      left.memory.mode = false ∧ Statement.StoresTo rest address := by
  have rightAccepted := shadows.objection?.trans accepted
  rw [pendingAt_stepped_of_perScan shadows.policy accepted,
    pendingAt_stepped_of_perScan shadows.samePolicy rightAccepted, shadows.store?]
  rcases shadows.pending address with same | ⟨mode, other, membership, store⟩
  · exact .inl (Memory.afterStores_congr same _)
  · rw [unrun_of_running running, ahead, List.mem_cons] at membership
    rcases membership with rfl | later
    · have fetched : left.statement = other := (pc_stepped_of_body ahead).1
      rw [← fetched] at store
      exact .inl (Instruction.afterStores_store?_of_out accepted store _ _)
    · exact .inr ⟨mode, other, later, store⟩

theorem stepped (shadows : Shadows left right) (running : left.fault = none)
    (accepted : left.objection? = none) : Shadows left.stepped right.stepped := by
  obtain ⟨next, rest, ahead⟩ := ahead_of_inside (shadows.inside running)
  have rightAccepted := shadows.objection?.trans accepted
  have control : left.stepped.control = right.stepped.control := by
    rw [control_stepped accepted, control_stepped rightAccepted, shadows.control]
  have index : left.stepped.pc = right.stepped.pc := congrArg Control.pc control
  have pending := shadows.pending_stepped running accepted ahead
  have stillRunning : left.stepped.fault = none := running
  have mode := mode_stepped_of_perScan shadows.policy
  refine ⟨shadows.policy, shadows.samePolicy, control, ?inside, ?stack, ?mode, ?live, ?pending⟩
  case inside =>
    intro _
    exact inside_stepped (shadows.inside running)
  case stack =>
    change left.statement.instruction.evaluate left.memory.liveAt left.stack =
      right.statement.instruction.evaluate right.memory.liveAt right.stack
    rw [shadows.statement, shadows.live, shadows.stack]
  case mode =>
    rw [mode, mode_stepped_of_perScan shadows.samePolicy, index, shadows.mode]
  case live =>
    have leftPending := pendingAt_stepped_of_perScan shadows.policy accepted
    have rightPending := pendingAt_stepped_of_perScan shadows.samePolicy rightAccepted
    rw [liveAt_stepped_of_perScan shadows.policy accepted,
      liveAt_stepped_of_perScan shadows.samePolicy rightAccepted, ← index]
    by_cases completed : left.stepped.pc = 0
    · -- Nothing is left to run, so every pending cell has been made the same.
      rw [if_pos completed, if_pos completed, ← leftPending, ← rightPending]
      have last : rest = [] := by
        by_contra unfinished
        have moved := (pc_stepped_of_body ahead).2
        rw [if_neg unfinished] at moved
        omega
      funext address
      rcases pending address with same | ⟨_, other, membership, _⟩
      · exact same
      · rw [last] at membership
        cases membership
    · rw [if_neg completed, if_neg completed, shadows.live]
  case pending =>
    intro address
    rcases pending address with same | ⟨visible, stores⟩
    · exact .inl same
    · have more : rest ≠ [] := by
        obtain ⟨other, membership, _⟩ := stores
        exact List.ne_nil_of_mem membership
      obtain ⟨moved, following⟩ := ahead_stepped ahead more
      have unfinished : left.stepped.pc ≠ 0 := by omega
      rw [mode, if_neg unfinished, unrun_of_running stillRunning, following]
      exact .inr ⟨visible, stores⟩

theorem step (shadows : Shadows left right) :
    left.step.1 = right.step.1 ∧ Shadows left.step.2 right.step.2 := by
  cases latched : left.fault with
  | some fault =>
    rw [step_of_fault latched, step_of_fault (shadows.fault.trans latched)]
    exact ⟨rfl, shadows⟩
  | none =>
    have running := shadows.fault.trans latched
    cases decided : left.objection? with
    | none =>
      rw [step_of_accepted latched decided,
        step_of_accepted running (shadows.objection?.trans decided)]
      exact ⟨rfl, shadows.stepped latched decided⟩
    | some kind =>
      have results : outcome left.step = outcome right.step := by
        rw [outcome_step, outcome_step, shadows.control]
      rw [step_of_objection latched decided,
        step_of_objection running (shadows.objection?.trans decided)] at results ⊢
      obtain ⟨result, control⟩ := Prod.mk.inj results
      refine ⟨result, shadows.policy, shadows.samePolicy, control, nofun, shadows.stack,
        shadows.mode, shadows.live, ?_⟩
      intro address
      rcases shadows.pending address with same | ⟨mode, stores⟩
      · exact .inl same
      · exact .inr ⟨mode, stores.mono left.control.unrun_subset⟩

theorem reset (shadows : Shadows left right) : Shadows left.reset right.reset := by
  have control : left.reset.control = right.reset.control := by
    rw [control_reset, control_reset, shadows.control]
  have modes : left.reset.memory.mode = right.reset.memory.mode :=
    left.memory.mode_resetMode.trans right.memory.mode_resetMode.symm
  -- Banks that change roles have no cell in which the engines differ.
  have same : left.memory.mode = true → left.memory.pendingAt = right.memory.pendingAt := by
    intro mode
    funext address
    rcases shadows.pending address with same | ⟨hidden, _⟩
    · exact same
    · cases hidden.symm.trans mode
  refine ⟨shadows.policy, shadows.samePolicy, control, ?inside, rfl, modes, ?live, ?pending⟩
  case inside =>
    intro _
    exact List.length_pos_iff.mpr left.program.body_ne_nil
  case live =>
    change left.memory.resetMode.liveAt = right.memory.resetMode.liveAt
    rw [Memory.liveAt_resetMode_eq, Memory.liveAt_resetMode_eq, ← shadows.mode]
    split
    next mode => exact same mode
    next => exact shadows.live
  case pending =>
    intro address
    change left.memory.resetMode.pendingAt address = right.memory.resetMode.pendingAt address ∨
      left.memory.resetMode.mode = false ∧ _
    rw [Memory.pendingAt_resetMode_eq, Memory.pendingAt_resetMode_eq, ← shadows.mode,
      Memory.mode_resetMode]
    split
    next => exact .inl (congrFun shadows.live address)
    next =>
      rcases shadows.pending address with same | ⟨_, stores⟩
      · exact .inl same
      · exact .inr ⟨rfl, stores.mono left.control.unrun_subset⟩

theorem force (shadows : Shadows left right) {address : Nat} (value : Bool)
    (inside : address < left.memory.cells) :
    Shadows { left with memory := left.memory.setBoth address value }
      { right with memory := right.memory.setBoth address value } := by
  have rightInside : address < right.memory.cells := by
    rwa [← Memory.cells_extent, ← shadows.extent]
  refine ⟨shadows.policy, shadows.samePolicy, shadows.control, shadows.inside, shadows.stack,
    shadows.mode, ?_, ?_⟩
  · change (left.memory.setBoth address value).liveAt = (right.memory.setBoth address value).liveAt
    rw [Memory.liveAt_setBoth value inside, Memory.liveAt_setBoth value rightInside, shadows.live]
  · intro other
    change (left.memory.setBoth address value).pendingAt other =
      (right.memory.setBoth address value).pendingAt other ∨ _
    rw [Memory.pendingAt_setBoth value inside, Memory.pendingAt_setBoth value rightInside]
    by_cases target : other = address
    · subst target
      simp
    · rw [Function.update_of_ne target, Function.update_of_ne target]
      exact shadows.pending other

theorem clearMemory (shadows : Shadows left right) :
    Shadows left.clearMemory right.clearMemory := by
  refine ⟨shadows.policy, shadows.samePolicy, shadows.control, shadows.inside, shadows.stack,
    shadows.mode, ?_, ?_⟩
  · simp [Engine.clearMemory]
  · simp [Engine.clearMemory]

theorem bisimulation : Bisimulation Shadows where
  step := step
  index := by
    intro left right shadows _
    exact congrArg Control.pc shadows.control
  budget := by
    intro left right shadows
    exact congrArg (fun control : Control => control.stepLimit.getD control.program.size)
      shadows.control
  extent := extent
  force := by
    intro left right address value inside shadows
    exact shadows.force value inside
  clearMemory := clearMemory
  reset := reset

theorem answer (shadows : Shadows left right) (request : Request) :
    (left.serve request).1 = (right.serve request).1 := by
  apply bisimulation.answer shadows
  intro address _
  rw [shadows.live]

end Shadows

/-- Nothing that is pending between two scans of a first run, or after a fault, can show. -/
theorem Tidy.shadows_rollback (tidy : engine.Tidy)
    (idle : engine.control.unrun = engine.program.body)
    (hidden : engine.memory.mode = true → engine.memory.liveAt = engine.memory.pendingAt) :
    Shadows engine engine.rollback := by
  refine ⟨tidy.policy, tidy.policy, rfl, tidy.paced.inside, rfl, rfl, rfl, ?_⟩
  intro address
  change engine.memory.pendingAt address = engine.memory.liveAt address ∨ _
  cases mode : engine.memory.mode with
  | true => exact .inl (congrFun (hidden mode).symm address)
  | false =>
    by_cases stores : Statement.StoresTo engine.program.body address
    · rw [idle]
      exact .inr ⟨rfl, stores⟩
    · exact .inl (tidy.always address stores).symm

/-- A scan that faults under the per-scan policy is rolled back for good. From then on the
engine answers every history as one whose pending bank was made a copy of the live one,
and every load and every read sees the same cells. -/
theorem faulted_scan_rolls_back {program : Program} {config : Config}
    (policy : config.toggle = .perScan) {requests : List Request} {fault : Fault}
    (latched : ((start program config).serveAll requests).fault = some fault)
    (later : List Request) :
    let engine := (start program config).serveAll requests
    let left := engine.serveAll later
    let right := engine.rollback.serveAll later
    (∀ request, (left.serve request).1 = (right.serve request).1) ∧
      (∀ address, left.read address = right.read address) ∧
      (∀ instruction : Instruction,
        instruction.cell left.memory = instruction.cell right.memory) ∧
      left.stack = right.stack ∧ left.control = right.control := by
  intro engine left right
  have tidy : engine.Tidy := .of_history program policy requests
  have coherent : Coherent program config engine := .of_history program config requests
  have shadows : Shadows left right := by
    apply Shadows.bisimulation.serveAll
    apply tidy.shadows_rollback (unrun_of_fault latched)
    intro mode
    obtain ⟨half, odd⟩ := (coherent.mode_of_perScan policy).mp mode
    apply tidy.banks_of_fault
    · rw [latched]
      exact Option.some_ne_none fault
    · omega
  have cells (address : Nat) : left.memory.read address = right.memory.read address :=
    Memory.read_congr shadows.extent (congrFun shadows.live address)
  refine ⟨shadows.answer, ?_, ?_, shadows.stack, shadows.control⟩
  · intro address
    rw [Engine.read, Engine.read, cells]
  · intro instruction
    unfold Instruction.cell
    cases instruction.operand with
    | none => rfl
    | some address => simp only [cells]

/-- A scan that stores and then faults leaves its store behind, and it is never seen. -/
theorem faulted_scan_rolls_back_after_store :
    let program : Program :=
      ⟨#[⟨1, ⟨.load true, some 0⟩⟩, ⟨2, ⟨.out, some 0⟩⟩, ⟨3, ⟨.merge .or, none⟩⟩], by decide⟩
    let config : Config := { bankSize := 0, toggle := .perScan }
    let engine := (start program config).serveAll [.scan]
    let later : List Request := [.reset, .step, .reset, .scanWithin 9, .reset]
    engine.fault = some ⟨2, 3, ⟨.merge .or, none⟩, .stack ⟨.atLeast 2, 0⟩⟩ ∧
      engine.memory.pendingAt 0 = true ∧ engine.rollback.memory.pendingAt 0 = false ∧
      (engine.serveAll later).read 0 = (engine.rollback.serveAll later).read 0 := by
  intro program config engine later
  have latched : engine.fault = some ⟨2, 3, ⟨.merge .or, none⟩, .stack ⟨.atLeast 2, 0⟩⟩ := by
    decide
  obtain ⟨_, reads, _⟩ := faulted_scan_rolls_back rfl latched later
  exact ⟨latched, by decide, by decide, reads 0⟩

end Engine

end RelayLadder
