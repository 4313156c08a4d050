import Mathlib.Algebra.Ring.Parity
import RelayLadder.Proofs.Engine.History

/-!
What the fields of an engine have to do with one another, after any history of
requests. The counters tell the index, a latched fault tells where it arose, the
number of times the banks have changed roles tells the mode, and the extent of the
banks is the configured one.
-/

namespace RelayLadder

namespace TogglePolicy

/-- How often the banks have changed roles since the last reset. -/
def turns : TogglePolicy → (steps scans : Nat) → Nat
  | .perInstruction, steps, _ => steps
  | .perScan, _, scans => scans

end TogglePolicy

namespace Engine

variable {engine : Engine}

theorem eq_start_of_start? {program : Program} {config : Config}
    (started : start? program config = .ok engine) : engine = start program config := by
  by_cases fits : config.bounds.cells config.bankSize ≤ Memory.longestBank
  · rw [start?_eq_ok fits] at started
    exact (Except.ok.inj started).symm
  · simp [start?, Memory.allocate?, fits] at started

theorem ahead_of_inside (inside : engine.pc < engine.program.body.length) :
    ∃ statement rest, engine.program.body.drop engine.pc = statement :: rest :=
  ⟨_, _, List.drop_eq_getElem_cons inside⟩

/-- A step inside the body stays inside. Either it moves on by one, or it was the last of
a scan and goes back to the start. -/
theorem pc_stepped_of_inside (inside : engine.pc < engine.program.body.length) :
    (engine.stepped.pc = engine.pc + 1 ∧ engine.pc + 1 < engine.program.body.length) ∨
      (engine.stepped.pc = 0 ∧ engine.pc + 1 = engine.program.body.length) := by
  obtain ⟨statement, rest, ahead⟩ := ahead_of_inside inside
  have index := (pc_stepped_of_body ahead).2
  have length : engine.program.body.length = engine.pc + (rest.length + 1) := by
    have lengths := congrArg List.length ahead
    rw [List.length_drop, List.length_cons] at lengths
    omega
  by_cases last : rest = []
  · rw [if_pos last] at index
    rw [last, List.length_nil] at length
    exact .inr ⟨index, length.symm⟩
  · rw [if_neg last] at index
    have positive := List.length_pos_iff.mpr last
    exact .inl ⟨index, by omega⟩

theorem inside_stepped (inside : engine.pc < engine.program.body.length) :
    engine.stepped.pc < engine.stepped.program.body.length := by
  rcases pc_stepped_of_inside inside with ⟨index, following⟩ | ⟨index, _⟩
  · rw [index]
    exact following
  · rw [index]
    exact List.length_pos_iff.mpr engine.program.body_ne_nil

theorem steps_stepped (engine : Engine) : engine.stepped.steps = engine.steps + 1 := rfl

theorem scans_stepped (engine : Engine) :
    engine.stepped.scans = if engine.stepped.pc = 0 then engine.scans + 1 else engine.scans := rfl

/-- The mode changes at a step exactly when the step counts as a change of roles. -/
theorem turns_stepped (engine : Engine) :
    (engine.stepped.memory.mode = !engine.memory.mode ∧
      engine.toggle.turns engine.stepped.steps engine.stepped.scans =
        engine.toggle.turns engine.steps engine.scans + 1) ∨
      (engine.stepped.memory.mode = engine.memory.mode ∧
        engine.toggle.turns engine.stepped.steps engine.stepped.scans =
          engine.toggle.turns engine.steps engine.scans) := by
  have put : (engine.memory.put engine.store?).mode = engine.memory.mode := by
    cases engine.store? <;> rfl
  rw [memory_stepped, steps_stepped, scans_stepped, ← put]
  cases engine.toggle with
  | perInstruction => exact .inl ⟨rfl, rfl⟩
  | perScan =>
    by_cases completed : engine.stepped.pc = 0
    · rw [if_pos completed, decide_eq_true completed]
      exact .inl ⟨rfl, rfl⟩
    · rw [if_neg completed, decide_eq_false completed]
      exact .inr ⟨rfl, rfl⟩

/-- Both banks have the given number of cells, and exactly these can be reached. -/
structure Spans (engine : Engine) (count : Nat) : Prop where
  live : engine.memory.live.size = count
  pending : engine.memory.pending.size = count
  check : ∀ address, (∃ result, engine.memory.check address = .ok result) ↔ address < count
  read : ∀ address, (∃ value, engine.read address = .ok value) ↔ address < count
  setInput : ∀ address value,
    (∃ next, engine.setInput address value = .ok next) ↔ address < count

theorem spans_cells (engine : Engine) : engine.Spans engine.memory.cells where
  live := engine.memory.size_live
  pending := engine.memory.size_pending
  check := by
    intro address
    simp [Memory.check_eq_ok_iff]
  read := by
    intro address
    rw [Engine.read, Memory.read_eq]
    by_cases inside : address < engine.memory.cells <;> simp [inside, Except.mapError]
  setInput := by
    intro address value
    simp [setInput_eq_ok_iff]

/-- An engine that is in order for its program and configuration. -/
structure Coherent (program : Program) (config : Config) (engine : Engine) : Prop where
  program_eq : engine.program = program
  toggle_eq : engine.toggle = config.toggle
  extent_eq : engine.memory.extent = ⟨config.bankSize, config.bounds⟩
  mode : engine.memory.mode = true ↔ Odd (config.toggle.turns engine.steps engine.scans)
  running : engine.fault = none →
    engine.pc < program.scanLength ∧
      engine.steps = engine.scans * program.scanLength + engine.pc
  halted : ∀ fault, engine.fault = some fault →
    fault.index < program.scanLength ∧
      program.get? fault.index = some ⟨fault.line, fault.instruction⟩ ∧
      engine.pc = (fault.index + 1) % program.size ∧
      engine.steps = engine.scans * program.scanLength + fault.index

namespace Coherent

variable {program : Program} {config : Config}

theorem start (program : Program) (config : Config) :
    Coherent program config (Engine.start program config) where
  program_eq := rfl
  toggle_eq := rfl
  extent_eq := rfl
  mode := by cases config.toggle <;> simp [TogglePolicy.turns, Engine.start, ofMemory, Memory.blank]
  running := by
    intro _
    have nonempty := List.length_pos_iff.mpr program.body_ne_nil
    rw [program.length_body] at nonempty
    exact ⟨nonempty, (Nat.zero_mul _).symm⟩
  halted := by
    intro fault latched
    cases latched

theorem stepped (coherent : Coherent program config engine) (running : engine.fault = none) :
    Coherent program config engine.stepped := by
  obtain ⟨rfl, policy, extent, mode, located, _⟩ := coherent
  obtain ⟨inside, counted⟩ := located running
  rw [← Program.length_body] at inside counted
  have moved := pc_stepped_of_inside inside
  refine ⟨rfl, policy, (extent_stepped engine).trans extent, ?mode, ?running, ?halted⟩
  case mode =>
    rw [← policy] at mode ⊢
    rcases turns_stepped engine with ⟨turned, counted⟩ | ⟨kept, counted⟩
    · rw [turned, counted, Nat.odd_add_one, ← mode]
      simp
    · rw [kept, counted]
      exact mode
  case running =>
    intro _
    rw [steps_stepped, scans_stepped, ← Program.length_body]
    rcases moved with ⟨index, following⟩ | ⟨index, last⟩
    · rw [if_neg (by omega), index]
      exact ⟨following, by omega⟩
    · rw [if_pos index, index, Nat.succ_mul]
      exact ⟨by omega, by omega⟩
  case halted =>
    intro fault latched
    rw [fault_stepped, running] at latched
    cases latched

theorem latched (coherent : Coherent program config engine) (running : engine.fault = none)
    (kind : FaultKind) : Coherent program config (engine.latch (engine.blame kind)) := by
  obtain ⟨rfl, policy, extent, mode, located, _⟩ := coherent
  obtain ⟨inside, counted⟩ := located running
  refine ⟨rfl, policy, extent, mode, ?running, ?halted⟩
  case running =>
    intro released
    cases released
  case halted =>
    rintro fault ⟨⟩
    have bound : engine.pc < engine.program.size :=
      Nat.lt_of_lt_of_le inside engine.program.scanLength_le
    exact ⟨inside, Program.get?_eq_fetch bound, rfl, counted⟩

theorem step (coherent : Coherent program config engine) :
    Coherent program config engine.step.2 := by
  cases latched : engine.fault with
  | some fault =>
    rw [step_of_fault latched]
    exact coherent
  | none =>
    cases decided : engine.objection? with
    | none =>
      rw [step_of_accepted latched decided]
      exact coherent.stepped latched
    | some kind =>
      rw [step_of_objection latched decided]
      exact coherent.latched latched kind

theorem reset (coherent : Coherent program config engine) :
    Coherent program config engine.reset := by
  have started := start program config
  refine ⟨coherent.program_eq, coherent.toggle_eq, ?_, ?_, started.running, started.halted⟩
  · exact engine.memory.extent_resetMode.trans coherent.extent_eq
  · have mode := engine.memory.mode_resetMode
    exact mode ▸ started.mode

theorem invariant (program : Program) (config : Config) :
    Invariant (Coherent program config) where
  step := step
  force := by
    intro engine address value _ ⟨program_eq, policy, extent, mode, running, halted⟩
    exact ⟨program_eq, policy, extent, mode, running, halted⟩
  clearMemory := by
    intro engine ⟨program_eq, policy, extent, mode, running, halted⟩
    exact ⟨program_eq, policy, extent, mode, running, halted⟩
  reset := reset

theorem pc_lt (coherent : Coherent program config engine) : engine.pc < program.size := by
  cases latched : engine.fault with
  | none =>
    have inside := (coherent.running latched).1
    exact Nat.lt_of_lt_of_le inside program.scanLength_le
  | some fault =>
    rw [(coherent.halted fault latched).2.2.1]
    exact Nat.mod_lt _ program.size_pos

theorem of_history (program : Program) (config : Config) (requests : List Request) :
    Coherent program config ((Engine.start program config).serveAll requests) :=
  (invariant program config).serveAll (start program config) requests

theorem mode_of_perScan (coherent : Coherent program config engine)
    (policy : config.toggle = .perScan) : engine.memory.mode = true ↔ Odd engine.scans := by
  have mode := coherent.mode
  rwa [policy] at mode

end Coherent

/-- After any history of requests, answered or refused, the banks have their configured
length, the index lies in the program, and the counters, the latched fault and the mode
agree with it. -/
theorem counters_of_history {program : Program} {config : Config} {first : Engine}
    (started : start? program config = .ok first) (requests : List Request) :
    let engine := first.serveAll requests
    let length := program.scanLength
    (config.bounds = .inclusive → engine.Spans (config.bankSize + 1)) ∧
    (config.bounds = .strict → engine.Spans config.bankSize) ∧
    engine.program = program ∧ engine.pc < program.size ∧
    (engine.fault = none →
      engine.pc < length ∧ engine.steps = engine.scans * length + engine.pc) ∧
    (∀ fault, engine.fault = some fault →
      fault.index < length ∧
        program.get? fault.index = some ⟨fault.line, fault.instruction⟩ ∧
        engine.pc = (fault.index + 1) % program.size ∧
        engine.steps = engine.scans * length + fault.index) ∧
    (config.toggle = .perInstruction → (engine.memory.mode = true ↔ Odd engine.steps)) ∧
    (config.toggle = .perScan → (engine.memory.mode = true ↔ Odd engine.scans)) := by
  intro engine length
  have coherent : Coherent program config engine := by
    apply (Coherent.invariant program config).serveAll
    rw [eq_start_of_start? started]
    exact Coherent.start program config
  have cells : engine.memory.cells = config.bounds.cells config.bankSize :=
    congrArg Extent.cells coherent.extent_eq
  have spans := engine.spans_cells
  refine ⟨?_, ?_, coherent.program_eq, coherent.pc_lt, coherent.running, coherent.halted, ?_, ?_⟩
  · intro inclusive
    rwa [cells, inclusive] at spans
  · intro strict
    rwa [cells, strict] at spans
  · intro policy
    have mode := coherent.mode
    rwa [policy] at mode
  · intro policy
    have mode := coherent.mode
    rwa [policy] at mode

/-- A store that faults in the second scan of four statements, the fifth being out of reach. -/
theorem counters_of_second_scan_fault :
    let program : Program :=
      ⟨#[⟨2, ⟨.load false, some 0⟩⟩, ⟨4, ⟨.out, some 0⟩⟩, ⟨5, ⟨.load true, some 1⟩⟩,
        ⟨6, ⟨.finish, none⟩⟩, ⟨7, ⟨.merge .or, none⟩⟩], by decide⟩
    let engine := (start program { bankSize := 1 }).serveAll
      [.setInput 0 true, .setInput 2 true, .scan, .read 0, .scanWithin 9, .step]
    engine.fault = some ⟨1, 4, ⟨.out, some 0⟩, .stack ⟨.exactly 1, 2⟩⟩ ∧
      engine.Spans 2 ∧ engine.pc = 2 % 5 ∧ engine.steps = 1 * 4 + 1 := by
  intro program engine
  have latched : engine.fault = some ⟨1, 4, ⟨.out, some 0⟩, .stack ⟨.exactly 1, 2⟩⟩ := by decide
  have scans : engine.scans = 1 := by decide
  have length : program.scanLength = 4 := by decide
  have started : start? program { bankSize := 1 } = .ok (start program { bankSize := 1 }) :=
    start?_eq_ok (by decide)
  obtain ⟨spans, _, _, _, _, halted, _⟩ := counters_of_history started
    [.setInput 0 true, .setInput 2 true, .scan, .read 0, .scanWithin 9, .step]
  obtain ⟨_, _, index, steps⟩ := halted _ latched
  have counted : engine.steps = engine.scans * program.scanLength + 1 := steps
  rw [scans, length] at counted
  exact ⟨latched, spans rfl, index, counted⟩

end Engine

end RelayLadder
