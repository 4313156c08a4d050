import Mathlib.Data.Set.Basic
import RelayLadder.Proofs.Bench.Run
import RelayLadder.Proofs.Engine.Stretch

/-!
The cone of influence of a program: the cells that it looks at. Engines that agree on
these cells, and perhaps on some more, cannot be told apart by anything but a read of
a cell on which they need not agree.
-/

namespace RelayLadder

/-- The addresses that the program looks at. -/
def Program.sources (program : Program) : Set Nat :=
  {address | ∃ statement ∈ program.statements, statement.instruction.source? = some address}

theorem Program.fetch_mem (program : Program) (index : Nat) :
    program.fetch index ∈ program.statements :=
  Array.getElem_mem _

namespace Memory

/-- Memories that are the same but for cells outside of a set of addresses. -/
structure AgreeOn (cone : Set Nat) (left right : Memory) : Prop where
  extent : left.extent = right.extent
  mode : left.mode = right.mode
  live : ∀ address ∈ cone, left.liveAt address = right.liveAt address
  pending : ∀ address ∈ cone, left.pendingAt address = right.pendingAt address

namespace AgreeOn

variable {cone : Set Nat} {left right : Memory}

theorem setPending (agree : AgreeOn cone left right) {address : Nat}
    (inside : address < left.cells) (value : Bool) :
    AgreeOn cone (left.setPending address value) (right.setPending address value) := by
  have rightInside : address < right.cells := by
    rwa [← cells_extent, ← agree.extent]
  refine ⟨agree.extent, agree.mode, agree.live, ?_⟩
  intro other member
  rw [pendingAt_setPending value inside, pendingAt_setPending value rightInside]
  exact afterStores_congr (agree.pending other member) [(address, value)]

theorem setBoth (agree : AgreeOn cone left right) {address : Nat}
    (inside : address < left.cells) (value : Bool) :
    AgreeOn cone (left.setBoth address value) (right.setBoth address value) := by
  have rightInside : address < right.cells := by
    rwa [← cells_extent, ← agree.extent]
  refine ⟨agree.extent, agree.mode, ?_, (agree.setPending inside value).pending⟩
  intro other member
  rw [liveAt_setBoth value inside, liveAt_setBoth value rightInside]
  exact afterStores_congr (agree.live other member) [(address, value)]

theorem toggle (agree : AgreeOn cone left right) : AgreeOn cone left.toggle right.toggle :=
  ⟨agree.extent, congrArg not agree.mode, agree.pending, agree.live⟩

/-- A commit copies cells outside of the set too, but to the same places. -/
theorem commit (agree : AgreeOn cone left right) : AgreeOn cone left.commit right.commit :=
  ⟨agree.extent, congrArg not agree.mode, agree.pending, agree.pending⟩

theorem settle (agree : AgreeOn cone left right) (policy : TogglePolicy) (completed : Bool) :
    AgreeOn cone (policy.settle completed left) (policy.settle completed right) := by
  cases policy with
  | perInstruction => exact agree.toggle
  | perScan =>
    cases completed with
    | true => exact agree.commit
    | false => exact agree

theorem resetMode (agree : AgreeOn cone left right) :
    AgreeOn cone left.resetMode right.resetMode := by
  rw [Memory.resetMode, Memory.resetMode, ← agree.mode]
  split
  · exact agree.toggle
  · exact agree

theorem clear (agree : AgreeOn cone left right) : AgreeOn cone left.clear right.clear := by
  refine ⟨agree.extent, agree.mode, ?_, ?_⟩
  · intro address _
    simp
  · intro address _
    simp

end AgreeOn

end Memory

namespace Engine

/-- Engines of one program, configuration and state, but for cells outside of a set of
addresses. -/
structure AgreeOn (cone : Set Nat) (left right : Engine) : Prop where
  control : left.control = right.control
  policy : left.toggle = right.toggle
  stack : left.stack = right.stack
  memory : left.memory.AgreeOn cone right.memory

namespace AgreeOn

variable {cone : Set Nat} {left right : Engine}

theorem fault (agree : AgreeOn cone left right) : right.fault = left.fault :=
  congrArg Control.fault agree.control.symm

theorem statement (agree : AgreeOn cone left right) : right.statement = left.statement :=
  congrArg Control.statement agree.control.symm

theorem objection? (agree : AgreeOn cone left right) : right.objection? = left.objection? :=
  congrArg Control.objection? agree.control.symm

theorem store? (agree : AgreeOn cone left right) : right.store? = left.store? := by
  rw [Engine.store?, Engine.store?, agree.statement, agree.stack]

/-- What the next statement pushes is computed from cells of the set. -/
theorem evaluate (agree : AgreeOn cone left right) (closed : left.program.sources ⊆ cone) :
    left.stepped.stack = right.stepped.stack := by
  change left.statement.instruction.evaluate left.memory.liveAt left.stack =
    right.statement.instruction.evaluate right.memory.liveAt right.stack
  rw [agree.statement, ← agree.stack]
  apply Instruction.evaluate_congr
  intro address looked
  apply agree.memory.live
  apply closed
  exact ⟨left.statement, left.program.fetch_mem left.pc, looked⟩

theorem put (agree : AgreeOn cone left right) (accepted : left.objection? = none) :
    (left.memory.put left.store?).AgreeOn cone (right.memory.put right.store?) := by
  rw [agree.store?]
  cases stored : left.store? with
  | none => exact agree.memory
  | some entry =>
    rcases entry with ⟨address, value⟩
    exact agree.memory.setPending (Instruction.store?_inside accepted stored) value

theorem stepped (agree : AgreeOn cone left right) (closed : left.program.sources ⊆ cone)
    (accepted : left.objection? = none) : AgreeOn cone left.stepped right.stepped := by
  have rightAccepted := agree.objection?.trans accepted
  have control : left.stepped.control = right.stepped.control := by
    rw [control_stepped accepted, control_stepped rightAccepted, agree.control]
  have index : left.stepped.pc = right.stepped.pc := congrArg Control.pc control
  refine ⟨control, agree.policy, agree.evaluate closed, ?_⟩
  rw [memory_stepped, memory_stepped, ← index, ← agree.policy]
  exact (agree.put accepted).settle _ _

theorem step (agree : AgreeOn cone left right) (closed : left.program.sources ⊆ cone) :
    left.step.1 = right.step.1 ∧ AgreeOn cone left.step.2 right.step.2 := by
  cases latched : left.fault with
  | some fault =>
    rw [step_of_fault latched, step_of_fault (agree.fault.trans latched)]
    exact ⟨rfl, agree⟩
  | none =>
    have running := agree.fault.trans latched
    cases decided : left.objection? with
    | none =>
      rw [step_of_accepted latched decided,
        step_of_accepted running (agree.objection?.trans decided)]
      exact ⟨rfl, agree.stepped closed decided⟩
    | some kind =>
      have results : outcome left.step = outcome right.step := by
        rw [outcome_step, outcome_step, agree.control]
      rw [step_of_objection latched decided,
        step_of_objection running (agree.objection?.trans decided)] at results ⊢
      obtain ⟨result, control⟩ := Prod.mk.inj results
      exact ⟨result, control, agree.policy, agree.stack, agree.memory⟩

theorem reset (agree : AgreeOn cone left right) : AgreeOn cone left.reset right.reset := by
  refine ⟨?_, agree.policy, rfl, agree.memory.resetMode⟩
  rw [control_reset, control_reset, agree.control]

/-- Whatever the host does, engines of a program that looks at nothing but the set stay
in agreement on it. -/
theorem bisimulation (program : Program) (closed : program.sources ⊆ cone) :
    Bisimulation fun left right => left.program = program ∧ AgreeOn cone left right where
  step := by
    rintro left right ⟨rfl, agree⟩
    obtain ⟨results, after⟩ := agree.step closed
    refine ⟨results, ?_, after⟩
    exact keeps_step (fun next => next.program = left.program) rfl (fun _ _ => rfl)
      (fun _ _ _ => rfl)
  index := by
    rintro left right ⟨_, agree⟩ _
    exact congrArg Control.pc agree.control
  budget := by
    rintro left right ⟨_, agree⟩
    exact congrArg (fun control : Control => control.stepLimit.getD control.program.size)
      agree.control
  extent := by
    rintro left right ⟨_, agree⟩
    exact agree.memory.extent
  force := by
    rintro left right address value inside ⟨same, agree⟩
    exact ⟨same, agree.control, agree.policy, agree.stack, agree.memory.setBoth inside value⟩
  clearMemory := by
    rintro left right ⟨same, agree⟩
    exact ⟨same, agree.control, agree.policy, agree.stack, agree.memory.clear⟩
  reset := by
    rintro left right ⟨same, agree⟩
    exact ⟨same, agree.reset⟩

/-- Cases that end with the same values in the set make one blank engine into engines
that agree on it. -/
theorem force_start (program : Program) (config : Config) {first second : Case}
    (firstInside : first.Inside (config.bounds.cells config.bankSize))
    (secondInside : second.Inside (config.bounds.cells config.bankSize))
    (same : ∀ address ∈ cone, first.last address = second.last address) :
    ResultsMatch (fun left right => left.program = program ∧ AgreeOn cone left right)
      ((start program config).force first) ((start program config).force second) := by
  obtain ⟨firstLive, firstPending⟩ := Memory.cells_force_blank firstInside
  obtain ⟨secondLive, secondPending⟩ := Memory.cells_force_blank secondInside
  let blank := Memory.blank config.bankSize config.bounds
  have memory : (blank.force first).AgreeOn cone (blank.force second) := by
    refine ⟨by simp, by simp, ?_, ?_⟩
    · rw [firstLive, secondLive]
      exact same
    · rw [firstPending, secondPending]
      exact same
  have control (case : Case) :
      Engine.control { start program config with memory := blank.force case } =
        (start program config).control := by
    rw [Engine.control, blank.extent_force]
    rfl
  rw [force_of_inside firstInside, force_of_inside secondInside]
  exact .ok ⟨rfl, (control first).trans (control second).symm, rfl, rfl, memory⟩

end AgreeOn

/-- Cone of influence. Engines that agree on every cell their program looks at, and may
differ in others, answer every history alike, except for reads outside of the agreement,
and keep agreeing. So the outputs of a bench depend on nothing but the last values that
a case gives to the cells looked at and to the outputs. -/
theorem cone_of_influence (program : Program) :
    (∀ cone, program.sources ⊆ cone → ∀ left right : Engine, left.program = program →
      AgreeOn cone left right → ∀ requests,
        AgreeOn cone (left.serveAll requests) (right.serveAll requests) ∧
        ∀ request, (∀ address, request = .read address → address ∈ cone) →
          ((left.serveAll requests).serve request).1 =
            ((right.serveAll requests).serve request).1) ∧
    ∀ config scans outputs (first second : Case),
      first.Inside (config.bounds.cells config.bankSize) →
      second.Inside (config.bounds.cells config.bankSize) →
      (∀ address, address ∈ program.sources ∨ address ∈ outputs →
        first.last address = second.last address) →
      Bench.run ⟨program, config, scans, outputs⟩ first =
        Bench.run ⟨program, config, scans, outputs⟩ second := by
  constructor
  · intro cone closed left right owner agree requests
    have bisimulation := AgreeOn.bisimulation program closed
    have after := bisimulation.serveAll ⟨owner, agree⟩ requests
    refine ⟨after.2, ?_⟩
    intro request known
    apply bisimulation.answer after
    intro address asked
    exact after.2.memory.live address (known address asked)
  · intro config scans outputs first second firstInside secondInside same
    let cone : Set Nat := {address | address ∈ program.sources ∨ address ∈ outputs}
    have closed : program.sources ⊆ cone := fun address => .inl
    have bisimulation := AgreeOn.bisimulation program closed
    have outcomes : ResultsMatch (List.Forall₂ (· = ·))
        (Bench.run ⟨program, config, scans, outputs⟩ first)
        (Bench.run ⟨program, config, scans, outputs⟩ second) := by
      apply Bench.run_matches bisimulation
      · exact AgreeOn.force_start program config firstInside secondInside same
      · intro left right related address asked
        rw [bisimulation.read related (related.2.memory.live address (.inr asked))]
        exact .refl (right.read address)
    rw [List.forall₂_eq_eq_eq] at outcomes
    exact outcomes.eq

/-- A cell that is stored to and one that is not, set in one engine only, show nowhere
else, though every scan copies them from bank to bank. -/
theorem disturbed_cells_stay_outside :
    let program : Program :=
      ⟨#[⟨1, ⟨.load false, some 0⟩⟩, ⟨2, ⟨.out, some 1⟩⟩, ⟨3, ⟨.load true, some 0⟩⟩,
        ⟨4, ⟨.out, some 2⟩⟩], by decide⟩
    let config : Config := { bankSize := 3, toggle := .perScan }
    let left := start program config
    let right := { left with memory := (left.memory.setPending 2 true).setBoth 3 true }
    let requests : List Request := [.setInput 0 true, .step, .step, .reset, .scan]
    left.read 3 ≠ right.read 3 ∧
      ((left.serveAll requests).serve (.read 1)).1 =
        ((right.serveAll requests).serve (.read 1)).1 ∧
      Bench.run ⟨program, config, 2, [1]⟩ [(3, true), (0, false), (0, true)] =
        Bench.run ⟨program, config, 2, [1]⟩ [(0, true), (2, true)] := by
  intro program config left right requests
  have sources : ∀ address ∈ program.sources, address = 0 := by
    rintro address ⟨statement, member, looked⟩
    have listed : ∀ statement ∈ program.statements.toList,
        statement.instruction.source? = some 0 ∨ statement.instruction.source? = none := by
      decide
    rcases listed statement (Array.mem_toList_iff.mpr member) with first | nowhere
    · exact (Option.some.inj (first.symm.trans looked)).symm
    · cases nowhere.symm.trans looked
  have influence := cone_of_influence program
  refine ⟨by decide, ?_, ?_⟩
  · have agree : AgreeOn {0, 1} left right := by
      refine ⟨rfl, rfl, rfl, rfl, rfl, ?_, ?_⟩
      · rintro address (rfl | rfl) <;> decide
      · rintro address (rfl | rfl) <;> decide
    apply (influence.1 {0, 1} ?_ left right rfl agree requests).2
    · rintro address ⟨⟩
      exact .inr rfl
    · intro address member
      exact .inl (sources address member)
  · apply influence.2 config 2 [1] _ _ (by decide) (by decide)
    rintro address (member | member)
    · rw [sources address member]
      decide
    · rw [List.mem_singleton.mp member]
      decide

end Engine

end RelayLadder
