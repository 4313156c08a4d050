import RelayLadder.Proofs.Chain.Grammar

/-!
Chains evaluate. Running the code of a chain on cells that are the same in both
banks puts the value of the chain on the stack, and a store after it shows that
value when the scan is over, under either policy.
-/

namespace RelayLadder

namespace Chain

variable {chain : Chain} {cells : Nat → Bool}

theorem eval_load (cells : Nat → Bool) (inverted : Bool) (address : Nat) :
    (load inverted address).eval cells = (cells address ^^ inverted) := by
  cases inverted <;> simp [eval]

theorem eval_combine (cells : Nat → Bool) (chain : Chain) (gate : Gate) (inverted : Bool)
    (address : Nat) :
    (combine chain gate inverted address).eval cells =
      (gate.apply (chain.eval cells) (cells address) ^^ inverted) := by
  cases gate <;> cases inverted <;> simp [eval, Gate.apply]

theorem eval_merge (cells : Nat → Bool) (left right : Chain) (gate : Gate) :
    (merge left right gate).eval cells = gate.apply (left.eval cells) (right.eval cells) := by
  cases gate <;> rfl

theorem evaluateAll_code (chain : Chain) (cells : Nat → Bool) (rest : List Instruction)
    (stack : Stack) :
    Instruction.evaluateAll cells (chain.code ++ rest) stack =
      Instruction.evaluateAll cells rest (chain.eval cells :: stack) := by
  induction chain generalizing rest stack with
  | load inverted address =>
    rw [eval_load]
    rfl
  | combine chain gate inverted address inductionHypothesis =>
    rw [code, List.append_assoc, inductionHypothesis, eval_combine]
    rfl
  | merge left right gate leftHypothesis rightHypothesis =>
    -- The second chain is on top, so the machine joins the values the other way around.
    rw [code, List.append_assoc, List.append_assoc, leftHypothesis, rightHypothesis, eval_merge,
      Gate.apply_comm]
    rfl

theorem source_mem_addresses {instruction : Instruction} (membership : instruction ∈ chain.code)
    {address : Nat} (looked : instruction.source? = some address) :
    address ∈ chain.addresses := by
  rcases forms_of_mem_code membership with
    ⟨inverted, named, present, rfl⟩ | ⟨gate, inverted, named, present, rfl⟩ | ⟨gate, rfl⟩
  · exact Option.some.inj looked ▸ present
  · exact Option.some.inj looked ▸ present
  · cases looked

end Chain

namespace Engine

variable {engine : Engine} {chain : Chain} {cells : Nat → Bool}

/-- Whatever is on the stack, the code of a chain adds the value of the chain. -/
theorem Faces.stepMany_of_code {stretch rest : List Statement} (faces : engine.Faces stretch rest)
    (written : stretch.map Statement.instruction = chain.code)
    (holds : engine.memory.Holds cells chain.addresses) :
    ∃ next further,
      engine.stepMany stretch.length = (.ok (), next) ∧
        next.stack = chain.eval cells :: engine.stack ∧
        next.memory.extent = engine.memory.extent ∧
        next.Faces [] further ∧ (rest ≠ [] → further = rest) := by
  have inside : ∀ address ∈ chain.addresses, address < engine.memory.extent.cells :=
    fun _ named => holds.inside named
  have listed : ∀ statement ∈ stretch, statement.instruction ∈ chain.code := by
    intro statement membership
    rw [← written]
    exact List.mem_map_of_mem membership
  obtain ⟨next, further, run, _, extent, onward, kept⟩ :=
    faces.stepMany_of_walk (Chain.walk_code inside written 0 engine.stack.depth)
  refine ⟨next, further, run, ?_, extent, onward, kept⟩
  have stack := faces.stack_eq holds
    (fun statement membership _ => Chain.source_mem_addresses (listed statement membership))
    (fun statement membership =>
      (Chain.inChain_of_mem_code inside (listed statement membership)).storeless) run
  have evaluated := chain.evaluateAll_code cells [] engine.stack
  rw [List.append_nil] at evaluated
  rw [stack, written, evaluated]
  rfl

/-- A store at the end of a program shows at once, since it ends the scan. -/
theorem Faces.step_of_last_store {store : Statement} {target : Nat} {value : Bool}
    (faces : engine.Faces [store] []) (out : store.instruction = ⟨.out, some target⟩)
    (inside : target < engine.memory.cells) (single : engine.stack = [value]) :
    engine.step = (.ok (), engine.stepped) ∧ engine.stepped.pc = 0 ∧
      engine.stepped.stack = .empty ∧ engine.stepped.read target = .ok value := by
  have accepted : engine.objection? = none := by
    rw [faces.objection?_eq, out, single]
    simp [Instruction.objection?, Instruction.depthObjection?, Opcode.takesAddress, Opcode.rule,
      DepthRule.admits, Stack.depth, inside]
  have completed : engine.stepped.pc = 0 := faces.pc_stepped
  have stored : engine.store? = some (target, value) := by
    rw [store?, faces.statement_eq, out, single]
    rfl
  refine ⟨step_of_accepted faces.running accepted, completed, ?_, ?_⟩
  · have emptied : engine.stepped.stack =
        engine.statement.instruction.evaluate engine.memory.liveAt engine.stack := rfl
    rw [emptied, faces.statement_eq, out, single]
    rfl
  · have nextInside : target < engine.stepped.memory.cells := by
      rw [← Memory.cells_extent, extent_stepped]
      exact inside
    have shown : engine.stepped.memory.liveAt target = value := by
      cases policy : engine.toggle with
      | perInstruction =>
        rw [liveAt_stepped_of_perInstruction policy accepted, stored]
        simp [Memory.afterStores]
      | perScan =>
        rw [liveAt_stepped_of_perScan policy accepted, if_pos completed, stored]
        simp [Memory.afterStores]
    rw [read, Memory.read_eq_ok nextInside, shown]
    rfl

/-- Chains evaluate under both policies. On cells that are the same in both banks, the
code of a chain adds its value to any stack; and a scan of that code with a store
after it shows the value in the target, which the chain itself may name. -/
theorem scan_evaluates_chain (running : engine.fault = none)
    (holds : engine.memory.Holds cells chain.addresses) :
    (∀ rest, engine.program.instructions.drop engine.pc = chain.code ++ rest →
      ∃ next, engine.stepMany chain.code.length = (.ok (), next) ∧
        next.stack = chain.eval cells :: engine.stack) ∧
    ∀ target < engine.memory.cells,
      engine.program.instructions = chain.code ++ [⟨.out, some target⟩] →
      engine.pc = 0 → engine.stack = .empty → engine.stepLimit = none →
        ∃ next, engine.scan = (.ok engine.program.size, next) ∧
          next.stack = .empty ∧ next.read target = .ok (chain.eval cells) := by
  have inside : ∀ address ∈ chain.addresses, address < engine.memory.extent.cells :=
    fun _ named => holds.inside named
  have straight : ∀ instruction ∈ chain.code, instruction.opcode ≠ .finish :=
    fun _ membership => (Chain.inChain_of_mem_code inside membership).straight
  constructor
  · intro rest written
    obtain ⟨stretch, _, faces, code, _⟩ := Faces.of_instructions running written straight
    obtain ⟨next, _, run, stack, _⟩ := faces.stepMany_of_code code holds
    rw [← code, List.length_map]
    exact ⟨next, run, stack⟩
  · intro target targetInside written start empty unlimited
    have whole : engine.program.instructions.drop engine.pc =
        chain.code ++ [⟨.out, some target⟩] := by
      rw [start, List.drop_zero, written]
    obtain ⟨stretch, rest, faces, code, after⟩ := Faces.of_instructions running whole straight
    obtain ⟨store, rfl, out⟩ := List.map_eq_singleton_iff.mp after
    obtain ⟨next, further, run, stack, extent, onward, kept⟩ :=
      faces.stepMany_of_code code holds
    obtain rfl := kept (List.cons_ne_nil store [])
    have last : next.Faces [store] [] := by
      refine ⟨onward.running, onward.ahead, ?_⟩
      intro statement membership
      rw [List.mem_singleton.mp membership, out]
      exact nofun
    have lastInside : target < next.memory.cells := by
      rw [← Memory.cells_extent, extent]
      exact targetInside
    rw [empty] at stack
    obtain ⟨step, completed, emptied, shown⟩ := last.step_of_last_store out lastInside stack
    have size : engine.program.size = stretch.length + 1 := by
      rw [← Program.length_instructions, written, ← code]
      simp
    refine ⟨next.stepped, ?_, emptied, shown⟩
    rw [scan, unlimited, Option.getD_none, size, scanWithin,
      faces.scanOn_eq (List.cons_ne_nil store []) run, scanOn_of_step_ok step, if_pos completed,
      Nat.zero_add]

/-- A chain over its own target, on swapped banks. -/
theorem scan_evaluates_own_target :
    let chain : Chain := .merge (.combine (.load false 0) .or true 1) (.load true 2) .or
    let program : Program :=
      ⟨#[⟨1, ⟨.load false, some 0⟩⟩, ⟨2, ⟨.combine .or true, some 1⟩⟩, ⟨3, ⟨.load true, some 2⟩⟩,
        ⟨4, ⟨.merge .or, none⟩⟩, ⟨5, ⟨.out, some 2⟩⟩], by decide⟩
    let memory := ((Memory.blank 2 .inclusive).setBoth 0 true).toggle
    let engine := { start program { bankSize := 2, toggle := .perScan } with memory }
    engine.read 2 = .ok false ∧ chain.eval (· == 0) = true ∧
      ∃ next, engine.scan = (.ok 5, next) ∧ next.stack = .empty ∧ next.read 2 = .ok true := by
  intro chain program memory engine
  have holds : engine.memory.Holds (· == 0) chain.addresses := by decide
  have evaluates := scan_evaluates_chain rfl holds
  refine ⟨by decide, by decide, ?_⟩
  exact evaluates.2 2 (by decide) rfl rfl rfl rfl

end Engine

end RelayLadder
