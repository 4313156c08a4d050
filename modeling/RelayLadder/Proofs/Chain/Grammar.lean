import RelayLadder.Proofs.Chain.Basic
import RelayLadder.Proofs.Engine.Stretch

/-!
The depth rules as a grammar. Instructions that neither store nor end a scan get
through with one value on the stack exactly when they are the code of a chain: what
a rule admits at a depth is what can be absorbed by as many chains.
-/

namespace RelayLadder

namespace Instruction

/-- An instruction that neither stores nor ends a scan, and whose address the banks have. -/
structure InChain (extent : Extent) (instruction : Instruction) : Prop where
  storeless : instruction.opcode ≠ .out
  straight : instruction.opcode ≠ .finish
  inside : instruction.opcode.takesAddress = true →
    ∀ address, instruction.operand = some address → address < extent.cells

variable {instruction : Instruction} {extent : Extent} {chains next : List Chain}

theorem absorb_of_accepted (inChain : instruction.InChain extent)
    (accepted : instruction.objection? extent chains.length = none) :
    ∃ next, Chain.absorb instruction chains = some next := by
  obtain ⟨storeless, straight, _⟩ := inChain
  have admitted := admits_of_accepted accepted
  have addressed := operand_of_accepted accepted
  rcases instruction with ⟨opcode, operand⟩
  cases opcode with
  | finish => contradiction
  | out => contradiction
  | load inverted =>
    obtain ⟨address, rfl, _⟩ := addressed rfl
    exact ⟨_, rfl⟩
  | combine gate inverted =>
    obtain ⟨address, rfl, _⟩ := addressed rfl
    rcases chains with _ | ⟨chain, chains⟩
    · simp [Opcode.rule, DepthRule.admits] at admitted
    · exact ⟨_, rfl⟩
  | merge gate =>
    cases operand with
    | some address => simp [objection?, Opcode.takesAddress] at accepted
    | none =>
      rcases chains with _ | ⟨right, _ | ⟨left, chains⟩⟩
      · simp [Opcode.rule, DepthRule.admits] at admitted
      · simp [Opcode.rule, DepthRule.admits] at admitted
      · exact ⟨_, rfl⟩

theorem accepted_of_absorb (inChain : instruction.InChain extent)
    (absorbed : Chain.absorb instruction chains = some next) :
    instruction.objection? extent chains.length = none ∧
      next.length = instruction.opcode.depthAfter chains.length := by
  have inside := inChain.inside
  unfold Chain.absorb at absorbed
  unfold objection? depthObjection?
  split at absorbed
  case h_4 => contradiction
  all_goals
    cases absorbed
    simp_all [Opcode.takesAddress, Opcode.rule, DepthRule.admits, Opcode.depthAfter]

end Instruction

namespace Chain

variable {chain : Chain}

/-- Walking over instructions of chains is decoding them, with depths in place of stacks. -/
theorem walk_iff_decode {extent : Extent} {statements : List Statement}
    (inChain : ∀ statement ∈ statements, statement.instruction.InChain extent)
    (index : Nat) (chains : List Chain) {final : Nat} :
    Statement.walk extent statements index chains.length = .ok final ↔
      ∃ last, decode (statements.map Statement.instruction) chains = some last ∧
        last.length = final := by
  induction statements generalizing index chains with
  | nil => simp [Statement.walk, decode]
  | cons statement rest inductionHypothesis =>
    obtain ⟨first, others⟩ := List.forall_mem_cons.mp inChain
    have following := inductionHypothesis others (index + 1)
    rw [List.map_cons, decode]
    constructor
    · intro walked
      have accepted := Statement.accepted_of_walk walked
      obtain ⟨next, absorbed⟩ := Instruction.absorb_of_accepted first accepted
      obtain ⟨_, depth⟩ := Instruction.accepted_of_absorb first absorbed
      rw [Statement.walk_of_accepted accepted, ← depth] at walked
      rw [absorbed]
      exact (following next).mp walked
    · rintro ⟨last, decoded, rfl⟩
      obtain ⟨next, absorbed, rest⟩ := Option.bind_eq_some_iff.mp decoded
      obtain ⟨accepted, depth⟩ := Instruction.accepted_of_absorb first absorbed
      rw [Statement.walk_of_accepted accepted, ← depth]
      exact (following next).mpr ⟨last, rest, rfl⟩

theorem walk_iff_code {extent : Extent} {statements : List Statement}
    (inChain : ∀ statement ∈ statements, statement.instruction.InChain extent) (index : Nat) :
    Statement.walk extent statements index 0 = .ok 1 ↔
      ∃ chain : Chain, chain.code = statements.map Statement.instruction := by
  constructor
  · intro walked
    obtain ⟨last, decoded, single⟩ := (walk_iff_decode inChain index []).mp walked
    obtain ⟨chain, rfl⟩ := List.length_eq_one_iff.mp single
    exact ⟨chain, decode_eq_singleton_iff.mp decoded⟩
  · rintro ⟨chain, written⟩
    have decoded := decode_eq_singleton_iff.mpr written
    exact (walk_iff_decode inChain index []).mpr ⟨[chain], decoded, rfl⟩

/-- What stands in the code of a chain. -/
theorem forms_of_mem_code {instruction : Instruction} (membership : instruction ∈ chain.code) :
    (∃ inverted, ∃ address ∈ chain.addresses, instruction = ⟨.load inverted, some address⟩) ∨
      (∃ gate inverted, ∃ address ∈ chain.addresses,
        instruction = ⟨.combine gate inverted, some address⟩) ∨
      ∃ gate, instruction = ⟨.merge gate, none⟩ := by
  induction chain with
  | load inverted address =>
    rw [code, List.mem_singleton] at membership
    exact .inl ⟨inverted, address, by simp [addresses], membership⟩
  | combine chain gate inverted address inductionHypothesis =>
    rw [code, List.mem_append, List.mem_singleton] at membership
    simp only [addresses, List.mem_append]
    rcases membership with inner | last
    · grind
    · exact .inr (.inl ⟨gate, inverted, address, by simp, last⟩)
  | merge left right gate leftHypothesis rightHypothesis =>
    rw [code, List.mem_append, List.mem_append, List.mem_singleton] at membership
    simp only [addresses, List.mem_append]
    rcases membership with (first | second) | last
    · grind
    · grind
    · exact .inr (.inr ⟨gate, last⟩)

theorem inChain_of_mem_code {extent : Extent}
    (inside : ∀ address ∈ chain.addresses, address < extent.cells) {instruction : Instruction}
    (membership : instruction ∈ chain.code) : instruction.InChain extent := by
  rcases forms_of_mem_code membership with
    ⟨inverted, named, present, rfl⟩ | ⟨gate, inverted, named, present, rfl⟩ | ⟨gate, rfl⟩
  · refine ⟨nofun, nofun, ?_⟩
    rintro _ _ ⟨⟩
    exact inside named present
  · refine ⟨nofun, nofun, ?_⟩
    rintro _ _ ⟨⟩
    exact inside named present
  · exact ⟨nofun, nofun, nofun⟩

/-- The code of a chain can run at any depth, and leaves one value more. -/
theorem walk_code {extent : Extent} {statements : List Statement}
    (inside : ∀ address ∈ chain.addresses, address < extent.cells)
    (written : statements.map Statement.instruction = chain.code) (index depth : Nat) :
    Statement.walk extent statements index depth = .ok (depth + 1) := by
  have inChain : ∀ statement ∈ statements, statement.instruction.InChain extent := by
    intro statement membership
    apply inChain_of_mem_code inside
    rw [← written]
    exact List.mem_map_of_mem membership
  -- Any chains below serve as the stack that is already there.
  have decoded := decode_code chain [] (List.replicate depth chain)
  rw [List.append_nil, ← written] at decoded
  have walked := (walk_iff_decode inChain index (List.replicate depth chain)).mpr
    ⟨_, decoded, rfl⟩
  rwa [List.length_cons, List.length_replicate] at walked

end Chain

namespace Engine

/-- The depth rules accept exactly the codes of chains. From an empty stack, the
instructions at the start of a program all run and leave one value if and only if
they are the code of a chain, of which there is one. -/
theorem steps_leave_one_iff_code {engine : Engine} {instructions : List Instruction}
    (begins : instructions <+: engine.program.instructions) (start : engine.pc = 0)
    (running : engine.fault = none) (empty : engine.stack = .empty)
    (inChain : ∀ instruction ∈ instructions, instruction.InChain engine.memory.extent) :
    ((∃ next, engine.stepMany instructions.length = (.ok (), next) ∧ next.stack.depth = 1) ↔
      ∃ chain : Chain, chain.code = instructions) ∧
      ∀ first second : Chain, first.code = instructions → second.code = instructions →
        first = second := by
  obtain ⟨after, whole⟩ := begins
  have written : engine.program.instructions.drop engine.pc = instructions ++ after := by
    rw [start, List.drop_zero, whole]
  have straight : ∀ instruction ∈ instructions, instruction.opcode ≠ .finish :=
    fun instruction membership => (inChain instruction membership).straight
  obtain ⟨stretch, rest, faces, rfl, _⟩ := Faces.of_instructions running written straight
  constructor
  · rw [List.length_map, faces.stepMany_iff_walk 0, empty]
    apply Chain.walk_iff_code
    intro statement membership
    exact inChain _ (List.mem_map_of_mem membership)
  · intro first second firstCode secondCode
    exact Chain.code_injective (firstCode.trans secondCode.symm)

/-- The start of a program is a chain, though the program goes on with a store. -/
theorem steps_leave_one_before_store :
    let instructions : List Instruction :=
      [⟨.load false, some 0⟩, ⟨.load true, some 1⟩, ⟨.merge .or, none⟩,
        ⟨.combine .and true, some 0⟩]
    let program : Program :=
      ⟨#[⟨1, ⟨.load false, some 0⟩⟩, ⟨2, ⟨.load true, some 1⟩⟩, ⟨3, ⟨.merge .or, none⟩⟩,
        ⟨4, ⟨.combine .and true, some 0⟩⟩, ⟨5, ⟨.out, some 1⟩⟩], by decide⟩
    let engine := start program { bankSize := 1 }
    (∃ next, engine.stepMany 4 = (.ok (), next) ∧ next.stack.depth = 1) ∧
      ∃! chain : Chain, chain.code = instructions := by
  intro instructions program engine
  let chain : Chain := .combine (.merge (.load false 0) (.load true 1) .or) .and true 0
  have written : chain.code = instructions := rfl
  have inside : ∀ address ∈ chain.addresses, address < engine.memory.extent.cells := by decide
  have begins : instructions <+: engine.program.instructions := ⟨[⟨.out, some 1⟩], rfl⟩
  obtain ⟨accepted, unique⟩ := steps_leave_one_iff_code begins rfl rfl rfl
    (fun instruction membership => Chain.inChain_of_mem_code inside (written ▸ membership))
  refine ⟨accepted.mpr ⟨chain, written⟩, chain, written, ?_⟩
  intro other otherWritten
  exact unique other chain otherWritten written

end Engine

end RelayLadder
