import RelayLadder.Proofs.Engine.Scan

/-!
Straight stretches of a program: statements that run one after another because none
of them ends a scan. The walk over a stretch decides whether an engine gets through
it. On cells that are the same in both banks, a stretch without stores leaves the
values of these cells on the stack, whenever the banks change roles.
-/

namespace RelayLadder

namespace Instruction

/-- The stack after instructions that have run on the given cells. -/
def evaluateAll (cells : Nat → Bool) (instructions : List Instruction) (stack : Stack) : Stack :=
  instructions.foldl (fun current instruction => instruction.evaluate cells current) stack

@[simp] theorem evaluateAll_nil (cells : Nat → Bool) (stack : Stack) :
    evaluateAll cells [] stack = stack := rfl

@[simp] theorem evaluateAll_cons (cells : Nat → Bool) (instruction : Instruction)
    (rest : List Instruction) (stack : Stack) :
    evaluateAll cells (instruction :: rest) stack =
      evaluateAll cells rest (instruction.evaluate cells stack) := rfl

theorem evaluate_congr {instruction : Instruction} {left right : Nat → Bool}
    (same : ∀ address, instruction.source? = some address → left address = right address)
    (stack : Stack) : instruction.evaluate left stack = instruction.evaluate right stack := by
  unfold source? at same
  unfold evaluate
  grind

theorem store?_eq_none {instruction : Instruction} (ordinary : instruction.opcode ≠ .out)
    (stack : Stack) : instruction.store? stack = none := by
  unfold store?
  split
  · contradiction
  · rfl

end Instruction

namespace Memory

/-- Both banks have the named cells, and the given values in them. -/
def Holds (memory : Memory) (cells : Nat → Bool) (names : List Nat) : Prop :=
  ∀ address ∈ names,
    memory.live[address]? = some (cells address) ∧
      memory.pending[address]? = some (cells address)

instance (memory : Memory) (cells : Nat → Bool) (names : List Nat) :
    Decidable (memory.Holds cells names) :=
  inferInstanceAs (Decidable (∀ address ∈ names, _ ∧ _))

variable {memory : Memory} {cells : Nat → Bool} {names : List Nat}

theorem Holds.liveAt (holds : memory.Holds cells names) {address : Nat}
    (named : address ∈ names) : memory.liveAt address = cells address := by
  rw [Memory.liveAt, (holds address named).1]
  rfl

theorem Holds.inside (holds : memory.Holds cells names) {address : Nat}
    (named : address ∈ names) : address < memory.cells := by
  obtain ⟨bound, _⟩ := Array.getElem?_eq_some_iff.mp (holds address named).1
  rwa [memory.size_live] at bound

theorem Holds.settle (holds : memory.Holds cells names) (policy : TogglePolicy)
    (completed : Bool) : (policy.settle completed memory).Holds cells names := by
  intro address named
  obtain ⟨live, pending⟩ := holds address named
  cases policy with
  | perInstruction => exact ⟨pending, live⟩
  | perScan =>
    cases completed with
    | true => exact ⟨pending, pending⟩
    | false => exact ⟨live, pending⟩

end Memory

namespace Program

def instructions (program : Program) : List Instruction :=
  program.statements.toList.map Statement.instruction

theorem length_instructions (program : Program) : program.instructions.length = program.size := by
  simp [instructions, size]

variable {program : Program} {index : Nat} {statement : Statement} {rest : List Statement}

theorem fetch_of_drop (ahead : program.statements.toList.drop index = statement :: rest) :
    program.fetch index = statement := by
  have listed : program.get? index = some statement := by
    have head := congrArg List.head? ahead
    rw [List.head?_drop] at head
    simpa [get?] using head
  have bound : index < program.size := by
    obtain ⟨bound, _⟩ := Array.getElem?_eq_some_iff.mp listed
    exact bound
  rw [get?_eq_fetch bound] at listed
  exact Option.some.inj listed

theorem next_of_drop (ahead : program.statements.toList.drop index = statement :: rest) :
    program.next index = if rest = [] then 0 else index + 1 := by
  have length : program.size - index = rest.length + 1 := by
    have lengths := congrArg List.length ahead
    simpa [size] using lengths
  by_cases last : rest = []
  · have whole : program.size = index + 1 := by
      rw [last, List.length_nil] at length
      omega
    rw [if_pos last, next, whole, Nat.mod_self]
  · have following : index + 1 < program.size := by
      have positive := List.length_pos_iff.mpr last
      omega
    rw [if_neg last, next, Nat.mod_eq_of_lt following]

end Program

namespace Engine

/-- A running engine with a straight stretch ahead of it, and what is written after that. -/
structure Faces (engine : Engine) (stretch rest : List Statement) : Prop where
  running : engine.fault = none
  ahead : engine.program.statements.toList.drop engine.pc = stretch ++ rest
  straight : ∀ statement ∈ stretch, statement.instruction.opcode ≠ .finish

namespace Faces

variable {engine next : Engine} {statement : Statement} {stretch rest : List Statement}

/-- Instructions ahead that end no scan are a straight stretch. -/
theorem of_instructions {instructions after : List Instruction} (running : engine.fault = none)
    (written : engine.program.instructions.drop engine.pc = instructions ++ after)
    (straight : ∀ instruction ∈ instructions, instruction.opcode ≠ .finish) :
    ∃ stretch rest, engine.Faces stretch rest ∧
      stretch.map Statement.instruction = instructions ∧
      rest.map Statement.instruction = after := by
  rw [Program.instructions, ← List.map_drop] at written
  obtain ⟨stretch, rest, ahead, rfl, rfl⟩ := List.map_eq_append_iff.mp written
  refine ⟨stretch, rest, ⟨running, ahead, ?_⟩, rfl, rfl⟩
  intro statement membership
  exact straight _ (List.mem_map_of_mem membership)

theorem statement_eq (faces : engine.Faces (statement :: stretch) rest) :
    engine.statement = statement :=
  Program.fetch_of_drop faces.ahead

theorem objection?_eq (faces : engine.Faces (statement :: stretch) rest) :
    engine.objection? =
      statement.instruction.objection? engine.memory.extent engine.stack.depth := by
  rw [objection?, faces.statement_eq]

theorem pc_stepped (faces : engine.Faces (statement :: stretch) rest) :
    engine.stepped.pc = if stretch ++ rest = [] then 0 else engine.pc + 1 := by
  rw [Engine.pc_stepped, faces.statement_eq, if_neg (faces.straight statement (by simp))]
  exact Program.next_of_drop faces.ahead

/-- A step moves on along the stretch. Only at the end of the program does it come to
something other than what is written next, since it goes around. -/
theorem stepped (faces : engine.Faces (statement :: stretch) rest) :
    ∃ further, engine.stepped.Faces stretch further ∧ (rest ≠ [] → further = rest) := by
  obtain ⟨_, others⟩ := List.forall_mem_cons.mp faces.straight
  have index := faces.pc_stepped
  by_cases last : stretch ++ rest = []
  · obtain ⟨rfl, rfl⟩ := List.append_eq_nil_iff.mp last
    rw [if_pos last] at index
    refine ⟨engine.program.statements.toList, ⟨faces.running, ?_, others⟩, ?_⟩
    · rw [index]
      rfl
    · intro unfinished
      contradiction
  · rw [if_neg last] at index
    refine ⟨rest, ⟨faces.running, ?_, others⟩, fun _ => rfl⟩
    rw [program_stepped, index, ← List.drop_drop, faces.ahead]
    rfl

/-- The walk goes on from where an accepted statement leaves the engine. -/
theorem walk_stepped (faces : engine.Faces (statement :: stretch) rest)
    (accepts : statement.instruction.objection? engine.memory.extent engine.stack.depth = none)
    (index : Nat) :
    Statement.walk engine.memory.extent (statement :: stretch) index engine.stack.depth =
      Statement.walk engine.stepped.memory.extent stretch (index + 1)
        engine.stepped.stack.depth := by
  have accepted : engine.objection? = none := faces.objection?_eq.trans accepts
  rw [Statement.walk_of_accepted accepts, extent_stepped, depth_stepped accepted,
    faces.statement_eq]

theorem stepMany_of_walk (faces : engine.Faces stretch rest) {index final : Nat}
    (walked : Statement.walk engine.memory.extent stretch index engine.stack.depth = .ok final) :
    ∃ next further,
      engine.stepMany stretch.length = (.ok (), next) ∧ next.stack.depth = final ∧
        next.memory.extent = engine.memory.extent ∧
        next.Faces [] further ∧ (rest ≠ [] → further = rest) := by
  induction stretch generalizing engine rest index with
  | nil =>
    obtain rfl := Except.ok.inj walked
    exact ⟨engine, rest, rfl, rfl, rfl, faces, fun _ => rfl⟩
  | cons statement stretch inductionHypothesis =>
    have accepts := Statement.accepted_of_walk walked
    have accepted : engine.objection? = none := faces.objection?_eq.trans accepts
    obtain ⟨middle, following, kept⟩ := faces.stepped
    rw [faces.walk_stepped accepts] at walked
    obtain ⟨next, further, run, final, extent, onward, same⟩ :=
      inductionHypothesis following walked
    refine ⟨next, further, ?_, final, extent.trans (extent_stepped engine), onward, ?_⟩
    · exact stepMany_succ_eq_ok_iff.mpr ⟨faces.running, accepted, run⟩
    · intro unfinished
      rw [← kept unfinished]
      apply same
      rwa [kept unfinished]

theorem stepMany_of_walk_error (faces : engine.Faces stretch rest) {index : Nat} {fault : Fault}
    (walked : Statement.walk engine.memory.extent stretch index engine.stack.depth =
      .error fault) :
    ∃ failure, (engine.stepMany stretch.length).1 = .error failure := by
  induction stretch generalizing engine rest index with
  | nil => contradiction
  | cons statement stretch inductionHypothesis =>
    have objections := faces.objection?_eq
    cases decided : statement.instruction.objection? engine.memory.extent engine.stack.depth with
    | some kind =>
      have failed := step_of_objection faces.running (objections.trans decided)
      exact ⟨_, congrArg Prod.fst (stepMany_of_step_error failed stretch.length)⟩
    | none =>
      have accepted : engine.objection? = none := objections.trans decided
      obtain ⟨_, following, _⟩ := faces.stepped
      rw [faces.walk_stepped decided] at walked
      rw [List.length_cons, stepMany_of_step_ok (step_of_accepted faces.running accepted)]
      exact inductionHypothesis following walked

/-- An engine gets through a stretch exactly when the walk over it does, and to the
same depth. -/
theorem stepMany_iff_walk (faces : engine.Faces stretch rest) (index : Nat) {final : Nat} :
    (∃ next, engine.stepMany stretch.length = (.ok (), next) ∧ next.stack.depth = final) ↔
      Statement.walk engine.memory.extent stretch index engine.stack.depth = .ok final := by
  constructor
  · rintro ⟨next, run, rfl⟩
    cases walked : Statement.walk engine.memory.extent stretch index engine.stack.depth with
    | ok depth =>
      obtain ⟨other, _, otherRun, rfl, _⟩ := faces.stepMany_of_walk walked
      rw [run] at otherRun
      rw [(Prod.mk.inj otherRun).2]
    | error fault =>
      obtain ⟨failure, failed⟩ := faces.stepMany_of_walk_error walked
      rw [run] at failed
      contradiction
  · intro walked
    obtain ⟨next, _, run, depth, _⟩ := faces.stepMany_of_walk walked
    exact ⟨next, run, depth⟩

/-- A scan goes step by step through a stretch that something follows. -/
theorem scanOn_eq (faces : engine.Faces stretch rest) (unfinished : rest ≠ [])
    (run : engine.stepMany stretch.length = (.ok (), next)) (limit remaining taken : Nat) :
    engine.scanOn limit (stretch.length + remaining) taken =
      next.scanOn limit remaining (taken + stretch.length) := by
  induction stretch generalizing engine taken with
  | nil =>
    obtain ⟨_, rfl⟩ := Prod.mk.inj run
    simp
  | cons statement stretch inductionHypothesis =>
    obtain ⟨running, accepted, run⟩ := stepMany_succ_eq_ok_iff.mp run
    have index : engine.stepped.pc ≠ 0 := by
      rw [faces.pc_stepped, if_neg (by simp [unfinished])]
      exact Nat.succ_ne_zero engine.pc
    obtain ⟨further, onward, kept⟩ := faces.stepped
    rw [kept unfinished] at onward
    rw [List.length_cons, Nat.add_right_comm,
      scanOn_of_step_ok (step_of_accepted running accepted), if_neg index,
      inductionHypothesis onward run, Nat.add_assoc, Nat.add_comm 1]

theorem stack_eq {cells : Nat → Bool} {names : List Nat} (faces : engine.Faces stretch rest)
    (holds : engine.memory.Holds cells names)
    (looked : ∀ statement ∈ stretch, ∀ address,
      statement.instruction.source? = some address → address ∈ names)
    (storeless : ∀ statement ∈ stretch, statement.instruction.opcode ≠ .out)
    (run : engine.stepMany stretch.length = (.ok (), next)) :
    next.stack =
      Instruction.evaluateAll cells (stretch.map Statement.instruction) engine.stack := by
  induction stretch generalizing engine rest with
  | nil =>
    obtain ⟨_, rfl⟩ := Prod.mk.inj run
    rfl
  | cons statement stretch inductionHypothesis =>
    obtain ⟨_, _, run⟩ := stepMany_succ_eq_ok_iff.mp run
    obtain ⟨looksInside, looked⟩ := List.forall_mem_cons.mp looked
    obtain ⟨ordinary, storeless⟩ := List.forall_mem_cons.mp storeless
    obtain ⟨_, onward, _⟩ := faces.stepped
    -- Without a store the banks keep the named cells, whatever roles they have next.
    have settled : engine.stepped.memory.Holds cells names := by
      have none : engine.store? = none := by
        rw [store?, faces.statement_eq]
        exact Instruction.store?_eq_none ordinary engine.stack
      rw [memory_stepped, none]
      exact holds.settle engine.toggle _
    have value : engine.stepped.stack = statement.instruction.evaluate cells engine.stack := by
      rw [← faces.statement_eq]
      apply Instruction.evaluate_congr
      intro address source
      rw [faces.statement_eq] at source
      exact holds.liveAt (looksInside address source)
    rw [List.map_cons, Instruction.evaluateAll_cons, ← value]
    exact inductionHypothesis onward settled looked storeless run

end Faces

end Engine

end RelayLadder
