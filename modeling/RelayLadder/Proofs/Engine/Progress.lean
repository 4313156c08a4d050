import RelayLadder.Proofs.Engine.Coherence
import RelayLadder.Proofs.Engine.Leftover

/-!
How far a scan has got, after any history of requests. While an engine runs, its stack
is that of a first scan at the same index on top of leftovers, and there are none once
the scan has stored something. So a scan that is not the first can only fault before its
first store.
-/

namespace RelayLadder

namespace Statement

/-- Whether one of the statements stores to a cell. -/
def StoresTo (statements : List Statement) (address : Nat) : Prop :=
  ∃ statement ∈ statements, statement.instruction = ⟨.out, some address⟩

theorem StoresTo.mono {fewer more : List Statement} {address : Nat}
    (stores : StoresTo fewer address) (subset : fewer ⊆ more) : StoresTo more address := by
  obtain ⟨statement, membership, store⟩ := stores
  exact ⟨statement, subset membership, store⟩

end Statement

namespace Control

/-- The statements that the current scan has run so far. -/
def ran (control : Control) : List Statement :=
  control.program.body.take (match control.fault with
    | none => control.pc
    | some fault => fault.index)

/-- A running control whose stack is that of a first scan, raised by leftovers. The rest of
such a first scan would end as the whole of it. -/
structure Framed (control : Control) (base inner : Nat) : Prop where
  depth : control.depth = base + inner
  resumed : Statement.walk control.extent (control.program.body.drop control.pc) control.pc inner =
    Statement.walk control.extent control.program.body 0 0
  bare : control.scans = 0 ∨ (∃ statement ∈ control.ran, statement.instruction.opcode = .out) →
    base = 0

structure Paced (control : Control) : Prop where
  inside : control.fault = none → control.pc < control.program.body.length
  framed : control.fault = none → ∃ base inner, control.Framed base inner
  completed : control.scans ≠ 0 →
    ∃ final, Statement.walk control.extent control.program.body 0 0 = .ok final
  halted : control.fault ≠ none → control.scans ≠ 0 →
    ∀ statement ∈ control.ran, statement.instruction.opcode ≠ .out

end Control

namespace Engine

variable {engine : Engine}

theorem ran_of_running (running : engine.fault = none) :
    engine.control.ran = engine.program.body.take engine.pc := by
  simp only [Control.ran, control, running]

theorem ran_latch (running : engine.fault = none) (kind : FaultKind) :
    (engine.latch (engine.blame kind)).control.ran = engine.control.ran := by
  rw [ran_of_running running]
  rfl

theorem ran_stepped (running : engine.fault = none) {statement : Statement}
    {rest : List Statement} (ahead : engine.program.body.drop engine.pc = statement :: rest) :
    engine.stepped.control.ran = if rest = [] then [] else engine.control.ran ++ [statement] := by
  have index := (pc_stepped_of_body ahead).2
  have stillRunning : engine.stepped.fault = none := running
  rw [ran_of_running stillRunning, ran_of_running running, index, program_stepped]
  by_cases last : rest = []
  · rw [if_pos last, if_pos last, List.take_zero]
  · rw [if_neg last, if_neg last, List.take_add_one, Program.getElem?_body ahead,
      Option.toList_some]

end Engine

namespace Control.Framed

open Engine

variable {engine : Engine} {base inner : Nat} {statement : Statement} {rest : List Statement}

/-- Where a first scan completes, it does not stop at the next statement. -/
theorem accepts_of_completed (framed : engine.control.Framed base inner)
    (ahead : engine.program.body.drop engine.pc = statement :: rest) {final : Nat}
    (walked : Statement.walk engine.memory.extent engine.program.body 0 0 = .ok final) :
    statement.instruction.objection? engine.memory.extent inner = none := by
  have resumed : Statement.walk engine.memory.extent (engine.program.body.drop engine.pc)
      engine.pc inner = .ok final := framed.resumed.trans walked
  rw [ahead] at resumed
  exact Statement.accepted_of_walk resumed

theorem objection?_of_bare (framed : engine.control.Framed 0 inner)
    (ahead : engine.program.body.drop engine.pc = statement :: rest) :
    engine.objection? = statement.instruction.objection? engine.memory.extent inner := by
  have depth : engine.stack.depth = inner := framed.depth.trans (Nat.zero_add inner)
  rw [objection?_of_body ahead, depth]

theorem resumed_stepped (framed : engine.control.Framed base inner)
    (ahead : engine.program.body.drop engine.pc = statement :: rest)
    (accepts : statement.instruction.objection? engine.memory.extent inner = none) :
    Statement.walk engine.memory.extent rest (engine.pc + 1)
        (statement.instruction.opcode.depthAfter inner) =
      Statement.walk engine.memory.extent engine.program.body 0 0 := by
  have resumed : Statement.walk engine.memory.extent (engine.program.body.drop engine.pc)
      engine.pc inner = Statement.walk engine.memory.extent engine.program.body 0 0 :=
    framed.resumed
  rwa [ahead, Statement.walk_of_accepted accepts] at resumed

/-- A store runs on a single value, so nothing lies below it. -/
theorem bare_of_out (framed : engine.control.Framed base inner)
    (ahead : engine.program.body.drop engine.pc = statement :: rest)
    (accepts : statement.instruction.objection? engine.memory.extent inner = none)
    (accepted : engine.objection? = none) (out : statement.instruction.opcode = .out) :
    base = 0 := by
  have single : inner = 1 := by
    have admitted := Instruction.admits_of_accepted accepts
    rw [out] at admitted
    simpa [Opcode.rule, DepthRule.admits] using admitted
  have whole : engine.stack.depth = 1 := by
    rw [objection?_of_body ahead] at accepted
    have admitted := Instruction.admits_of_accepted accepted
    rw [out] at admitted
    simpa [Opcode.rule, DepthRule.admits] using admitted
  have raised : engine.stack.depth = base + inner := framed.depth
  omega

end Control.Framed

namespace Control.Paced

open Engine

variable {engine : Engine}

theorem of_rest {control : Control} (index : control.pc = 0) (unscanned : control.scans = 0)
    (empty : control.depth = 0) (running : control.fault = none) : control.Paced := by
  refine ⟨?inside, ?framed, fun scanned => absurd unscanned scanned,
    fun latched => absurd running latched⟩
  case inside =>
    intro _
    rw [index]
    exact List.length_pos_iff.mpr control.program.body_ne_nil
  case framed =>
    intro _
    refine ⟨0, 0, empty, ?_, fun _ => rfl⟩
    rw [index, List.drop_zero]

theorem stepped (paced : engine.control.Paced) (running : engine.fault = none)
    (accepted : engine.objection? = none) : engine.stepped.control.Paced := by
  obtain ⟨statement, rest, ahead⟩ := ahead_of_inside (paced.inside running)
  obtain ⟨base, inner, framed⟩ := paced.framed running
  have accepts : statement.instruction.objection? engine.memory.extent inner = none := by
    by_cases bare : base = 0
    · subst bare
      rw [← framed.objection?_of_bare ahead]
      exact accepted
    · have scanned : engine.scans ≠ 0 := fun first => bare (framed.bare (.inl first))
      obtain ⟨final, walked⟩ := paced.completed scanned
      exact framed.accepts_of_completed ahead walked
  have resumed := framed.resumed_stepped ahead accepts
  have ran := ran_stepped running ahead
  have deeper : statement.instruction.opcode.depthAfter engine.stack.depth =
      base + statement.instruction.opcode.depthAfter inner := by
    have raised : engine.stack.depth = base + inner := framed.depth
    rw [raised, Opcode.depthAfter_add (Instruction.admits_of_accepted accepts)]
  have inside : engine.stepped.control.pc < engine.stepped.control.program.body.length :=
    inside_stepped (paced.inside running)
  have control := control_stepped_of_body accepted ahead
  rw [deeper] at control
  by_cases last : rest = []
  · -- The scan is complete, and what it leaves lies below the next one.
    subst last
    rw [if_pos rfl] at ran
    rw [control] at ran inside ⊢
    have walked : Statement.walk engine.memory.extent engine.program.body 0 0 =
        .ok (statement.instruction.opcode.depthAfter inner) := resumed.symm
    refine ⟨fun _ => inside, ?_, fun _ => ⟨_, walked⟩, fun latched => absurd running latched⟩
    intro _
    refine ⟨base + statement.instruction.opcode.depthAfter inner, 0, rfl, rfl, ?_⟩
    rintro (unscanned | ⟨other, membership, _⟩)
    · simp at unscanned
    · rw [ran] at membership
      simp at membership
  · have following : engine.program.body.drop (engine.pc + 1) = rest :=
      Program.drop_body_succ ahead
    rw [if_neg last] at ran
    simp only [if_neg last] at control
    rw [control] at ran inside ⊢
    refine ⟨fun _ => inside, ?_, paced.completed, fun latched => absurd running latched⟩
    intro _
    refine ⟨base, statement.instruction.opcode.depthAfter inner, rfl, ?_, ?_⟩
    · rw [← following] at resumed
      exact resumed
    · rintro (unscanned | ⟨other, membership, out⟩)
      · exact framed.bare (.inl unscanned)
      · rw [ran, List.mem_append, List.mem_singleton] at membership
        rcases membership with earlier | rfl
        · exact framed.bare (.inr ⟨other, earlier, out⟩)
        · exact framed.bare_of_out ahead accepts accepted out

theorem latched (paced : engine.control.Paced) (running : engine.fault = none)
    {kind : FaultKind} (refused : engine.objection? = some kind) :
    (engine.latch (engine.blame kind)).control.Paced where
  inside := by
    intro released
    cases released
  framed := by
    intro released
    cases released
  completed := paced.completed
  halted := by
    intro _ scanned statement membership out
    rw [ran_latch running] at membership
    obtain ⟨next, rest, ahead⟩ := ahead_of_inside (paced.inside running)
    obtain ⟨base, inner, framed⟩ := paced.framed running
    have bare := framed.bare (.inr ⟨statement, membership, out⟩)
    subst bare
    -- With nothing below it, the first scan would have met the same objection.
    obtain ⟨final, walked⟩ := paced.completed scanned
    have accepts := framed.accepts_of_completed ahead walked
    rw [framed.objection?_of_bare ahead, accepts] at refused
    cases refused

theorem invariant : Invariant fun engine => engine.control.Paced where
  step := by
    intro engine paced
    apply keeps_step (fun engine => engine.control.Paced) paced
    · exact paced.stepped
    · intro kind running refused
      exact paced.latched running refused
  force := by
    intro engine address value _ paced
    exact paced
  clearMemory := by
    intro engine paced
    exact paced
  reset := by
    intro engine _
    apply of_rest <;> rfl

theorem of_history (program : Program) (config : Config) (requests : List Request) :
    ((start program config).serveAll requests).control.Paced := by
  apply invariant.serveAll
  apply of_rest <;> rfl

end Control.Paced

end RelayLadder
