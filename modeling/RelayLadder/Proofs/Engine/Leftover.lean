import RelayLadder.Proofs.Engine.Scan

/-!
Values that a scan leaves on the stack. The stack is not cleared between scans, so
leftovers pile up; but every depth rule except that of a store only asks for enough
values. So the first scan decides all the later ones.
-/

namespace RelayLadder

namespace Program

/-- The index of the first store of a program. -/
def firstOut (program : Program) : Nat :=
  program.statements.toList.findIdx fun statement => statement.instruction.opcode = .out

/-- A body with a store splits at the first store of the program. -/
theorem body_eq_of_out {program : Program}
    (stores : ∃ statement ∈ program.body, statement.instruction.opcode = .out) :
    ∃ before store after,
      program.body = before ++ store :: after ∧
        (∀ statement ∈ before, statement.instruction.opcode ≠ .out) ∧
        store.instruction.opcode = .out ∧
        before.length = program.firstOut ∧ program.fetch program.firstOut = store := by
  have present : (program.body.find? fun statement =>
      decide (statement.instruction.opcode = .out)).isSome := by
    rw [List.find?_isSome]
    simpa using stores
  obtain ⟨store, found⟩ := Option.isSome_iff_exists.mp present
  obtain ⟨isOut, before, after, split, earlier⟩ := List.find?_eq_some_iff_append.mp found
  have out : store.instruction.opcode = .out := by simpa using isOut
  have ordinary : ∀ statement ∈ before, statement.instruction.opcode ≠ .out := by
    simpa using earlier
  have index : before.length = program.firstOut := by
    obtain ⟨beyond, whole⟩ := program.body_prefix
    have none : ¬ (before.findIdx fun statement =>
        decide (statement.instruction.opcode = .out)) < before.length := by
      simpa [List.findIdx_lt_length] using ordinary
    rw [firstOut, ← whole, split, List.append_assoc, List.findIdx_append, if_neg none,
      List.cons_append, List.findIdx_cons]
    simp [out]
  have ahead : program.body.drop program.firstOut = store :: after := by
    rw [← index, split, List.drop_left]
  exact ⟨before, store, after, split, ordinary, out, index, fetch_body ahead⟩

end Program

namespace Opcode

/-- A rule that admits a depth also admits a deeper stack, unless it is that of a store. -/
theorem admits_add {opcode : Opcode} (ordinary : opcode ≠ .out) {depth : Nat}
    (admitted : opcode.rule.admits depth = true) (base : Nat) :
    opcode.rule.admits (base + depth) = true := by
  cases opcode with
  | finish => rfl
  | load inverted => rfl
  | out => contradiction
  | combine gate inverted =>
    simp only [rule, DepthRule.admits, decide_eq_true_eq] at admitted ⊢
    omega
  | merge gate =>
    simp only [rule, DepthRule.admits, decide_eq_true_eq] at admitted ⊢
    omega

theorem depthAfter_add {opcode : Opcode} {depth : Nat}
    (admitted : opcode.rule.admits depth = true) (base : Nat) :
    opcode.depthAfter (base + depth) = base + opcode.depthAfter depth := by
  cases opcode with
  | finish => rfl
  | load inverted => rfl
  | out =>
    simp only [rule, DepthRule.admits, beq_iff_eq] at admitted
    simp only [depthAfter]
    omega
  | combine gate inverted => rfl
  | merge gate =>
    simp only [rule, DepthRule.admits, decide_eq_true_eq] at admitted
    simp only [depthAfter]
    omega

end Opcode

theorem Instruction.accepted_add {instruction : Instruction} {extent : Extent} {depth : Nat}
    (ordinary : instruction.opcode ≠ .out)
    (accepted : instruction.objection? extent depth = none) (base : Nat) :
    instruction.objection? extent (base + depth) = none := by
  have deeper := Opcode.admits_add ordinary (admits_of_accepted accepted) base
  rw [objection?_of_accepted accepted, depthObjection?, if_pos deeper]

namespace Statement

variable {extent : Extent} {statements : List Statement} {index depth final : Nat}

/-- Without a store, leftovers stay below what a scan adds. -/
theorem walk_add (ordinary : ∀ statement ∈ statements, statement.instruction.opcode ≠ .out)
    (walked : walk extent statements index depth = .ok final) (base : Nat) :
    walk extent statements index (base + depth) = .ok (base + final) := by
  induction statements generalizing index depth with
  | nil =>
    obtain rfl := Except.ok.inj walked
    rfl
  | cons statement rest inductionHypothesis =>
    have accepted := accepted_of_walk walked
    have deeper := Instruction.accepted_add (ordinary statement (by simp)) accepted base
    have others : ∀ other ∈ rest, other.instruction.opcode ≠ .out :=
      fun other membership => ordinary other (by simp [membership])
    rw [walk_of_accepted accepted] at walked
    rw [walk_of_accepted deeper,
      Opcode.depthAfter_add (Instruction.admits_of_accepted accepted)]
    exact inductionHypothesis others walked

/-- With leftovers below, the first store objects. -/
theorem walk_add_of_out {before after : List Statement} {store : Statement}
    (ordinary : ∀ statement ∈ before, statement.instruction.opcode ≠ .out)
    (out : store.instruction.opcode = .out)
    (walked : walk extent (before ++ store :: after) index depth = .ok final) {base : Nat}
    (leftover : 0 < base) :
    walk extent (before ++ store :: after) index (base + depth) =
      .error ⟨index + before.length, store.line, store.instruction,
        .stack ⟨.exactly 1, base + 1⟩⟩ := by
  induction before generalizing index depth with
  | nil =>
    have accepted := accepted_of_walk walked
    have one : depth = 1 := by
      have admitted := Instruction.admits_of_accepted accepted
      rw [out] at admitted
      simpa [Opcode.rule, DepthRule.admits] using admitted
    have refused : store.instruction.objection? extent (base + depth) =
        some (.stack ⟨.exactly 1, base + 1⟩) := by
      have tooDeep : base ≠ 0 := Nat.ne_of_gt leftover
      rw [Instruction.objection?_of_accepted accepted, Instruction.depthObjection?, out, one]
      simp [Opcode.rule, DepthRule.admits, tooDeep]
    exact walk_of_objection refused
  | cons statement rest inductionHypothesis =>
    have accepted := accepted_of_walk walked
    have deeper := Instruction.accepted_add (ordinary statement (by simp)) accepted base
    have others : ∀ other ∈ rest, other.instruction.opcode ≠ .out :=
      fun other membership => ordinary other (by simp [membership])
    rw [List.cons_append, walk_of_accepted accepted] at walked
    rw [List.cons_append, walk_of_accepted deeper,
      Opcode.depthAfter_add (Instruction.admits_of_accepted accepted),
      inductionHypothesis others walked]
    -- The index counts on from the next statement.
    simp only [List.length_cons]
    rw [Nat.add_right_comm, Nat.add_assoc]

end Statement

end RelayLadder
