import RelayLadder.Program.Basic

/-!
The part of a program that its scans run: everything up to the first statement
that ends a scan, or the whole program.
-/

namespace RelayLadder

namespace Statement

/-- The statements up to and including the first that ends a scan. -/
def upToEnd : List Statement → List Statement
  | [] => []
  | statement :: rest =>
    if statement.instruction.opcode = .finish then [statement] else statement :: upToEnd rest

@[simp] theorem upToEnd_eq_nil_iff (statements : List Statement) :
    upToEnd statements = [] ↔ statements = [] := by
  cases statements with
  | nil => simp [upToEnd]
  | cons statement rest =>
    unfold upToEnd
    split <;> simp

theorem upToEnd_prefix (statements : List Statement) : upToEnd statements <+: statements := by
  induction statements with
  | nil => exact List.prefix_rfl
  | cons statement rest inductionHypothesis =>
    unfold upToEnd
    split
    · exact ⟨rest, rfl⟩
    · exact List.cons_prefix_cons.mpr ⟨rfl, inductionHypothesis⟩

theorem upToEnd_append_cons {before : List Statement} {ending : Statement}
    (ordinary : ∀ statement ∈ before, statement.instruction.opcode ≠ .finish)
    (ends : ending.instruction.opcode = .finish) (after : List Statement) :
    upToEnd (before ++ ending :: after) = before ++ [ending] := by
  induction before with
  | nil => exact if_pos ends
  | cons statement rest inductionHypothesis =>
    obtain ⟨continues, others⟩ := List.forall_mem_cons.mp ordinary
    rw [List.cons_append, upToEnd, if_neg continues, inductionHypothesis others]
    rfl

theorem length_upToEnd (statements : List Statement) :
    (upToEnd statements).length =
      match statements.findIdx? fun statement => statement.instruction.opcode = .finish with
      | some index => index + 1
      | none => statements.length := by
  induction statements with
  | nil => rfl
  | cons statement rest inductionHypothesis =>
    rw [upToEnd, List.findIdx?_cons]
    by_cases ends : statement.instruction.opcode = .finish
    · simp [ends]
    · simp only [ends, if_false, decide_false, List.length_cons, inductionHypothesis]
      cases rest.findIdx? fun other => decide (other.instruction.opcode = .finish) with
      | none => rfl
      | some index => rfl

/-- No statement ends the scan before the last one that it runs. -/
theorem ordinary_of_lt_upToEnd {statements : List Statement} {index : Nat}
    (inside : index < (upToEnd statements).length) :
    ∀ statement ∈ statements.take index, statement.instruction.opcode ≠ .finish := by
  induction statements generalizing index with
  | nil => simp
  | cons head tail inductionHypothesis =>
    unfold upToEnd at inside
    split at inside
    next ends => simp_all
    next continues =>
      cases index with
      | zero => simp
      | succ index =>
        rw [List.take_succ_cons, List.forall_mem_cons]
        exact ⟨continues, inductionHypothesis (Nat.lt_of_succ_lt_succ inside)⟩

/-- A statement is the last of its scan exactly when it ends the scan or nothing
follows it. -/
theorem last_upToEnd_iff {statements rest : List Statement} {statement : Statement}
    {index : Nat} (ahead : (upToEnd statements).drop index = statement :: rest) :
    rest = [] ↔ statement.instruction.opcode = .finish ∨ statements.length = index + 1 := by
  induction statements generalizing index with
  | nil => simp [upToEnd] at ahead
  | cons head tail inductionHypothesis =>
    unfold upToEnd at ahead
    split at ahead
    next ends =>
      cases index with
      | zero => simp_all
      | succ index => simp at ahead
    next continues =>
      cases index with
      | zero =>
        obtain ⟨rfl, rfl⟩ := List.cons.inj ahead
        simp [continues]
      | succ index => simpa using inductionHypothesis ahead

end Statement

namespace Program

/-- The statements that a scan runs. -/
def body (program : Program) : List Statement := Statement.upToEnd program.statements.toList

/-- How many statements a complete scan runs: those up to the first that ends the scan,
or all of them. -/
def scanLength (program : Program) : Nat :=
  match program.statements.toList.findIdx? fun statement =>
      statement.instruction.opcode = .finish with
  | some index => index + 1
  | none => program.size

theorem length_body (program : Program) : program.body.length = program.scanLength := by
  rw [body, Statement.length_upToEnd, scanLength, size, Array.length_toList]

theorem body_ne_nil (program : Program) : program.body ≠ [] := by
  intro empty
  have none : program.statements = #[] := by simpa [body] using empty
  have nonempty := program.nonempty
  simp [none] at nonempty

theorem body_prefix (program : Program) : program.body <+: program.statements.toList :=
  Statement.upToEnd_prefix _

theorem length_body_le (program : Program) : program.body.length ≤ program.size :=
  program.body_prefix.length_le

theorem scanLength_le (program : Program) : program.scanLength ≤ program.size := by
  rw [← program.length_body]
  exact program.length_body_le

theorem ordinary_before (program : Program) {index : Nat} (inside : index < program.scanLength) :
    ∀ statement ∈ program.statements.toList.take index,
      statement.instruction.opcode ≠ .finish := by
  rw [← program.length_body] at inside
  exact Statement.ordinary_of_lt_upToEnd inside

variable {program : Program} {index : Nat} {statement : Statement} {rest : List Statement}

/-- The statements before, at and after an index. -/
theorem split_of_get? (listed : program.get? index = some statement) :
    program.statements.toList =
      program.statements.toList.take index ++
        statement :: program.statements.toList.drop (index + 1) := by
  have found : program.statements.toList[index]? = some statement := by
    simpa [get?] using listed
  obtain ⟨inside, rfl⟩ := List.getElem?_eq_some_iff.mp found
  rw [← List.drop_eq_getElem_cons inside, List.take_append_drop]

theorem getElem?_body (ahead : program.body.drop index = statement :: rest) :
    program.body[index]? = some statement := by
  rw [← List.head?_drop, ahead]
  rfl

theorem lt_length_body (ahead : program.body.drop index = statement :: rest) :
    index < program.body.length := by
  obtain ⟨bound, _⟩ := List.getElem?_eq_some_iff.mp (getElem?_body ahead)
  exact bound

theorem fetch_body (ahead : program.body.drop index = statement :: rest) :
    program.fetch index = statement := by
  have bound : index < program.size :=
    Nat.lt_of_lt_of_le (lt_length_body ahead) program.length_body_le
  have listed : program.get? index = some statement := by
    obtain ⟨after, whole⟩ := program.body_prefix
    have found : (program.body ++ after)[index]? = some statement := by
      rw [List.getElem?_append_left (lt_length_body ahead), getElem?_body ahead]
    rw [whole] at found
    simpa [get?] using found
  rw [get?_eq_fetch bound] at listed
  exact Option.some.inj listed

theorem drop_body_succ (ahead : program.body.drop index = statement :: rest) :
    program.body.drop (index + 1) = rest := by
  rw [← List.drop_drop, ahead]
  rfl

/-- Where control goes after a statement of the body. -/
theorem next_body (ahead : program.body.drop index = statement :: rest) :
    (if statement.instruction.opcode = .finish then 0 else program.next index) =
      if rest = [] then 0 else index + 1 := by
  have last := Statement.last_upToEnd_iff ahead
  have length : program.statements.toList.length = program.size := by simp [size]
  rw [length] at last
  by_cases ends : statement.instruction.opcode = .finish
  · simp [ends, last]
  · by_cases done : rest = []
    · have whole : program.size = index + 1 := by simpa [ends] using last.mp done
      simp [ends, done, next, whole]
    · have following : index + 1 < program.size := by
        have bound := lt_length_body ahead
        have upper := program.length_body_le
        have different : program.size ≠ index + 1 := by
          intro whole
          exact done (last.mpr (.inr whole))
        omega
      simp [ends, done, next, Nat.mod_eq_of_lt following]

end Program

end RelayLadder
