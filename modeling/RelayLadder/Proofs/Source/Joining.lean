import RelayLadder.Proofs.Source.Acceptance

/-!
Sources put below one another. The lines of the whole are those of the upper source and then
those of the lower one, with their numbers moved down, so reading the whole is reading the
parts and combining the results.
-/

namespace RelayLadder

/-- The statement as many lines further down. -/
def Statement.shifted (shift : Nat) (statement : Statement) : Statement :=
  { statement with line := statement.line + shift }

/-- The error as many lines further down. -/
def SourceError.shifted (shift : Nat) : SourceError → SourceError
  | malformed line => malformed (line + shift)
  | unknownOpcode line name => unknownOpcode (line + shift) name
  | unknownBank line letter => unknownBank (line + shift) letter
  | addressOverflow line => addressOverflow (line + shift)
  | emptyProgram => emptyProgram

namespace Program

/-- The program with all its statements as many lines further down. -/
def shifted (shift : Nat) (program : Program) : Program where
  statements := program.statements.map (Statement.shifted shift)
  nonempty := by simpa using program.nonempty

/-- The statements of a program and then those of another one. -/
def append (upper lower : Program) : Program where
  statements := upper.statements ++ lower.statements
  nonempty := by simp [upper.nonempty]

end Program

namespace Source

section Lines

theorem lines_join (upper lower : String) :
    lines (upper ++ "\n" ++ lower) = lines upper ++ lines lower := by
  have parts : (upper ++ "\n" ++ lower).toList = upper.toList ++ '\n' :: lower.toList := by simp
  rw [lines, parts]
  exact List.splitOn_append_cons_self _ _

theorem length_lines (source : String) :
    (lines source).length = 1 + source.toList.count '\n' := by
  rw [lines]
  induction source.toList with
  | nil => simp
  | cons c text inductionHypothesis =>
    rw [List.splitOn_cons_eq_if_modifyHead, List.count_cons]
    split
    · simp [inductionHypothesis, Nat.add_assoc]
    · simp [inductionHypothesis]

theorem entriesFrom_append (first : Nat) (above below : List (List Char)) :
    entriesFrom first (above ++ below) =
      entriesFrom first above ++ entriesFrom (first + above.length) below := by
  simp [entriesFrom, List.zipIdx_append]

theorem statementsFrom_append (line : Nat) (above below : List (List Char)) :
    statementsFrom line (above ++ below) = (do
      let upper ← statementsFrom line above
      let lower ← statementsFrom (line + above.length) below
      pure (upper ++ lower)) := by
  simp only [statementsFrom_eq_mapM, entriesFrom_append, List.mapM_append]

end Lines

section Shifting

/-- The verdict on a line mentions its number in errors alone. -/
theorem Judged.shifted {line : Nat} {text : List Char} {result : Except SourceError Instruction}
    (judged : Judged line text result) (shift : Nat) :
    Judged (line + shift) text (result.mapError (SourceError.shifted shift)) := by
  cases judged with
  | malformed formless => exact .malformed formless
  | unknownOpcode form unlisted => exact .unknownOpcode form unlisted
  | unknownBank form other => exact .unknownBank form other
  | addressOverflow form large => exact .addressOverflow form large
  | bare form => exact .bare form
  | addressed form small => exact .addressed form small

theorem parseLine_add (line shift : Nat) (text : List Char) :
    parseLine (line + shift) text = (parseLine line text).mapError (SourceError.shifted shift) := by
  obtain ⟨result, judged⟩ := Judged.exists line text
  rw [judged.parseLine_eq]
  exact (judged.shifted shift).parseLine_eq

theorem statementsFrom_add (line shift : Nat) (raws : List (List Char)) :
    statementsFrom (line + shift) raws =
      ((statementsFrom line raws).map (List.map (Statement.shifted shift))).mapError
        (SourceError.shifted shift) := by
  induction raws generalizing line with
  | nil => rfl
  | cons raw raws inductionHypothesis =>
    simp only [statementsFrom, Nat.add_right_comm line shift 1, inductionHypothesis, parseLine_add]
    split
    · rfl
    · cases parseLine line (Text.trim raw) with
      | error error => rfl
      | ok instruction => cases statementsFrom (line + 1) raws <;> rfl

end Shifting

section Wholes

variable {upper lower : String} {above below : List Statement} {error : SourceError}

/-- The statements of a whole are those of the upper source and, further down, those of the
lower one. -/
theorem statements_join (upper lower : String) :
    let shift := 1 + upper.toList.count '\n'
    statementsFrom 1 (lines (upper ++ "\n" ++ lower)) = (do
      let above ← statementsFrom 1 (lines upper)
      let below ← ((statementsFrom 1 (lines lower)).map
        (List.map (Statement.shifted shift))).mapError (SourceError.shifted shift)
      pure (above ++ below)) := by
  intro shift
  rw [lines_join, statementsFrom_append, length_lines, statementsFrom_add]

theorem statements_join_of_ok (read : statementsFrom 1 (lines upper) = .ok above)
    (alsoRead : statementsFrom 1 (lines lower) = .ok below) :
    statementsFrom 1 (lines (upper ++ "\n" ++ lower)) =
      .ok (above ++ below.map (Statement.shifted (1 + upper.toList.count '\n'))) := by
  rw [statements_join, read, alsoRead]
  rfl

theorem statements_join_of_upper_error (failed : statementsFrom 1 (lines upper) = .error error) :
    statementsFrom 1 (lines (upper ++ "\n" ++ lower)) = .error error := by
  rw [statements_join, failed]
  rfl

theorem statements_join_of_lower_error (read : statementsFrom 1 (lines upper) = .ok above)
    (failed : statementsFrom 1 (lines lower) = .error error) :
    statementsFrom 1 (lines (upper ++ "\n" ++ lower)) =
      .error (error.shifted (1 + upper.toList.count '\n')) := by
  rw [statements_join, read, failed]
  rfl

end Wholes

section Results

variable {source : String}

theorem parse_of_error {error : SourceError}
    (failed : statementsFrom 1 (lines source) = .error error) : parse source = .error error := by
  rw [parse, failed]
  rfl

theorem parse_of_program {program : Program}
    (read : statementsFrom 1 (lines source) = .ok program.statements.toList) :
    parse source = .ok program := by
  rw [parse_of_statements read, ofStatements?_eq_some_iff.mpr rfl]
  rfl

/-- Blank lines alone are no bad line. -/
theorem statements_ne_emptyProgram (line : Nat) (raws : List (List Char)) :
    statementsFrom line raws ≠ .error .emptyProgram := by
  intro failed
  rw [statementsFrom_eq_mapM] at failed
  obtain ⟨before, entry, after, -, -, bad⟩ := Traversal.exists_first_error failed
  cases Entry.parse_eq_error_iff.mp bad

/-- A source is rejected for a bad line, or has no statement, or is a program. -/
theorem parse_cases (source : String) :
    (∃ error, statementsFrom 1 (lines source) = .error error ∧ parse source = .error error ∧
      error ≠ .emptyProgram) ∨
    (statementsFrom 1 (lines source) = .ok [] ∧ parse source = .error .emptyProgram) ∨
    ∃ program : Program, statementsFrom 1 (lines source) = .ok program.statements.toList ∧
      parse source = .ok program := by
  cases read : statementsFrom 1 (lines source) with
  | error error =>
    refine .inl ⟨error, rfl, parse_of_error read, ?_⟩
    rintro rfl
    exact statements_ne_emptyProgram _ _ read
  | ok statements =>
    rw [parse_of_statements read]
    cases built : Program.ofStatements? statements with
    | none =>
      cases ofStatements?_eq_none_iff.mp built
      exact .inr (.inl ⟨rfl, rfl⟩)
    | some program =>
      cases ofStatements?_eq_some_iff.mp built
      exact .inr (.inr ⟨program, rfl, rfl⟩)

end Results

/-- The result for a source below another one. A bad line of the upper source counts before
one of the lower source, whose lines are counted on from those of the upper one; a source
without statements contributes none. -/
def combined (shift : Nat) :
    Except SourceError Program → Except SourceError Program → Except SourceError Program
  | .error .emptyProgram, .error error => .error (error.shifted shift)
  | .error .emptyProgram, .ok lower => .ok (lower.shifted shift)
  | .error error, _ => .error error
  | .ok upper, .error .emptyProgram => .ok upper
  | .ok _, .error error => .error (error.shifted shift)
  | .ok upper, .ok lower => .ok (upper.append (lower.shifted shift))

theorem combined_of_upper_error {error : SourceError} (bad : error ≠ .emptyProgram) (shift : Nat)
    (lower : Except SourceError Program) :
    combined shift (.error error) lower = .error error := by
  cases error with
  | emptyProgram => contradiction
  | malformed line | unknownOpcode line name | unknownBank line letter | addressOverflow line => rfl

theorem combined_of_lower_error {error : SourceError} (bad : error ≠ .emptyProgram) (shift : Nat)
    (upper : Program) :
    combined shift (.ok upper) (.error error) = .error (error.shifted shift) := by
  cases error with
  | emptyProgram => contradiction
  | malformed line | unknownOpcode line name | unknownBank line letter | addressOverflow line => rfl

/-- Reading turns sources below one another into combined results. -/
theorem parse_join (upper lower : String) :
    parse (upper ++ "\n" ++ lower) =
      combined (1 + upper.toList.count '\n') (parse upper) (parse lower) := by
  rcases parse_cases upper with
    ⟨error, failed, result, bad⟩ | ⟨read, result⟩ | ⟨first, read, result⟩
  · rw [result, combined_of_upper_error bad]
    exact parse_of_error (statements_join_of_upper_error failed)
  · rw [result]
    rcases parse_cases lower with ⟨error, failed, other, -⟩ | ⟨empty, other⟩ | ⟨second, more, other⟩
    · rw [other]
      exact parse_of_error (statements_join_of_lower_error read failed)
    · rw [other]
      exact parse_of_statements (statements_join_of_ok read empty)
    · rw [other]
      apply parse_of_program
      rw [statements_join_of_ok read more]
      simp [Program.shifted]
  · rw [result]
    rcases parse_cases lower with
      ⟨error, failed, other, bad⟩ | ⟨empty, other⟩ | ⟨second, more, other⟩
    · rw [other, combined_of_lower_error bad]
      exact parse_of_error (statements_join_of_lower_error read failed)
    · rw [other]
      apply parse_of_program
      rw [statements_join_of_ok read empty]
      simp
    · rw [other]
      apply parse_of_program
      rw [statements_join_of_ok read more]
      simp [Program.shifted, Program.append]

example : parse ("\nLD M0\n" ++ "\n" ++ "\n NOP") = .error (.unknownOpcode 5 "NOP") := by
  decide +kernel

end Source

end RelayLadder
