import RelayLadder.Proofs.Source.Grammar
import RelayLadder.Proofs.Traversal
import RelayLadder.Source.Program

/-!
Whole source texts against the grammar of their lines. A text is read if it has a line that
is not blank and all such lines are accepted; otherwise the first line that is not accepted
gives the error.
-/

namespace RelayLadder.Source

section Lines

variable {source : String} {raws : List (List Char)}

/-- The cut of a source into lines, at every newline character and nowhere else. -/
structure Cut (source : String) (raws : List (List Char)) : Prop where
  nonempty : raws ≠ []
  uncut : ∀ raw ∈ raws, '\n' ∉ raw
  joined : ['\n'].intercalate raws = source.toList

theorem newline_not_mem_splitOn (text : List Char) : ∀ raw ∈ text.splitOn '\n', '\n' ∉ raw := by
  induction text with
  | nil => simp
  | cons c text inductionHypothesis =>
    rw [List.splitOn_cons_eq_if_modifyHead]
    split
    · simpa using inductionHypothesis
    · rename_i other
      have different : '\n' ≠ c := by
        rintro rfl
        exact other (beq_self_eq_true _)
      obtain ⟨first, others, parts⟩ := List.exists_cons_of_ne_nil (List.splitOn_ne_nil '\n' text)
      rw [parts, List.forall_mem_cons] at inductionHypothesis
      rw [parts, List.modifyHead_cons, List.forall_mem_cons]
      refine ⟨?_, inductionHypothesis.2⟩
      exact List.not_mem_cons_of_ne_of_not_mem different inductionHypothesis.1

theorem lines_eq_iff : lines source = raws ↔ Cut source raws := by
  constructor
  · rintro rfl
    refine ⟨List.splitOn_ne_nil _ _, newline_not_mem_splitOn _, ?_⟩
    exact List.intercalate_splitOn '\n'
  · rintro ⟨nonempty, uncut, joined⟩
    rw [lines, ← joined]
    exact List.splitOn_intercalate '\n' uncut nonempty

end Lines

/-- A line that is not blank: its number, and what is left of it. -/
structure Entry where
  line : Nat
  text : List Char

namespace Entry

variable {entry : Entry}

/-- The statement that the line stands for. -/
def Reads (entry : Entry) (statement : Statement) : Prop :=
  statement.line = entry.line ∧ Judged entry.line entry.text (.ok statement.instruction)

def Accepted (entry : Entry) : Prop :=
  ∃ instruction, Judged entry.line entry.text (.ok instruction)

/-- Reads the one line. -/
def parse (entry : Entry) : Except SourceError Statement :=
  (parseLine entry.line entry.text).map (⟨entry.line, ·⟩)

theorem parse_eq_ok_iff {statement : Statement} :
    entry.parse = .ok statement ↔ entry.Reads statement := by
  rcases statement with ⟨line, instruction⟩
  rw [Reads, ← parseLine_eq_iff, parse]
  cases parseLine entry.line entry.text with
  | error error => simp [Except.map]
  | ok parsed => simp [Except.map, eq_comm]

theorem parse_eq_error_iff {error : SourceError} :
    entry.parse = .error error ↔ Judged entry.line entry.text (.error error) := by
  rw [← parseLine_eq_iff, parse]
  cases parseLine entry.line entry.text <;> simp [Except.map]

theorem accepted_iff : entry.Accepted ↔ ∃ statement, entry.parse = .ok statement := by
  constructor
  · rintro ⟨instruction, judged⟩
    exact ⟨⟨entry.line, instruction⟩, parse_eq_ok_iff.mpr ⟨rfl, judged⟩⟩
  · rintro ⟨statement, parsed⟩
    exact ⟨statement.instruction, (parse_eq_ok_iff.mp parsed).2⟩

end Entry

/-- The lines that are not blank, the first of all lines with the given number. -/
def entriesFrom (first : Nat) (raws : List (List Char)) : List Entry :=
  ((raws.zipIdx first).map fun (raw, line) => ⟨line, Text.trim raw⟩).filter
    fun entry => entry.text ≠ []

theorem entriesFrom_cons (first : Nat) (raw : List Char) (raws : List (List Char)) :
    entriesFrom first (raw :: raws) =
      if Text.trim raw = [] then entriesFrom (first + 1) raws
      else ⟨first, Text.trim raw⟩ :: entriesFrom (first + 1) raws := by
  by_cases blank : Text.trim raw = [] <;> simp [entriesFrom, blank]

theorem statementsFrom_eq_mapM (line : Nat) (raws : List (List Char)) :
    statementsFrom line raws = (entriesFrom line raws).mapM Entry.parse := by
  induction raws generalizing line with
  | nil => rfl
  | cons raw raws inductionHypothesis =>
    rw [statementsFrom, entriesFrom_cons, inductionHypothesis]
    by_cases blank : Text.trim raw = []
    · simp only [if_pos blank]
    · simp only [if_neg blank, List.mapM_cons, Entry.parse]
      cases parseLine line (Text.trim raw) <;> rfl

/-- The lines of a source that are not blank, with their numbers counted from one. -/
def entries (source : String) : List Entry := entriesFrom 1 (lines source)

section Programs

variable {source : String}

theorem ofStatements?_eq_some_iff {statements : List Statement} {program : Program} :
    Program.ofStatements? statements = some program ↔ statements = program.statements.toList := by
  unfold Program.ofStatements?
  constructor
  · intro built
    split at built
    · cases built
      rfl
    · contradiction
  · rintro rfl
    exact dif_pos program.nonempty

theorem ofStatements?_eq_none_iff {statements : List Statement} :
    Program.ofStatements? statements = none ↔ statements = [] := by
  unfold Program.ofStatements?
  cases statements <;> simp

theorem parse_of_statements {statements : List Statement}
    (read : statementsFrom 1 (lines source) = .ok statements) :
    parse source = (Program.ofStatements? statements).elim (.error .emptyProgram) .ok := by
  rw [parse, read]
  cases built : Program.ofStatements? statements <;>
    simp [bind, Except.bind, built, pure, Except.pure, throw, throwThe, MonadExceptOf.throw]

theorem parse_eq_ok_iff {program : Program} :
    parse source = .ok program ↔
      List.Forall₂ Entry.Reads (entries source) program.statements.toList := by
  have reads : List.Forall₂ Entry.Reads (entries source) program.statements.toList ↔
      statementsFrom 1 (lines source) = .ok program.statements.toList := by
    simp only [entries, statementsFrom_eq_mapM, Traversal.mapM_eq_ok_iff, Entry.parse_eq_ok_iff]
  rw [reads]
  cases read : statementsFrom 1 (lines source) with
  | error error => simp [parse, read, bind, Except.bind]
  | ok statements =>
    rw [parse_of_statements read, Except.ok.injEq, ← ofStatements?_eq_some_iff]
    cases Program.ofStatements? statements <;> simp

theorem parse_eq_error_iff {error : SourceError} :
    parse source = .error error ↔
      entries source = [] ∧ error = .emptyProgram ∨
      ∃ before entry after, entries source = before ++ entry :: after ∧
        (∀ earlier ∈ before, earlier.Accepted) ∧
        Judged entry.line entry.text (.error error) := by
  have blank : entries source = [] ↔ statementsFrom 1 (lines source) = .ok [] := by
    rw [entries, statementsFrom_eq_mapM, Traversal.mapM_eq_ok_iff, List.forall₂_nil_right_iff]
  have first : (∃ before entry after, entries source = before ++ entry :: after ∧
      (∀ earlier ∈ before, earlier.Accepted) ∧ Judged entry.line entry.text (.error error)) ↔
      statementsFrom 1 (lines source) = .error error := by
    simp only [entries, statementsFrom_eq_mapM, Traversal.mapM_eq_error_iff,
      Entry.parse_eq_error_iff, Entry.accepted_iff]
  rw [blank, first]
  cases read : statementsFrom 1 (lines source) with
  | error other => simp [parse, read, bind, Except.bind]
  | ok statements =>
    rw [parse_of_statements read, Except.ok.injEq, ← ofStatements?_eq_none_iff]
    cases Program.ofStatements? statements <;> simp [eq_comm]

theorem exists_parse_eq_ok_iff :
    (∃ program, parse source = .ok program) ↔
      entries source ≠ [] ∧ ∀ entry ∈ entries source, entry.Accepted := by
  constructor
  · rintro ⟨program, parsed⟩
    have reads := parse_eq_ok_iff.mp parsed
    refine ⟨?_, ?_⟩
    · intro blank
      rw [blank, List.forall₂_nil_left_iff] at reads
      have nonempty := program.nonempty
      rw [← Array.length_toList, reads] at nonempty
      contradiction
    · have accepted := reads.imp fun entry statement reads =>
        (⟨⟨statement.instruction, reads.2⟩, reads⟩ : entry.Accepted ∧ entry.Reads statement)
      exact ((List.forall₂_and_left _ _).mp accepted).1
  · rintro ⟨written, accepted⟩
    cases parsed : parse source with
    | ok program => exact ⟨program, rfl⟩
    | error error =>
      rcases parse_eq_error_iff.mp parsed with ⟨blank, _⟩ | ⟨before, entry, after, split, _, judged⟩
      · contradiction
      · have member : entry ∈ entries source := by simp [split]
        obtain ⟨instruction, other⟩ := accepted entry member
        cases judged.parseLine_eq.symm.trans other.parseLine_eq

end Programs

/-- The grammar is what the reader accepts. A line gets the verdict of the grammar. A source
is cut at newline characters and its lines are trimmed; it is a program exactly if some line
is not blank and each such line is accepted, and then the statements are those of these
lines in order, with their numbers. Otherwise the error is that of the first line that is
neither blank nor accepted, or there are none but blank lines. -/
theorem parse_follows_grammar :
    (∀ line text result, parseLine line text = result ↔ Judged line text result) ∧
    (∀ source raws, lines source = raws ↔ Cut source raws) ∧
    (∀ raw core, Text.trim raw = core ↔ Text.Trimmed raw core) ∧
    ∀ source,
      ((∃ program, parse source = .ok program) ↔
        entries source ≠ [] ∧ ∀ entry ∈ entries source, entry.Accepted) ∧
      (∀ program, parse source = .ok program ↔
        List.Forall₂ Entry.Reads (entries source) program.statements.toList) ∧
      ∀ error, parse source = .error error ↔
        entries source = [] ∧ error = .emptyProgram ∨
        ∃ before entry after, entries source = before ++ entry :: after ∧
          (∀ earlier ∈ before, earlier.Accepted) ∧
          Judged entry.line entry.text (.error error) := by
  refine ⟨fun _ _ _ => parseLine_eq_iff, fun _ _ => lines_eq_iff, fun _ _ => Text.trim_eq_iff, ?_⟩
  intro source
  exact ⟨exists_parse_eq_ok_iff, fun _ => parse_eq_ok_iff, fun _ => parse_eq_error_iff⟩

example : parse "\n\t LD M00a\u00a0\r\n \n\u3000OUT\t  M1\nEND M0001" =
    .ok ⟨#[⟨2, ⟨.load false, some 10⟩⟩, ⟨4, ⟨.out, some 1⟩⟩, ⟨5, ⟨.finish, some 1⟩⟩],
      by decide⟩ := by
  decide +kernel

example : parse "LD M0\n\nNOP X0\nld" = .error (.unknownOpcode 3 "NOP") := by
  decide +kernel

end RelayLadder.Source
