import RelayLadder.Proofs.Source.RoundTrip
import RelayLadder.Proofs.Text.Lines

/-!
Listings of programs. A line of a listing is cut at its first colon into the number of a
source line and the text of an instruction, and both can be read back, so that a listing is
the listing of one program only.
-/

namespace RelayLadder

namespace Instruction

/-- Instructions are told apart by their texts, also those whose operand fits no word. -/
theorem text_injective : Function.Injective text := by
  intro left right same
  have leftForm := Source.form_text left
  have rightForm := Source.form_text right
  rw [same] at leftForm
  have parts := leftForm.readRaw?_eq.symm.trans rightForm.readRaw?_eq
  obtain ⟨name, operand⟩ := Source.RawLine.mk.inj (Option.some.inj parts)
  have opcode := Opcode.mnemonic_injective (String.toList_injective name)
  have labels : Function.Injective fun address => ('M', Source.addressDigits address) := by
    intro first second digits
    have value := congrArg (Numeral.value .hexadecimal) (Prod.mk.inj digits).2
    rwa [Source.value_addressDigits, Source.value_addressDigits] at value
  rcases left with ⟨leftOpcode, leftOperand⟩
  rcases right with ⟨rightOpcode, rightOperand⟩
  exact congrArg₂ mk opcode (Option.map_injective labels operand)

end Instruction

namespace Listing

/-- The line of a statement without its newline: the number of the source line, moved to the
right in a column of four characters, and the instruction after a colon and a space. -/
def line (statement : Statement) : List Char :=
  List.replicate (4 - (decimal statement.line).length) ' ' ++ (decimal statement.line).toList ++
    ':' :: ' ' :: statement.instruction.text.toList

/-- What stands before the first colon of a line, without the blanks around it. -/
def numberText (line : List Char) : List Char := Text.trim (line.takeWhile (· ≠ ':'))

/-- What stands after the first colon of a line, without the blanks around it. -/
def instructionText (line : List Char) : List Char :=
  Text.trim ((line.dropWhile (· ≠ ':')).drop 1)

theorem toList_listing (program : Program) :
    program.listing.toList = (program.statements.toList.map line).flatMap (· ++ ['\n']) := by
  simp [Program.listing, Statement.text, line, decimal, List.leftpad, List.flatMap_map]

section Numbers

variable {c : Char} {n : Nat}

theorem decimal_injective : Function.Injective decimal := by
  intro first second same
  have digits := congrArg (fun text => Numeral.value .decimal text.toList) same
  simpa [decimal, Numeral.value_digits] using digits

theorem isHexadecimal_of_mem_decimal (digit : c ∈ (decimal n).toList) :
    Numeral.IsHexadecimal c := by
  rw [decimal, String.toList_ofList] at digit
  apply Numeral.isHexadecimal_iff.mpr
  apply Nat.lt_trans (Numeral.place_mem_digits .decimal n c digit)
  decide

/-- A number that is moved to the right in its column has nothing but blanks around it. -/
theorem trim_spaces_decimal (spaces n : Nat) :
    Text.trim (List.replicate spaces ' ' ++ (decimal n).toList) = (decimal n).toList := by
  have visible : ∀ c ∈ (decimal n).toList, Text.isBlank c = false := by
    intro c digit
    exact Source.isBlank_of_hexadecimal (isHexadecimal_of_mem_decimal digit)
  apply Text.Trimmed.trim_eq
  refine ⟨⟨_, [], (List.append_nil _).symm, ?_, by simp⟩, ?_, ?_⟩
  · intro c padding
    rw [List.eq_of_mem_replicate padding]
    decide
  · intro c first
    exact visible c (List.mem_of_mem_head? first)
  · intro c last
    exact visible c (List.mem_of_mem_getLast? last)

theorem not_mem_spaces_decimal {spaces : Nat} (other : c ≠ ' ')
    (noDigit : ¬ Numeral.IsHexadecimal c) :
    c ∉ List.replicate spaces ' ' ++ (decimal n).toList := by
  intro member
  rcases List.mem_append.mp member with padding | digit
  · exact other (List.eq_of_mem_replicate padding)
  · exact noDigit (isHexadecimal_of_mem_decimal digit)

end Numbers

section Lines

variable (statement : Statement)

theorem newline_not_mem_line : '\n' ∉ line statement := by
  have instruction := (Source.form_text statement.instruction).newline_not_mem
  rw [line, List.mem_append]
  rintro (number | rest)
  · exact not_mem_spaces_decimal (by decide) (by decide) number
  · simp [instruction] at rest

/-- The first colon of a line is the one after the number. -/
theorem line_cut :
    (line statement).takeWhile (· ≠ ':') =
        List.replicate (4 - (decimal statement.line).length) ' ' ++
          (decimal statement.line).toList ∧
      (line statement).dropWhile (· ≠ ':') =
        ':' :: ' ' :: statement.instruction.text.toList := by
  have noColon : ∀ c ∈ List.replicate (4 - (decimal statement.line).length) ' ' ++
      (decimal statement.line).toList, decide (c ≠ ':') = true := by
    intro c member
    apply decide_eq_true
    rintro rfl
    exact not_mem_spaces_decimal (by decide) (by decide) member
  have stop : ∀ c ∈ (':' :: ' ' :: statement.instruction.text.toList).head?,
      decide (c ≠ ':') = false := by
    rintro c ⟨⟩
    rfl
  exact ⟨Text.takeWhile_run noColon stop, Text.dropWhile_run noColon stop⟩

theorem numberText_line : numberText (line statement) = (decimal statement.line).toList := by
  rw [numberText, (line_cut statement).1, trim_spaces_decimal]

theorem instructionText_line :
    instructionText (line statement) = statement.instruction.text.toList := by
  have trimmed := (Source.form_text statement.instruction).trimmed
  rw [instructionText, (line_cut statement).2, List.drop_one, List.tail_cons]
  apply Text.Trimmed.trim_eq
  refine ⟨⟨[' '], [], by simp, ?_, by simp⟩, trimmed.first, trimmed.last⟩
  intro c space
  rw [List.mem_singleton.mp space]
  decide

theorem line_injective : Function.Injective line := by
  intro left right same
  have number : decimal left.line = decimal right.line := by
    apply String.toList_injective
    rw [← numberText_line, ← numberText_line, same]
  have instruction : left.instruction.text = right.instruction.text := by
    apply String.toList_injective
    rw [← instructionText_line, ← instructionText_line, same]
  rcases left with ⟨leftLine, leftInstruction⟩
  rcases right with ⟨rightLine, rightInstruction⟩
  exact congrArg₂ Statement.mk (decimal_injective number)
    (Instruction.text_injective instruction)

end Lines

theorem newline_not_mem_lines (program : Program) :
    ∀ raw ∈ program.statements.toList.map line, '\n' ∉ raw := by
  intro raw member
  obtain ⟨statement, -, rfl⟩ := List.mem_map.mp member
  exact newline_not_mem_line statement

theorem listing_injective : Function.Injective Program.listing := by
  intro left right same
  have lines : left.statements.toList.map line = right.statements.toList.map line := by
    apply Text.eq_of_newlines (newline_not_mem_lines left) (newline_not_mem_lines right)
    rw [← toList_listing, ← toList_listing, same]
  have statements := List.map_injective_iff.mpr line_injective lines
  exact Program.ext (Array.toList_inj.mp statements)

end Listing

/-- A listing determines its program, whichever way the program was made. It has a line for
each statement, with the number of the source line to the right of four columns or more.
Cut at its first colon and trimmed, a line gives this number in decimal digits and a text
from which the instruction is read again, if its operand fits a word. -/
theorem listing_determines_program :
    (∀ left right : Program, left.listing = right.listing → left = right) ∧
    ∀ program : Program, ∃ lines : List (List Char),
      program.listing.toList = lines.flatMap (· ++ ['\n']) ∧ (∀ line ∈ lines, '\n' ∉ line) ∧
      List.Forall₂ (fun (statement : Statement) line =>
        line = Listing.line statement ∧
        Listing.numberText line = (decimal statement.line).toList ∧
        (statement.instruction.Fits → ∀ number,
          Source.parseLine number (Listing.instructionText line) = .ok statement.instruction))
        program.statements.toList lines := by
  refine ⟨fun _ _ same => Listing.listing_injective same, ?_⟩
  intro program
  refine ⟨_, Listing.toList_listing program, Listing.newline_not_mem_lines program, ?_⟩
  rw [List.forall₂_map_right_iff, List.forall₂_same]
  intro statement _
  refine ⟨rfl, Listing.numberText_line statement, ?_⟩
  intro fits number
  rw [Listing.instructionText_line]
  exact (Source.judged_text fits number).parseLine_eq

/-- A number that is wider than its column, before the largest operand. -/
theorem listing_determines_program_below_wide_number :
    let program : Program := ⟨#[⟨7, ⟨.load true, some 10⟩⟩,
      ⟨12345, ⟨.finish, some 0xFFFFFFFFFFFFFFFF⟩⟩], by decide⟩
    let text := "   7: LDNOT M00A\n12345: END MFFFFFFFFFFFFFFFF\n"
    let line := "12345: END MFFFFFFFFFFFFFFFF".toList
    (∀ other : Program, other.listing = text ↔ other = program) ∧
      Listing.numberText line = "12345".toList ∧
      ∀ number, Source.parseLine number (Listing.instructionText line) =
        .ok ⟨.finish, some 0xFFFFFFFFFFFFFFFF⟩ := by
  intro program text line
  obtain ⟨determines, cut⟩ := listing_determines_program
  have listed : program.listing = text := by decide +kernel
  refine ⟨?_, ?_⟩
  · intro other
    constructor
    · intro same
      exact determines other program (same.trans listed.symm)
    · rintro rfl
      exact listed
  · obtain ⟨lines, -, -, read⟩ := cut program
    rcases read with _ | ⟨-, _ | ⟨⟨rfl, number, instruction⟩, -⟩⟩
    have written : Listing.line ⟨12345, ⟨.finish, some 0xFFFFFFFFFFFFFFFF⟩⟩ = line := by
      decide +kernel
    have digits : decimal 12345 = "12345" := by decide +kernel
    rw [written] at number instruction
    rw [digits] at number
    exact ⟨number, instruction (by simp [Instruction.Fits])⟩

end RelayLadder
