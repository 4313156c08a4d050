import RelayLadder.Proofs.Numeral.Digits
import RelayLadder.Proofs.Source.Numbering

/-!
Written programs are read back. The text of an instruction is a line of the grammar, and
a source that has the texts of a program on the lines of its statements, and is blank
elsewhere, is that program.
-/

namespace RelayLadder

/-- The operand, if there is one, is an address of a word. -/
def Instruction.Fits (instruction : Instruction) : Prop :=
  ∀ address ∈ instruction.operand, address < 2 ^ 64

namespace Source

section Text

variable {text : List Char} {raw : RawLine} {c : Char}

theorem isBlank_of_capital (capital : IsCapital c) : Text.isBlank c = false := by
  have above : 'A'.toNat ≤ c.toNat := capital.1
  have below : c.toNat ≤ 'Z'.toNat := capital.2
  exact Text.isBlank_of_visible (Nat.le_trans (by decide) above) (Nat.le_trans below (by decide))

theorem isBlank_of_hexadecimal (digit : Numeral.IsHexadecimal c) : Text.isBlank c = false := by
  have within (low high : Char) (bounds : low ≤ c ∧ c ≤ high) (above : 0x21 ≤ low.toNat)
      (below : high.toNat ≤ 0x7E) : Text.isBlank c = false :=
    Text.isBlank_of_visible (Nat.le_trans above bounds.1) (Nat.le_trans bounds.2 below)
  rcases digit with decimal | upper | lower
  · exact within _ _ decimal (by decide) (by decide)
  · exact within _ _ upper (by decide) (by decide)
  · exact within _ _ lower (by decide) (by decide)

theorem Form.ne_nil (form : Form text raw) : text ≠ [] := by
  cases form with
  | bare named capitals => exact named
  | addressed named capitals written => simp [named]

theorem Form.newline_not_mem (form : Form text raw) : '\n' ∉ text := by
  have letter : ∀ name : List Char, (∀ c ∈ name, IsCapital c) → '\n' ∉ name := by
    intro name capitals member
    exact absurd (isBlank_of_capital (capitals _ member)) (by decide)
  cases form with
  | bare named capitals => exact letter _ capitals
  | addressed named capitals written =>
    obtain ⟨apart, blanks, capital, numbered, digits⟩ := written
    simp only [List.mem_append, List.mem_cons, not_or]
    refine ⟨letter _ capitals, ?_, ?_, ?_⟩
    · intro member
      exact absurd (blanks _ member) (by decide)
    · rintro rfl
      exact absurd (isBlank_of_capital capital) (by decide)
    · intro member
      exact absurd (isBlank_of_hexadecimal (digits _ member)) (by decide)

theorem Form.trimmed (form : Form text raw) : Text.Trimmed text text := by
  refine ⟨⟨[], [], by simp, by simp, by simp⟩, ?_, ?_⟩
  · -- The first character is the first of the mnemonic.
    intro c first
    cases form with
    | bare named capitals => exact isBlank_of_capital (capitals c (List.mem_of_mem_head? first))
    | addressed named capitals written =>
      rw [List.head?_append_of_ne_nil _ named] at first
      exact isBlank_of_capital (capitals c (List.mem_of_mem_head? first))
  · intro c last
    cases form with
    | bare named capitals => exact isBlank_of_capital (capitals c (List.mem_of_mem_getLast? last))
    | addressed named capitals written =>
      obtain ⟨apart, blanks, capital, numbered, digits⟩ := written
      rw [List.getLast?_append_of_ne_nil _ (by simp), List.getLast?_append_of_ne_nil _ (by simp),
        List.getLast?_cons_of_ne_nil numbered] at last
      exact isBlank_of_hexadecimal (digits c (List.mem_of_mem_getLast? last))

end Text

section Instructions

theorem mnemonic_ne_nil (opcode : Opcode) : opcode.mnemonic.toList ≠ [] := by
  have named : ∀ known ∈ Opcode.all, known.mnemonic.toList ≠ [] := by decide +kernel
  exact named opcode opcode.mem_all

theorem capital_mem_mnemonic (opcode : Opcode) : ∀ c ∈ opcode.mnemonic.toList, IsCapital c := by
  have upper : ∀ known ∈ Opcode.all, known.mnemonic.toList.all Char.isUpper = true := by
    decide +kernel
  intro c member
  apply isUpper_iff.mp
  exact List.all_eq_true.mp (upper opcode opcode.mem_all) c member

/-- The digits that are written for an address. -/
def addressDigits (address : Nat) : List Char :=
  (Numeral.digits .hexadecimal address).leftpad 3 '0'

theorem value_addressDigits (address : Nat) :
    Numeral.value .hexadecimal (addressDigits address) = address :=
  (Numeral.value_leftpad _ _ _).trans (Numeral.value_digits _ _)

theorem toList_cellLabel (address : Nat) :
    (cellLabel address).toList = 'M' :: addressDigits address := by
  simp [cellLabel, hexadecimal, bankLetter, addressDigits]

theorem operand_cellLabel (address : Nat) :
    Operand (' ' :: (cellLabel address).toList) ('M', addressDigits address) := by
  rw [toList_cellLabel, ← List.singleton_append]
  apply Operand.of (by simp) (by simp) ⟨by decide, by decide⟩
  · exact Numeral.leftpad_digits_ne_nil _ _ _ _
  · exact Numeral.isHexadecimal_mem_leftpad 3 address

variable {instruction : Instruction}

theorem form_text (instruction : Instruction) :
    Form instruction.text.toList ⟨instruction.opcode.mnemonic.toList,
      instruction.operand.map fun address => ('M', addressDigits address)⟩ := by
  have named := mnemonic_ne_nil instruction.opcode
  have capitals := capital_mem_mnemonic instruction.opcode
  rcases instruction with ⟨opcode, _ | address⟩
  · exact .bare named capitals
  · have parts : (Instruction.text ⟨opcode, some address⟩).toList =
        opcode.mnemonic.toList ++ ' ' :: (cellLabel address).toList := by
      simp [Instruction.text]
    rw [parts]
    exact .addressed named capitals (operand_cellLabel address)

/-- The grammar reads the text of an instruction as that instruction. -/
theorem judged_text (fits : instruction.Fits) (line : Nat) :
    Judged line instruction.text.toList (.ok instruction) := by
  have form := form_text instruction
  rcases instruction with ⟨opcode, _ | address⟩
  · exact .bare form
  · have value := value_addressDigits address
    have small : Numeral.value .hexadecimal (addressDigits address) < 2 ^ 64 := by
      simpa [value] using fits address rfl
    have judged : Judged line _ (.ok ⟨opcode, some _⟩) := .addressed form small
    simpa only [value] using judged

theorem Judged.fits {line : Nat} {text : List Char}
    (judged : Judged line text (.ok instruction)) : instruction.Fits := by
  cases judged with
  | bare form => simp [Instruction.Fits]
  | addressed form small => simpa [Instruction.Fits] using small

end Instructions

/-- The lines of a source with their numbers, counted from one. -/
def numbered (source : String) : List (List Char × Nat) := (lines source).zipIdx 1

/-- Numbered lines that have each statement on its line and are blank elsewhere. -/
structure LaidOut (numbered : List (List Char × Nat)) (statements : List Statement) : Prop where
  written : ∀ statement ∈ statements,
    (statement.instruction.text.toList, statement.line) ∈ numbered
  blank : ∀ raw line, (raw, line) ∈ numbered →
    (∀ statement ∈ statements, statement.line ≠ line) → Text.trim raw = []

section Layout

variable {first : Nat} {raw : List Char} {raws : List (List Char)}
  {statements rest : List Statement}

/-- Below the first line stand the statements that are not on it. -/
theorem LaidOut.below (laidOut : LaidOut ((raw :: raws).zipIdx first) statements)
    (others : ∀ statement, statement ∈ rest ↔ statement ∈ statements ∧ statement.line ≠ first) :
    LaidOut (raws.zipIdx (first + 1)) rest where
  written := by
    intro statement member
    obtain ⟨listed, elsewhere⟩ := (others statement).mp member
    have line := laidOut.written statement listed
    rw [List.zipIdx_cons, List.mem_cons] at line
    rcases line with here | further
    · exact absurd (Prod.mk.inj here).2 elsewhere
    · exact further
  blank := by
    intro other line listed unused
    apply laidOut.blank other line (by simp [List.zipIdx_cons, listed])
    intro statement member
    by_cases here : statement.line = first
    · have bound : first + 1 ≤ line := List.le_snd_of_mem_zipIdx listed
      omega
    · exact unused statement ((others statement).mpr ⟨member, here⟩)

theorem LaidOut.le_line (laidOut : LaidOut (raws.zipIdx first) statements)
    {statement : Statement} (member : statement ∈ statements) : first ≤ statement.line :=
  List.le_snd_of_mem_zipIdx (laidOut.written statement member)

/-- A statement on the first line is the first statement, and its text is that line. -/
theorem LaidOut.head (laidOut : LaidOut ((raw :: raws).zipIdx first) statements)
    (ordered : statements.Pairwise fun left right => left.line < right.line)
    {statement : Statement} (member : statement ∈ statements) (here : statement.line = first) :
    ∃ rest, statements = statement :: rest ∧ raw = statement.instruction.text.toList ∧
      ∀ other ∈ rest, other.line ≠ first := by
  obtain ⟨head, rest, rfl⟩ := List.exists_cons_of_ne_nil (List.ne_nil_of_mem member)
  obtain ⟨later, -⟩ := List.pairwise_cons.mp ordered
  have foremost : first ≤ head.line := laidOut.le_line List.mem_cons_self
  have same : statement = head := by
    rcases List.mem_cons.mp member with same | further
    · exact same
    · have after := later statement further
      omega
  subst same
  refine ⟨rest, rfl, ?_, ?_⟩
  · have line := laidOut.written statement List.mem_cons_self
    rw [List.zipIdx_cons, List.mem_cons] at line
    rcases line with found | further
    · exact (Prod.mk.inj found).1.symm
    · have after : first + 1 ≤ statement.line := List.le_snd_of_mem_zipIdx further
      omega
  · intro other further
    have after := later other further
    omega

/-- The entries of laid out lines are the statements, one for one. -/
theorem reads_of_laidOut (laidOut : LaidOut (raws.zipIdx first) statements)
    (ordered : statements.Pairwise fun left right => left.line < right.line)
    (fits : ∀ statement ∈ statements, statement.instruction.Fits) :
    List.Forall₂ Entry.Reads (entriesFrom first raws) statements := by
  induction raws generalizing first statements with
  | nil =>
    have none : statements = [] := by
      apply List.eq_nil_iff_forall_not_mem.mpr
      intro statement member
      exact absurd (laidOut.written statement member) (by simp)
    simp [none, entriesFrom]
  | cons raw raws inductionHypothesis =>
    rw [entriesFrom_cons]
    by_cases here : ∃ statement ∈ statements, statement.line = first
    · obtain ⟨statement, member, line⟩ := here
      obtain ⟨rest, rfl, rfl, elsewhere⟩ := laidOut.head ordered member line
      obtain ⟨fitting, othersFit⟩ := List.forall_mem_cons.mp fits
      have form := form_text statement.instruction
      have text := form.trimmed.trim_eq
      rw [text, if_neg form.ne_nil]
      apply List.Forall₂.cons ⟨line, judged_text fitting first⟩
      apply inductionHypothesis (laidOut.below ?_) ordered.of_cons othersFit
      intro other
      constructor
      · intro further
        exact ⟨List.mem_cons_of_mem statement further, elsewhere other further⟩
      · rintro ⟨listed, different⟩
        rcases List.mem_cons.mp listed with rfl | further
        · exact absurd line different
        · exact further
    · have blank : Text.trim raw = [] := by
        apply laidOut.blank raw first (by simp [List.zipIdx_cons])
        intro statement member line
        exact here ⟨statement, member, line⟩
      rw [if_pos blank]
      apply inductionHypothesis (laidOut.below ?_) ordered fits
      intro statement
      constructor
      · intro member
        exact ⟨member, fun line => here ⟨statement, member, line⟩⟩
      · exact And.left

/-- Lines that have each statement on its line, with empty lines between them. -/
def layoutFrom (first : Nat) : List Statement → List (List Char)
  | [] => []
  | statement :: rest =>
    List.replicate (statement.line - first) [] ++
      statement.instruction.text.toList :: layoutFrom (statement.line + 1) rest

theorem newline_not_mem_layoutFrom (first : Nat) (statements : List Statement) :
    ∀ raw ∈ layoutFrom first statements, '\n' ∉ raw := by
  induction statements generalizing first with
  | nil => simp [layoutFrom]
  | cons statement rest inductionHypothesis =>
    intro raw member
    rw [layoutFrom, List.mem_append, List.mem_cons] at member
    rcases member with empty | rfl | further
    · simp [List.eq_of_mem_replicate empty]
    · exact (form_text statement.instruction).newline_not_mem
    · exact inductionHypothesis _ raw further

theorem laidOut_layoutFrom (after : ∀ statement ∈ statements, first ≤ statement.line)
    (ordered : statements.Pairwise fun left right => left.line < right.line) :
    LaidOut ((layoutFrom first statements).zipIdx first) statements := by
  induction statements generalizing first with
  | nil => exact ⟨by simp, by simp [layoutFrom]⟩
  | cons statement rest inductionHypothesis =>
    obtain ⟨later, othersOrdered⟩ := List.pairwise_cons.mp ordered
    have below := inductionHypothesis later othersOrdered
    have line : first + (statement.line - first) = statement.line :=
      Nat.add_sub_cancel' (after statement List.mem_cons_self)
    rw [layoutFrom, List.zipIdx_append, List.length_replicate, line, List.zipIdx_cons]
    constructor
    · intro other member
      rcases List.mem_cons.mp member with rfl | further
      · simp
      · have found := below.written other further
        simp [found]
    · intro raw number listed unused
      obtain ⟨-, othersUnused⟩ := List.forall_mem_cons.mp unused
      rw [List.mem_append, List.mem_cons] at listed
      rcases listed with empty | here | further
      · have nothing : raw = [] := List.eq_of_mem_replicate (List.fst_mem_of_mem_zipIdx empty)
        simp [nothing, Text.trim]
      · exact absurd (Prod.mk.inj here).2.symm (unused statement List.mem_cons_self)
      · exact below.blank raw number further othersUnused

end Layout

/-- The shortest source with each statement of a program on its line. -/
def layout (program : Program) : String :=
  String.ofList (['\n'].intercalate (layoutFrom 1 program.statements.toList))

section Programs

variable {program : Program} {source : String}

theorem numbered_eq_of_cut {raws : List (List Char)} (cut : Cut source raws) :
    numbered source = raws.zipIdx 1 := by
  simp only [numbered, lines_eq_iff.mpr cut]

theorem cut_layout (program : Program) :
    Cut (layout program) (layoutFrom 1 program.statements.toList) where
  nonempty := by
    obtain ⟨statement, rest, statements⟩ : ∃ statement rest,
        program.statements.toList = statement :: rest := by
      apply List.exists_cons_of_length_pos
      simpa using program.nonempty
    simp [statements, layoutFrom]
  uncut := newline_not_mem_layoutFrom 1 _
  joined := by simp [layout]

theorem parse_of_laidOut (laidOut : LaidOut (numbered source) program.statements.toList)
    (ordered : program.statements.toList.Pairwise fun left right => left.line < right.line)
    (fits : ∀ statement ∈ program.statements.toList, statement.instruction.Fits) :
    parse source = .ok program := by
  apply parse_eq_ok_iff.mpr
  exact reads_of_laidOut laidOut ordered fits

theorem laidOut_layout (below : ∀ statement ∈ program.statements.toList, 1 ≤ statement.line)
    (ordered : program.statements.toList.Pairwise fun left right => left.line < right.line) :
    LaidOut (numbered (layout program)) program.statements.toList := by
  rw [numbered_eq_of_cut (cut_layout program)]
  exact laidOut_layoutFrom below ordered

end Programs

section Reading

variable {entries : List Entry} {statements : List Statement} {program : Program} {source : String}

theorem lines_of_reads (reads : List.Forall₂ Entry.Reads entries statements) :
    statements.map Statement.line = entries.map Entry.line := by
  induction reads with
  | nil => rfl
  | cons read others inductionHypothesis => simp [read.1, inductionHypothesis]

theorem fits_of_reads (reads : List.Forall₂ Entry.Reads entries statements) :
    ∀ statement ∈ statements, statement.instruction.Fits := by
  induction reads with
  | nil => simp
  | cons read others inductionHypothesis =>
    exact List.forall_mem_cons.mpr ⟨read.2.fits, inductionHypothesis⟩

theorem ordered_of_parse (parsed : parse source = .ok program) :
    program.statements.toList.Pairwise fun left right => left.line < right.line := by
  apply List.pairwise_map.mp
  rw [lines_of_reads (parse_eq_ok_iff.mp parsed)]
  exact List.pairwise_map.mpr (entriesFrom_increase 1 _)

theorem one_le_line_of_parse (parsed : parse source = .ok program) :
    ∀ statement ∈ program.statements.toList, 1 ≤ statement.line := by
  intro statement member
  have line : statement.line ∈ program.statements.toList.map Statement.line :=
    List.mem_map_of_mem member
  rw [lines_of_reads (parse_eq_ok_iff.mp parsed)] at line
  obtain ⟨entry, listed, number⟩ := List.mem_map.mp line
  obtain ⟨raw, found, -, -⟩ := mem_entriesFrom_iff.mp listed
  rw [← number]
  exact List.le_snd_of_mem_zipIdx found

end Reading

section Consecutive

/-- The statements of instructions one to a line, below a number of lines. -/
def consecutive (above : Nat) (instructions : List Instruction) : List Statement :=
  (instructions.zipIdx above).map fun (instruction, index) => ⟨index + 1, instruction⟩

theorem consecutive_cons (above : Nat) (instruction : Instruction)
    (instructions : List Instruction) :
    consecutive above (instruction :: instructions) =
      ⟨above + 1, instruction⟩ :: consecutive (above + 1) instructions := by
  simp [consecutive, List.zipIdx_cons]

variable {above : Nat} {instructions : List Instruction}

theorem mem_consecutive {statement : Statement}
    (member : statement ∈ consecutive above instructions) :
    above < statement.line ∧ statement.instruction ∈ instructions := by
  obtain ⟨⟨instruction, index⟩, listed, rfl⟩ := List.mem_map.mp member
  have bound : above ≤ index := List.le_snd_of_mem_zipIdx listed
  exact ⟨Nat.lt_succ_of_le bound, List.fst_mem_of_mem_zipIdx listed⟩

theorem consecutive_increase (above : Nat) (instructions : List Instruction) :
    (consecutive above instructions).Pairwise fun left right => left.line < right.line := by
  induction instructions generalizing above with
  | nil => simp [consecutive]
  | cons instruction instructions inductionHypothesis =>
    rw [consecutive_cons]
    apply List.Pairwise.cons ?_ (inductionHypothesis (above + 1))
    intro later member
    exact (mem_consecutive member).1

theorem layoutFrom_consecutive (above : Nat) (instructions : List Instruction) :
    layoutFrom (above + 1) (consecutive above instructions) =
      instructions.map fun instruction => instruction.text.toList := by
  induction instructions generalizing above with
  | nil => simp [consecutive, layoutFrom]
  | cons instruction instructions inductionHypothesis =>
    simp [consecutive_cons, layoutFrom, inductionHypothesis]

/-- Instructions one to a line are read as the program of these instructions. -/
theorem parse_joined (nonempty : instructions ≠ [])
    (fits : ∀ instruction ∈ instructions, instruction.Fits) :
    ∃ program, Program.ofInstructions? instructions = some program ∧
      parse ("\n".intercalate (instructions.map Instruction.text)) = .ok program := by
  cases built : Program.ofInstructions? instructions with
  | none =>
    have none := ofStatements?_eq_none_iff.mp built
    simp [nonempty] at none
  | some program =>
    have statements : consecutive 0 instructions = program.statements.toList :=
      ofStatements?_eq_some_iff.mp built
    have joined : "\n".intercalate (instructions.map Instruction.text) = layout program := by
      apply String.toList_injective
      simp [layout, ← statements, layoutFrom_consecutive, String.toList_intercalate,
        Function.comp_def]
    refine ⟨program, rfl, ?_⟩
    have ordered := consecutive_increase 0 instructions
    rw [statements] at ordered
    rw [joined]
    apply parse_of_laidOut (laidOut_layout ?_ ordered) ordered
    · intro statement member
      exact fits _ (mem_consecutive (statements ▸ member)).2
    · intro statement member
      exact (mem_consecutive (statements ▸ member)).1

end Consecutive

/-- Writing and reading are inverse. An instruction is read from its text, whatever the
number of the line; instructions one to a line are read as their program; and of every
program that was read from a source the statements stand on lines with growing numbers,
from which they are read again if each is written on its line and the others are blank. -/
theorem parse_inverts_text :
    (∀ instruction : Instruction, instruction.Fits →
      ∀ line, parseLine line instruction.text.toList = .ok instruction) ∧
    (∀ instructions : List Instruction, instructions ≠ [] →
      (∀ instruction ∈ instructions, instruction.Fits) →
      ∃ program, Program.ofInstructions? instructions = some program ∧
        parse ("\n".intercalate (instructions.map Instruction.text)) = .ok program) ∧
    ∀ source program, parse source = .ok program →
      let numbers := program.statements.toList.map Statement.line
      numbers.Pairwise (· < ·) ∧ (∀ number ∈ numbers, 1 ≤ number) ∧
        numbers.length = program.size ∧
        LaidOut (numbered (layout program)) program.statements.toList ∧
        ∀ text, LaidOut (numbered text) program.statements.toList → parse text = .ok program := by
  refine ⟨?instruction, fun _ => parse_joined, ?source⟩
  case instruction =>
    intro instruction fits line
    exact (judged_text fits line).parseLine_eq
  case source =>
    intro source program parsed numbers
    have ordered := ordered_of_parse parsed
    have below := one_le_line_of_parse parsed
    have fits := fits_of_reads (parse_eq_ok_iff.mp parsed)
    refine ⟨List.pairwise_map.mpr ordered, ?_, ?_, laidOut_layout below ordered, ?_⟩
    · intro number member
      obtain ⟨statement, listed, rfl⟩ := List.mem_map.mp member
      exact below statement listed
    · simp [numbers, Program.size]
    · intro text laidOut
      exact parse_of_laidOut laidOut ordered fits

/-- A source with blank lines, loose spacing and an operand that its opcode does not want. -/
theorem parse_inverts_text_of_sparse_source :
    let program : Program :=
      ⟨#[⟨2, ⟨.load true, some 10⟩⟩, ⟨5, ⟨.finish, some 0xFFFFFFFFFFFFFFFF⟩⟩], by decide⟩
    parse "\n\tLDNOT  M0a \n \n\nEND M00FFFFFFFFFFFFFFFF" = .ok program ∧
      layout program = "\nLDNOT M00A\n\n\nEND MFFFFFFFFFFFFFFFF" ∧
      parse (layout program) = .ok program ∧
      (∀ line, parseLine line "LDNOT M00A".toList = .ok ⟨.load true, some 10⟩) ∧
      ∃ other, Program.ofInstructions? [⟨.load true, some 10⟩, ⟨.out, none⟩] = some other ∧
        parse "LDNOT M00A\nOUT" = .ok other := by
  intro program
  obtain ⟨one, several, whole⟩ := parse_inverts_text
  have parsed : parse "\n\tLDNOT  M0a \n \n\nEND M00FFFFFFFFFFFFFFFF" = .ok program := by
    decide +kernel
  obtain ⟨-, -, -, laidOut, again⟩ := whole _ _ parsed
  have text : Instruction.text ⟨.load true, some 10⟩ = "LDNOT M00A" := by decide +kernel
  refine ⟨parsed, by decide +kernel, again _ laidOut, ?_, ?_⟩
  · intro line
    rw [← text]
    exact one _ (by simp [Instruction.Fits]) line
  · have joined : "\n".intercalate (List.map Instruction.text
        [⟨.load true, some 10⟩, ⟨.out, none⟩]) = "LDNOT M00A\nOUT" := by decide +kernel
    rw [← joined]
    exact several _ (by simp) (by simp [Instruction.Fits])

end Source

end RelayLadder
