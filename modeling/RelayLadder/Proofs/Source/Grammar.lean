import RelayLadder.Proofs.Numeral.Value
import RelayLadder.Proofs.Text.Trim
import RelayLadder.Source.Line

/-!
The grammar of one line, and the reader of lines against it. The verdict on a line is a
relation of its own: form first, then mnemonic, bank and address.
-/

namespace RelayLadder.Source

def IsCapital (c : Char) : Prop := 'A' ≤ c ∧ c ≤ 'Z'

/-- An operand with the gap in front of it: spaces and tabs, the letter of a bank, and
hexadecimal digits. -/
inductive Operand : List Char → Char × List Char → Prop where
  | of {gap digits : List Char} {letter : Char}
      (apart : gap ≠ []) (blanks : ∀ c ∈ gap, c = ' ' ∨ c = '\t') (capital : IsCapital letter)
      (numbered : digits ≠ []) (hexadecimal : ∀ c ∈ digits, Numeral.IsHexadecimal c) :
      Operand (gap ++ letter :: digits) (letter, digits)

/-- Lines that have the form of an instruction, with their parts. -/
inductive Form : List Char → RawLine → Prop where
  | bare {name : List Char} (named : name ≠ []) (capitals : ∀ c ∈ name, IsCapital c) :
      Form name ⟨name, none⟩
  | addressed {name rest : List Char} {operand : Char × List Char} (named : name ≠ [])
      (capitals : ∀ c ∈ name, IsCapital c) (written : Operand rest operand) :
      Form (name ++ rest) ⟨name, some operand⟩

/-- The verdict on the line with a number: an instruction, or the first fault in the order
form, mnemonic, bank, address. -/
inductive Judged (line : Nat) : List Char → Except SourceError Instruction → Prop where
  | malformed {text : List Char} (formless : ∀ raw, ¬ Form text raw) :
      Judged line text (.error (.malformed line))
  | unknownOpcode {text : List Char} {raw : RawLine} (form : Form text raw)
      (unlisted : ∀ opcode : Opcode, opcode.mnemonic ≠ String.ofList raw.name) :
      Judged line text (.error (.unknownOpcode line (String.ofList raw.name)))
  | unknownBank {text digits : List Char} {opcode : Opcode} {letter : Char}
      (form : Form text ⟨opcode.mnemonic.toList, some (letter, digits)⟩) (other : letter ≠ 'M') :
      Judged line text (.error (.unknownBank line letter))
  | addressOverflow {text digits : List Char} {opcode : Opcode}
      (form : Form text ⟨opcode.mnemonic.toList, some ('M', digits)⟩)
      (large : 2 ^ 64 ≤ Numeral.value .hexadecimal digits) :
      Judged line text (.error (.addressOverflow line))
  | bare {text : List Char} {opcode : Opcode}
      (form : Form text ⟨opcode.mnemonic.toList, none⟩) : Judged line text (.ok ⟨opcode, none⟩)
  | addressed {text digits : List Char} {opcode : Opcode}
      (form : Form text ⟨opcode.mnemonic.toList, some ('M', digits)⟩)
      (small : Numeral.value .hexadecimal digits < 2 ^ 64) :
      Judged line text (.ok ⟨opcode, some (Numeral.value .hexadecimal digits)⟩)

section Characters

variable {c : Char}

theorem isUpper_iff : c.isUpper = true ↔ IsCapital c :=
  decide_eq_true_iff

theorem isGap_iff : isGap c = true ↔ c = ' ' ∨ c = '\t' := by
  simp [isGap]

theorem isUpper_of_isGap (gap : isGap c = true) : c.isUpper = false := by
  rcases isGap_iff.mp gap with rfl | rfl <;> rfl

theorem isGap_of_isUpper (upper : c.isUpper = true) : isGap c = false := by
  cases gap : isGap c with
  | false => rfl
  | true => exact absurd upper (by simp [isUpper_of_isGap gap])

theorem all_isHexDigit_iff {digits : List Char} :
    digits.all isHexDigit = true ↔ ∀ c ∈ digits, Numeral.IsHexadecimal c := by
  simp only [List.all_eq_true, isHexDigit, Numeral.isSome_digitValue?]

end Characters

section Reading

variable {name text rest gap : List Char} {operand : Char × List Char} {raw : RawLine}

theorem readOperand?_of_gap (blanks : ∀ c ∈ gap, isGap c = true)
    (stop : ∀ c ∈ rest.head?, isGap c = false) :
    readOperand? (gap ++ rest) = some operand ↔
      gap ≠ [] ∧ rest = operand.1 :: operand.2 ∧
        operand.1.isUpper = true ∧ operand.2 ≠ [] ∧ operand.2.all isHexDigit = true := by
  rw [readOperand?, Text.takeWhile_run blanks stop, Text.dropWhile_run blanks stop]
  cases gap with
  | nil => simp
  | cons c gap =>
    cases rest with
    | nil => simp
    | cons letter digits =>
      obtain ⟨bank, address⟩ := operand
      simp only [Option.ite_none_right_eq_some, Option.some.injEq, Prod.mk.injEq, List.cons.injEq]
      grind

theorem readOperand?_eq_some_iff : readOperand? text = some operand ↔ Operand text operand := by
  constructor
  · intro found
    obtain ⟨gap, rest, rfl, blanks, stop⟩ := Text.exists_run isGap text
    obtain ⟨apart, rfl, upper, numbered, digital⟩ := (readOperand?_of_gap blanks stop).mp found
    apply Operand.of apart ?_ (isUpper_iff.mp upper) numbered (all_isHexDigit_iff.mp digital)
    intro c member
    exact isGap_iff.mp (blanks c member)
  · rintro ⟨apart, blanks, capital, numbered, hexadecimal⟩
    have upper := isUpper_iff.mpr capital
    refine (readOperand?_of_gap ?_ ?_).mpr
      ⟨apart, rfl, upper, numbered, all_isHexDigit_iff.mpr hexadecimal⟩
    · intro c member
      exact isGap_iff.mpr (blanks c member)
    · rintro c ⟨⟩
      exact isGap_of_isUpper upper

theorem Operand.head_isUpper (written : Operand rest operand) :
    ∀ c ∈ rest.head?, c.isUpper = false := by
  obtain ⟨apart, blanks, -, -, -⟩ := written
  obtain ⟨c, gap, rfl⟩ := List.exists_cons_of_ne_nil apart
  rintro _ ⟨⟩
  exact isUpper_of_isGap (isGap_iff.mpr (blanks c List.mem_cons_self))

theorem readRaw?_of_name (named : name ≠ []) (uppers : ∀ c ∈ name, c.isUpper = true)
    (stop : ∀ c ∈ rest.head?, c.isUpper = false) :
    readRaw? (name ++ rest) =
      if rest = [] then some ⟨name, none⟩
      else (readOperand? rest).map fun operand => ⟨name, some operand⟩ := by
  rw [readRaw?, Text.takeWhile_run uppers stop, Text.dropWhile_run uppers stop]
  obtain ⟨c, name, rfl⟩ := List.exists_cons_of_ne_nil named
  cases rest with
  | nil => rfl
  | cons d rest => rfl

theorem readRaw?_of_no_name (stop : ∀ c ∈ text.head?, c.isUpper = false) :
    readRaw? text = none := by
  have empty : ∀ c ∈ ([] : List Char), c.isUpper = true := by simp
  have none := Text.takeWhile_run empty stop
  rw [List.nil_append] at none
  simp only [readRaw?, none]

theorem Form.of_readRaw? (found : readRaw? text = some raw) : Form text raw := by
  obtain ⟨name, rest, rfl, uppers, stop⟩ := Text.exists_run Char.isUpper text
  have capitals : ∀ c ∈ name, IsCapital c := fun c member => isUpper_iff.mp (uppers c member)
  have named : name ≠ [] := by
    rintro rfl
    rw [List.nil_append, readRaw?_of_no_name stop] at found
    contradiction
  rw [readRaw?_of_name named uppers stop] at found
  split at found
  · rename_i ended
    cases found
    rw [ended, List.append_nil]
    exact .bare named capitals
  · obtain ⟨operand, read, rfl⟩ := Option.map_eq_some_iff.mp found
    exact .addressed named capitals (readOperand?_eq_some_iff.mp read)

theorem Form.readRaw?_eq (form : Form text raw) : readRaw? text = some raw := by
  cases form with
  | bare named capitals =>
    have uppers : ∀ c ∈ text, c.isUpper = true := by
      intro c member
      exact isUpper_iff.mpr (capitals c member)
    have stop : ∀ c ∈ ([] : List Char).head?, c.isUpper = false := by simp
    have read := readRaw?_of_name named uppers stop
    rwa [List.append_nil, if_pos rfl] at read
  | @addressed name rest operand named capitals written =>
    have uppers : ∀ c ∈ name, c.isUpper = true := by
      intro c member
      exact isUpper_iff.mpr (capitals c member)
    have more : rest ≠ [] := by
      cases written
      simp
    rw [readRaw?_of_name named uppers written.head_isUpper, if_neg more,
      readOperand?_eq_some_iff.mpr written]
    rfl

/-- Taking the longest runs misses no form: a gap begins with no capital letter, and the
letter of a bank is no gap. -/
theorem readRaw?_eq_some_iff : readRaw? text = some raw ↔ Form text raw :=
  ⟨Form.of_readRaw?, Form.readRaw?_eq⟩

theorem Form.hexadecimal {letter : Char} {digits : List Char}
    (form : Form text ⟨name, some (letter, digits)⟩) :
    digits ≠ [] ∧ ∀ c ∈ digits, Numeral.place c < Radix.hexadecimal.base := by
  obtain _ | ⟨-, -, ⟨-, -, -, numbered, hexadecimal⟩⟩ := form
  refine ⟨numbered, ?_⟩
  intro c member
  exact Numeral.isHexadecimal_iff.mp (hexadecimal c member)

end Reading

section Judgement

variable {line : Nat} {text : List Char} {opcode : Opcode}

theorem parseLine_of_mnemonic {operand : Option (Char × List Char)}
    (form : Form text ⟨opcode.mnemonic.toList, operand⟩) :
    parseLine line text =
      match operand with
      | none => .ok ⟨opcode, none⟩
      | some (letter, digits) =>
        if letter = 'M' then
          if Numeral.value .hexadecimal digits < 2 ^ 64 then
            .ok ⟨opcode, some (Numeral.value .hexadecimal digits)⟩
          else .error (.addressOverflow line)
        else .error (.unknownBank line letter) := by
  have listed : Opcode.ofMnemonic? opcode.mnemonic = some opcode :=
    Opcode.ofMnemonic?_eq_some_iff.mpr rfl
  simp only [parseLine, form.readRaw?_eq, String.ofList_toList, listed]
  cases operand with
  | none => rfl
  | some operand =>
    obtain ⟨letter, digits⟩ := operand
    obtain ⟨numbered, valid⟩ := form.hexadecimal
    have bank : namesBank letter = true ↔ letter = 'M' := beq_iff_eq
    have limit : wordLimit = 2 ^ 64 := rfl
    simp only [bank, limit, Numeral.read_eq numbered valid (Nat.two_pow_pos 64)]
    by_cases small : Numeral.value .hexadecimal digits < 2 ^ 64
    · simp only [if_pos small]
    · simp only [if_neg small]

/-- Every line has a verdict. -/
theorem Judged.exists (line : Nat) (text : List Char) : ∃ result, Judged line text result := by
  by_cases formed : ∃ raw, Form text raw
  · obtain ⟨⟨name, operand⟩, form⟩ := formed
    by_cases listed : ∃ opcode : Opcode, opcode.mnemonic = String.ofList name
    · obtain ⟨opcode, spelled⟩ := listed
      obtain rfl : opcode.mnemonic.toList = name := by rw [spelled, String.toList_ofList]
      cases operand with
      | none => exact ⟨_, .bare form⟩
      | some operand =>
        obtain ⟨letter, digits⟩ := operand
        by_cases bank : letter = 'M'
        · subst bank
          rcases Nat.lt_or_ge (Numeral.value .hexadecimal digits) (2 ^ 64) with small | large
          · exact ⟨_, .addressed form small⟩
          · exact ⟨_, .addressOverflow form large⟩
        · exact ⟨_, .unknownBank form bank⟩
    · exact ⟨_, .unknownOpcode form (not_exists.mp listed)⟩
  · exact ⟨_, .malformed (not_exists.mp formed)⟩

theorem Judged.parseLine_eq {result : Except SourceError Instruction}
    (judged : Judged line text result) : parseLine line text = result := by
  cases judged with
  | malformed formless =>
    have unread : readRaw? text = none := by
      apply Option.eq_none_iff_forall_ne_some.mpr
      intro raw read
      exact formless raw (readRaw?_eq_some_iff.mp read)
    simp only [parseLine, unread]
  | @unknownOpcode raw form unlisted =>
    have unknown : Opcode.ofMnemonic? (String.ofList raw.name) = none := by
      apply Option.eq_none_iff_forall_ne_some.mpr
      intro opcode found
      exact unlisted opcode (Opcode.ofMnemonic?_eq_some_iff.mp found)
    simp only [parseLine, form.readRaw?_eq, unknown]
  | unknownBank form other => simp only [parseLine_of_mnemonic form, if_neg other]
  | addressOverflow form large =>
    simp only [parseLine_of_mnemonic form, if_pos, if_neg (Nat.not_lt.mpr large)]
  | bare form => exact parseLine_of_mnemonic form
  | addressed form small => simp only [parseLine_of_mnemonic form, if_pos, if_pos small]

theorem parseLine_eq_iff {result : Except SourceError Instruction} :
    parseLine line text = result ↔ Judged line text result := by
  constructor
  · rintro rfl
    obtain ⟨result, judged⟩ := Judged.exists line text
    rwa [judged.parseLine_eq]
  · exact Judged.parseLine_eq

end Judgement

end RelayLadder.Source
