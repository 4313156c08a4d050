import RelayLadder.Command.Value
import RelayLadder.Memory.Dump
import RelayLadder.Proofs.Source.RoundTrip

/-!
Addresses and assignments on the command line against the texts that they accept, against
the operands of source lines, and against the labels of cells.
-/

namespace RelayLadder

/-- How an address may be written: the letter of the bank or not, a plus or not, and the
hexadecimal digits of a number that fits a word. -/
inductive AddressText : List Char → Nat → Prop where
  | of {letter sign digits : List Char} (bank : letter = [] ∨ letter = ['M'])
      (plus : sign = [] ∨ sign = ['+']) (numbered : digits ≠ [])
      (hexadecimal : ∀ c ∈ digits, Numeral.IsHexadecimal c)
      (small : Numeral.value .hexadecimal digits < 2 ^ 64) :
      AddressText (letter ++ (sign ++ digits)) (Numeral.value .hexadecimal digits)

/-- How a truth value may be written. -/
inductive BitText : List Char → Bool → Prop where
  | zero : BitText ['0'] false
  | falseWord : BitText ['f', 'a', 'l', 's', 'e'] false
  | one : BitText ['1'] true
  | trueWord : BitText ['t', 'r', 'u', 'e'] true

section Addresses

variable {text digits : List Char} {address : Nat}

theorem exists_dropBankLetter (text : List Char) :
    ∃ letter, (letter = [] ∨ letter = ['M']) ∧ text = letter ++ dropBankLetter text := by
  cases text with
  | nil => exact ⟨[], .inl rfl, rfl⟩
  | cons c rest =>
    rw [dropBankLetter]
    split
    · rename_i bank
      rw [bank]
      exact ⟨['M'], .inr rfl, rfl⟩
    · exact ⟨[], .inl rfl, rfl⟩

theorem dropBankLetter_of_other (other : ∀ c ∈ text.head?, c ≠ 'M') :
    dropBankLetter text = text := by
  cases text with
  | nil => rfl
  | cons c rest => exact if_neg (other c rfl)

theorem ne_bankLetter_of_hexadecimal {c : Char} (digit : Numeral.IsHexadecimal c) : c ≠ 'M' := by
  rintro rfl
  exact absurd digit (by decide)

theorem head_ne_bankLetter {sign : List Char} (plus : sign = [] ∨ sign = ['+'])
    (hexadecimal : ∀ c ∈ digits, Numeral.IsHexadecimal c) :
    ∀ c ∈ (sign ++ digits).head?, c ≠ 'M' := by
  intro c first
  rcases plus with rfl | rfl
  · exact ne_bankLetter_of_hexadecimal (hexadecimal c (List.mem_of_mem_head? first))
  · cases first
    decide

theorem readAddress_eq_ok_iff_read :
    readAddress text = .ok address ↔
      Numeral.read .hexadecimal wordLimit (dropBankLetter text) = .ok address := by
  rw [readAddress]
  cases Numeral.read .hexadecimal wordLimit (dropBankLetter text) <;> simp [Except.mapError]

theorem readAddress_eq_ok_iff : readAddress text = .ok address ↔ AddressText text address := by
  have positive : 0 < wordLimit := by decide
  rw [readAddress_eq_ok_iff_read, Numeral.read_eq_ok_iff positive]
  constructor
  · rintro ⟨sign, digits, parts, plus, numbered, valid, rfl, small⟩
    obtain ⟨letter, bank, whole⟩ := exists_dropBankLetter text
    rw [whole, parts]
    apply AddressText.of bank plus numbered ?_ small
    intro c member
    exact Numeral.isHexadecimal_iff.mpr (valid c member)
  · rintro @⟨letter, sign, digits, bank, plus, numbered, hexadecimal, small⟩
    have dropped : dropBankLetter (letter ++ (sign ++ digits)) = sign ++ digits := by
      have other := head_ne_bankLetter plus hexadecimal
      rcases bank with rfl | rfl
      · exact dropBankLetter_of_other other
      · rfl
    refine ⟨sign, digits, dropped, plus, numbered, ?_, rfl, small⟩
    intro c member
    exact Numeral.isHexadecimal_iff.mp (hexadecimal c member)

/-- Without a sign, what follows the letter of the bank are the digits. -/
theorem readAddress_of_letter (unsigned : '+' ∉ digits) :
    readAddress ('M' :: digits) = .ok address ↔
      digits ≠ [] ∧ (∀ c ∈ digits, Numeral.IsHexadecimal c) ∧
        Numeral.value .hexadecimal digits = address ∧ address < 2 ^ 64 := by
  have positive : 0 < wordLimit := by decide
  have dropped : dropBankLetter ('M' :: digits) = digits := rfl
  simp only [readAddress_eq_ok_iff_read, dropped, Numeral.read_eq_ok_iff positive,
    Numeral.isHexadecimal_iff]
  constructor
  · rintro ⟨sign, rest, rfl, rfl | rfl, accepted⟩
    · exact accepted
    · simp at unsigned
  · intro accepted
    exact ⟨[], digits, rfl, .inl rfl, accepted⟩

end Addresses

section Operands

open Source

variable {digits : List Char}

theorem readOperand?_of_letter {operand : Char × List Char} :
    readOperand? (' ' :: 'M' :: digits) = some operand ↔
      operand = ('M', digits) ∧ digits ≠ [] ∧ ∀ c ∈ digits, Numeral.IsHexadecimal c := by
  have stop : ∀ c ∈ ('M' :: digits).head?, isGap c = false := by
    rintro c ⟨⟩
    rfl
  have blanks : ∀ c ∈ [' '], isGap c = true := List.all_eq_true.mp rfl
  have upper : 'M'.isUpper = true := rfl
  have parts : ' ' :: 'M' :: digits = [' '] ++ 'M' :: digits := rfl
  rw [parts, readOperand?_of_gap blanks stop]
  constructor
  · rintro ⟨-, same, -, numbered, digital⟩
    obtain ⟨letter, rest⟩ := List.cons.inj same
    subst rest
    exact ⟨Prod.ext letter.symm rfl, numbered, all_isHexDigit_iff.mp digital⟩
  · rintro ⟨rfl, numbered, hexadecimal⟩
    exact ⟨by simp, rfl, upper, numbered, all_isHexDigit_iff.mpr hexadecimal⟩

theorem form_load_iff {raw : RawLine} :
    Form ("LD ".toList ++ 'M' :: digits) raw ↔
      raw = ⟨(Opcode.load false).mnemonic.toList, some ('M', digits)⟩ ∧
        digits ≠ [] ∧ ∀ c ∈ digits, Numeral.IsHexadecimal c := by
  have parts : "LD ".toList ++ 'M' :: digits = ['L', 'D'] ++ ' ' :: 'M' :: digits := rfl
  have stop : ∀ c ∈ (' ' :: 'M' :: digits).head?, c.isUpper = false := by
    rintro c ⟨⟩
    rfl
  have uppers : ∀ c ∈ ['L', 'D'], c.isUpper = true := List.all_eq_true.mp rfl
  rw [← readRaw?_eq_some_iff, parts, readRaw?_of_name (by simp) uppers stop,
    if_neg (by simp), Option.map_eq_some_iff]
  simp only [readOperand?_of_letter]
  constructor
  · rintro ⟨operand, ⟨rfl, accepted⟩, rfl⟩
    exact ⟨rfl, accepted⟩
  · rintro ⟨rfl, accepted⟩
    exact ⟨('M', digits), ⟨rfl, accepted⟩, rfl⟩

theorem parseLine_load_eq_ok_iff {line : Nat} {instruction : Instruction} :
    parseLine line ("LD ".toList ++ 'M' :: digits) = .ok instruction ↔
      ∃ address, instruction = ⟨.load false, some address⟩ ∧
        digits ≠ [] ∧ (∀ c ∈ digits, Numeral.IsHexadecimal c) ∧
        Numeral.value .hexadecimal digits = address ∧ address < 2 ^ 64 := by
  rw [parseLine_eq_iff]
  constructor
  · intro judged
    cases judged with
    | bare form =>
      obtain ⟨raw, -⟩ := form_load_iff.mp form
      cases (RawLine.mk.inj raw).2
    | addressed form small =>
      obtain ⟨raw, numbered, hexadecimal⟩ := form_load_iff.mp form
      obtain ⟨name, operand⟩ := RawLine.mk.inj raw
      cases Opcode.mnemonic_injective (String.toList_injective name)
      cases operand
      exact ⟨_, rfl, numbered, hexadecimal, rfl, small⟩
  · rintro ⟨address, rfl, numbered, hexadecimal, rfl, small⟩
    exact .addressed (form_load_iff.mpr ⟨rfl, numbered, hexadecimal⟩) small

end Operands

section Labels

open Source

/-- Nothing but the letter of the bank and digits stands in a label. -/
theorem not_mem_cellLabel {c : Char} (other : c ≠ 'M') (noDigit : c ∉ Numeral.ascending)
    (address : Nat) : c ∉ (cellLabel address).toList := by
  rw [toList_cellLabel]
  apply List.not_mem_cons_of_ne_of_not_mem other
  intro member
  exact noDigit (Numeral.ascending_mem_leftpad _ _ _ c member)

theorem equals_not_mem_cellLabel (address : Nat) : '=' ∉ (cellLabel address).toList :=
  not_mem_cellLabel (by decide) (by decide) address

/-- The label of a cell is read as its address, with the letter and without. -/
theorem readAddress_addressDigits {address : Nat} (small : address < 2 ^ 64) {letter : List Char}
    (bank : letter = [] ∨ letter = ['M']) :
    readAddress (letter ++ addressDigits address) = .ok address := by
  have spelled := value_addressDigits address
  rw [← spelled] at small
  have numbered : addressDigits address ≠ [] := Numeral.leftpad_digits_ne_nil _ _ _ _
  have hexadecimal := Numeral.isHexadecimal_mem_leftpad 3 address
  have written : AddressText (letter ++ ([] ++ addressDigits address)) _ :=
    .of bank (.inl rfl) numbered hexadecimal small
  rw [spelled] at written
  exact readAddress_eq_ok_iff.mpr written

end Labels

section Assignments

variable {text : List Char} {address : Nat} {bit : Bool}

theorem readBit?_eq_some_iff : readBit? text = some bit ↔ BitText text bit := by
  constructor
  · intro read
    unfold readBit? at read
    split at read
    · rename_i cleared
      cases read
      rcases cleared with rfl | rfl
      · exact .zero
      · exact .falseWord
    · split at read
      · rename_i raised
        cases read
        rcases raised with rfl | rfl
        · exact .one
        · exact .trueWord
      · contradiction
  · rintro (_ | _ | _ | _) <;> decide

theorem readAssignment_of_split {name value : List Char} (first : '=' ∉ name) :
    readAssignment (name ++ '=' :: value) = .ok (address, bit) ↔
      readBit? value = some bit ∧ readAddress name = .ok address := by
  have before : ∀ c ∈ name, decide (c ≠ '=') = true := by
    intro c member
    apply decide_eq_true
    rintro rfl
    exact first member
  have stop : ∀ c ∈ ('=' :: value).head?, decide (c ≠ '=') = false := by
    rintro c ⟨⟩
    rfl
  simp only [readAssignment, Text.dropWhile_run before stop, Text.takeWhile_run before stop]
  cases readBit? value with
  | none => simp
  | some read => cases readAddress name <;> simp [and_comm]

theorem readAssignment_of_unsplit (absent : '=' ∉ text) :
    readAssignment text = .error (.form text) := by
  have rest : text.dropWhile (· ≠ '=') = [] := by
    apply List.dropWhile_eq_nil_iff.mpr
    intro c member
    apply decide_eq_true
    rintro rfl
    exact absent member
  simp only [readAssignment, rest]

theorem readAssignment_eq_ok_iff :
    readAssignment text = .ok (address, bit) ↔
      ∃ name value, text = name ++ '=' :: value ∧ '=' ∉ name ∧ BitText value bit ∧
        readAddress name = .ok address := by
  constructor
  · intro read
    have present : '=' ∈ text := by
      by_contra absent
      rw [readAssignment_of_unsplit absent] at read
      contradiction
    obtain ⟨name, value, rfl, first⟩ := List.eq_append_cons_of_mem present
    obtain ⟨value, address⟩ := (readAssignment_of_split first).mp read
    exact ⟨_, _, rfl, first, readBit?_eq_some_iff.mp value, address⟩
  · rintro ⟨name, value, rfl, first, spelled, address⟩
    exact (readAssignment_of_split first).mpr ⟨readBit?_eq_some_iff.mpr spelled, address⟩

theorem bitText_bitChar (bit : Bool) : BitText [Dump.bitChar bit] bit := by
  cases bit with
  | false => exact .zero
  | true => exact .one

end Assignments

/-- Addresses mean the same on the command line and in a source. The command line accepts the
digits of a word after at most one letter of the bank and at most one plus; after the
letter and without a sign this is what a source line accepts as an operand, with the same
address. The label of a cell is read as its address, and an assignment is an address and a
truth value around the first equals sign. -/
theorem readAddress_agrees_with_source :
    (∀ text address, readAddress text = .ok address ↔ AddressText text address) ∧
    (∀ text, text.head? = some 'M' → '+' ∉ text → ∀ instruction,
      Source.parseLine 1 ("LD ".toList ++ text) = .ok instruction ↔
        ∃ address, readAddress text = .ok address ∧ instruction = ⟨.load false, some address⟩) ∧
    (∀ address, address < 2 ^ 64 → ∃ digits, (cellLabel address).toList = 'M' :: digits ∧
      3 ≤ digits.length ∧ (∀ c ∈ digits, c ∈ Numeral.ascending) ∧
      readAddress ('M' :: digits) = .ok address ∧ readAddress digits = .ok address) ∧
    (∀ text address bit, readAssignment text = .ok (address, bit) ↔
      ∃ name value, text = name ++ '=' :: value ∧ '=' ∉ name ∧ BitText value bit ∧
        readAddress name = .ok address) ∧
    ∀ address bit, address < 2 ^ 64 →
      readAssignment ((cellLabel address).toList ++ ['=', Dump.bitChar bit]) =
        .ok (address, bit) := by
  refine ⟨fun _ _ => readAddress_eq_ok_iff, ?operand, ?label, fun _ _ _ => readAssignment_eq_ok_iff,
    ?assignment⟩
  case operand =>
    intro text letter unsigned instruction
    obtain ⟨digits, rfl⟩ := List.head?_eq_some_iff.mp letter
    have unsignedDigits : '+' ∉ digits := fun member => unsigned (List.mem_cons_of_mem _ member)
    simp only [parseLine_load_eq_ok_iff, readAddress_of_letter unsignedDigits]
    constructor
    · rintro ⟨address, loaded, accepted⟩
      exact ⟨address, accepted, loaded⟩
    · rintro ⟨address, accepted, loaded⟩
      exact ⟨address, loaded, accepted⟩
  case label =>
    intro address small
    refine ⟨_, Source.toList_cellLabel address, ?_, Numeral.ascending_mem_leftpad _ _ _,
      readAddress_addressDigits small (.inr rfl), readAddress_addressDigits small (.inl rfl)⟩
    rw [Source.addressDigits, List.length_leftpad]
    exact Nat.le_max_left _ _
  case assignment =>
    intro address bit small
    have label := readAddress_addressDigits small (.inr rfl)
    rw [List.singleton_append, ← Source.toList_cellLabel] at label
    apply readAssignment_eq_ok_iff.mpr
    exact ⟨_, _, rfl, equals_not_mem_cellLabel address, bitText_bitChar bit, label⟩

/-- Leading zeros and small letters, the largest address, and an assignment by a label. -/
theorem readAddress_agrees_with_largest_label :
    Source.parseLine 1 "LD M0000000000000000000a".toList = .ok ⟨.load false, some 10⟩ ∧
    readAddress "MFFFFFFFFFFFFFFFF".toList = .ok 0xFFFFFFFFFFFFFFFF ∧
    readAssignment "M1000=1".toList = .ok (0x1000, true) := by
  obtain ⟨-, operand, label, -, assignment⟩ := readAddress_agrees_with_source
  refine ⟨?_, ?_, ?_⟩
  · apply (operand "M0000000000000000000a".toList rfl (by decide) _).mpr
    exact ⟨10, by decide +kernel, rfl⟩
  · obtain ⟨digits, written, -, -, read, -⟩ := label 0xFFFFFFFFFFFFFFFF (by decide)
    rw [← written] at read
    have text : cellLabel 0xFFFFFFFFFFFFFFFF = "MFFFFFFFFFFFFFFFF" := by decide +kernel
    rwa [text] at read
  · have read := assignment 0x1000 true (by decide)
    have text : cellLabel 0x1000 = "M1000" := by decide +kernel
    rwa [text] at read

end RelayLadder
