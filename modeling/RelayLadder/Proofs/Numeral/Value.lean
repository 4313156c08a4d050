import Mathlib.Data.List.Basic
import Mathlib.Data.Nat.Digits.Defs
import Mathlib.Tactic.Ring
import RelayLadder.Numeral

/-!
The number that digits spell in a positional system, and the reader against it: of valid
digits the reader gives their number, if it is below the limit.
-/

namespace RelayLadder

theorem Radix.base_le_sixteen (radix : Radix) : radix.base ≤ 16 := by
  cases radix <;> decide

namespace Numeral

/-- The digits in ascending order. -/
def ascending : List Char :=
  ['0', '1', '2', '3', '4', '5', '6', '7', '8', '9', 'A', 'B', 'C', 'D', 'E', 'F']

/-- The place of a character among the digits. Capital and small letters are the same digit;
what is no digit comes after all of them. -/
def place (c : Char) : Nat := ascending.idxOf c.toUpper

/-- The number that digits spell, the most significant first. -/
def value (radix : Radix) (text : List Char) : Nat :=
  Nat.ofDigits radix.base (text.reverse.map place)

/-- A hexadecimal digit, in either case of letters. -/
def IsHexadecimal (c : Char) : Prop :=
  '0' ≤ c ∧ c ≤ '9' ∨ 'A' ≤ c ∧ c ≤ 'F' ∨ 'a' ≤ c ∧ c ≤ 'f'

instance (c : Char) : Decidable (IsHexadecimal c) :=
  inferInstanceAs (Decidable (_ ∨ _ ∨ _))

section Digits

variable {c : Char}

/-- What holds of every ASCII character, and of all others, holds of every character. -/
theorem ascii_or_beyond {motive : Char → Prop}
    (ascii : ∀ code < 128, motive (Char.ofNat code))
    (beyond : ∀ c : Char, 128 ≤ c.toNat → motive c) (c : Char) : motive c := by
  by_cases small : c.toNat < 128
  · have holds := ascii c.toNat small
    rwa [Char.ofNat_toNat] at holds
  · exact beyond c (Nat.le_of_not_lt small)

theorem place_of_beyond (beyond : 128 ≤ c.toNat) : place c = 16 := by
  have upper : c.toUpper = c := by
    apply dif_neg
    rintro ⟨_, small⟩
    have bound : c.toNat ≤ 'z'.toNat := small
    exact absurd (Nat.le_trans beyond bound) (by decide)
  have ascii : ∀ digit ∈ ascending, digit.toNat < 128 := by simp [ascending]
  have absent : c ∉ ascending := by
    intro member
    exact absurd (ascii c member) (Nat.not_lt.mpr beyond)
  rw [place, upper, List.idxOf_of_notMem absent]
  rfl

theorem not_hexadecimal_of_beyond (beyond : 128 ≤ c.toNat) : ¬ IsHexadecimal c := by
  have above (limit : Char) (ascii : limit.toNat < 128) : ¬ c ≤ limit := by
    intro below
    exact absurd (Nat.le_trans beyond below) (Nat.not_le.mpr ascii)
  rintro (⟨_, below⟩ | ⟨_, below⟩ | ⟨_, below⟩)
  · exact above _ (by decide) below
  · exact above _ (by decide) below
  · exact above _ (by decide) below

theorem isHexadecimal_iff : IsHexadecimal c ↔ place c < 16 := by
  induction c using ascii_or_beyond with
  | ascii code small =>
    revert code
    decide +kernel
  | beyond c beyond => simp [not_hexadecimal_of_beyond beyond, place_of_beyond beyond]

/-- A digit has the value of its place, if the radix is above it. -/
theorem digitValue?_eq (radix : Radix) (c : Char) :
    digitValue? radix c = if place c < radix.base then some (place c) else none := by
  induction c using ascii_or_beyond with
  | ascii code small =>
    revert code
    cases radix <;> decide +kernel
  | beyond c beyond =>
    have refused := not_hexadecimal_of_beyond beyond
    simp only [IsHexadecimal, not_or] at refused
    have none : ¬ place c < radix.base := by
      rw [place_of_beyond beyond]
      exact Nat.not_lt.mpr radix.base_le_sixteen
    simp only [digitValue?, if_neg refused.1, if_neg refused.2.1, if_neg refused.2.2, if_neg none]
    rfl

theorem isSome_digitValue? : (digitValue? .hexadecimal c).isSome = true ↔ IsHexadecimal c := by
  rw [isHexadecimal_iff, digitValue?_eq, Radix.base]
  split <;> simp_all

end Digits

section Value

variable {radix : Radix} {limit total : Nat} {text : List Char}

theorem value_cons (c : Char) (text : List Char) :
    value radix (c :: text) = place c * radix.base ^ text.length + value radix text := by
  simp only [value, List.reverse_cons, List.map_append, List.map_cons, List.map_nil,
    Nat.ofDigits_append, Nat.ofDigits_singleton, List.length_map, List.length_reverse]
  ring

/-- Digits that are read onto a total move it up by their number of places. A total that
meets the limit on the way stays above it. -/
theorem accumulate_eq (valid : ∀ c ∈ text, place c < radix.base) (small : total < limit) :
    accumulate radix limit total text =
      if total * radix.base ^ text.length + value radix text < limit then
        .ok (total * radix.base ^ text.length + value radix text)
      else .error .tooLarge := by
  induction text generalizing total with
  | nil =>
    have whole : total * radix.base ^ 0 + value radix [] = total := by simp [value]
    rw [List.length_nil, whole, if_pos small]
    rfl
  | cons c text inductionHypothesis =>
    obtain ⟨here, others⟩ := List.forall_mem_cons.mp valid
    have whole : total * radix.base ^ (c :: text).length + value radix (c :: text) =
        (total * radix.base + place c) * radix.base ^ text.length + value radix text := by
      rw [value_cons, List.length_cons]
      ring
    rw [whole, accumulate, digitValue?_eq, if_pos here]
    by_cases below : total * radix.base + place c < limit
    · simp only [if_pos below]
      exact inductionHypothesis others below
    · have positive : 0 < radix.base ^ text.length :=
        Nat.pow_pos (Nat.lt_trans Nat.zero_lt_one radix.one_lt_base)
      have grown := Nat.le_mul_of_pos_right (total * radix.base + place c) positive
      have above : ¬ (total * radix.base + place c) * radix.base ^ text.length +
          value radix text < limit := by omega
      simp only [if_neg below, if_neg above]

/-- Digits are read as their number, if it is below the limit. -/
theorem read_eq (nonempty : text ≠ []) (valid : ∀ c ∈ text, place c < radix.base)
    (positive : 0 < limit) :
    read radix limit text =
      if value radix text < limit then .ok (value radix text) else .error .tooLarge := by
  have unsigned : ∀ rest, text ≠ '+' :: rest := by
    rintro rest rfl
    have sign : place '+' = 16 := by decide
    have bound := valid '+' List.mem_cons_self
    have large := radix.base_le_sixteen
    omega
  have read : read radix limit text = accumulate radix limit 0 text := by
    unfold Numeral.read
    split
    · contradiction
    · exact absurd rfl (unsigned _)
    · exact absurd rfl (unsigned _)
    · rfl
  rw [read, accumulate_eq valid positive, Nat.zero_mul, Nat.zero_add]

theorem valid_of_accumulate {n : Nat} (read : accumulate radix limit total text = .ok n) :
    ∀ c ∈ text, place c < radix.base := by
  induction text generalizing total with
  | nil => simp
  | cons c text inductionHypothesis =>
    rw [accumulate, digitValue?_eq] at read
    by_cases small : place c < radix.base
    · simp only [if_pos small] at read
      split at read
      · exact List.forall_mem_cons.mpr ⟨small, inductionHypothesis read⟩
      · contradiction
    · simp only [if_neg small] at read
      contradiction

theorem accumulate_eq_ok_iff (positive : 0 < limit) {n : Nat} :
    accumulate radix limit 0 text = .ok n ↔
      (∀ c ∈ text, place c < radix.base) ∧ value radix text = n ∧ n < limit := by
  by_cases valid : ∀ c ∈ text, place c < radix.base
  · rw [accumulate_eq valid positive, Nat.zero_mul, Nat.zero_add]
    by_cases small : value radix text < limit
    · simp only [if_pos small, Except.ok.injEq]
      constructor
      · rintro rfl
        exact ⟨valid, rfl, small⟩
      · rintro ⟨-, rfl, -⟩
        rfl
    · simp only [if_neg small, reduceCtorEq, false_iff]
      rintro ⟨-, rfl, below⟩
      exact small below
  · constructor
    · intro read
      exact absurd (valid_of_accumulate read) valid
    · rintro ⟨all, -⟩
      exact absurd all valid

theorem read_of_plus (nonempty : text ≠ []) :
    read radix limit ('+' :: text) = accumulate radix limit 0 text := by
  cases text with
  | nil => contradiction
  | cons c text => rfl

/-- What the reader accepts: digits of a number below the limit, after at most one plus. -/
theorem read_eq_ok_iff (positive : 0 < limit) {n : Nat} :
    read radix limit text = .ok n ↔
      ∃ sign digits, text = sign ++ digits ∧ (sign = [] ∨ sign = ['+']) ∧ digits ≠ [] ∧
        (∀ c ∈ digits, place c < radix.base) ∧ value radix digits = n ∧ n < limit := by
  constructor
  · intro accepted
    unfold read at accepted
    split at accepted
    · contradiction
    · contradiction
    · rename_i digits nonempty
      obtain ⟨valid, spelled, small⟩ := (accumulate_eq_ok_iff positive).mp accepted
      exact ⟨['+'], digits, rfl, .inr rfl, nonempty, valid, spelled, small⟩
    · rename_i nonempty _ _
      obtain ⟨valid, spelled, small⟩ := (accumulate_eq_ok_iff positive).mp accepted
      exact ⟨[], text, rfl, .inl rfl, nonempty, valid, spelled, small⟩
  · rintro ⟨sign, digits, rfl, rfl | rfl, nonempty, valid, rfl, small⟩
    · rw [List.nil_append, read_eq nonempty valid positive, if_pos small]
    · rw [List.singleton_append, read_of_plus nonempty]
      exact (accumulate_eq_ok_iff positive).mpr ⟨valid, rfl, small⟩

end Value

end Numeral

end RelayLadder
