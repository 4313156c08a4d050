import RelayLadder.Proofs.Numeral.Value

/-!
Numbers as they are written. The digits of a number spell that number again, and zeros
in front of them change nothing.
-/

namespace RelayLadder.Numeral

section Digits

variable {radix : Radix}

theorem place_digitChar {digit : Nat} (small : digit < radix.base) :
    place (digitChar digit) = digit := by
  have written : ∀ known < 16, place (digitChar known) = known := by decide
  apply written
  exact Nat.lt_of_lt_of_le small radix.base_le_sixteen

theorem mod_base_lt (radix : Radix) (n : Nat) : n % radix.base < radix.base := by
  apply Nat.mod_lt
  exact Nat.lt_trans Nat.zero_lt_one radix.one_lt_base

theorem value_concat (text : List Char) (c : Char) :
    value radix (text ++ [c]) = value radix text * radix.base + place c := by
  simp only [value, List.reverse_append, List.reverse_singleton, List.singleton_append,
    List.map_cons, Nat.ofDigits_cons]
  ring

theorem place_mem_digits (radix : Radix) (n : Nat) :
    ∀ c ∈ digits radix n, place c < radix.base := by
  fun_induction digits radix n with
  | case1 n small => simpa [place_digitChar small] using small
  | case2 n large inductionHypothesis =>
    have small := mod_base_lt radix n
    intro c member
    rcases List.mem_append.mp member with earlier | last
    · exact inductionHypothesis c earlier
    · simpa [List.mem_singleton.mp last, place_digitChar small] using small

/-- Writing a number and taking the value of its digits gives the number back. -/
theorem value_digits (radix : Radix) (n : Nat) : value radix (digits radix n) = n := by
  fun_induction digits radix n with
  | case1 n small => simp [value, place_digitChar small]
  | case2 n large inductionHypothesis =>
    simp only [value_concat, inductionHypothesis, place_digitChar (mod_base_lt radix n)]
    exact Nat.div_add_mod' n radix.base

/-- A larger number has no fewer digits. -/
theorem length_digits_le {radix : Radix} {m n : Nat} (bound : m ≤ n) :
    (digits radix m).length ≤ (digits radix n).length := by
  fun_induction digits radix n generalizing m with
  | case1 n small =>
    rw [digits, if_pos (Nat.lt_of_le_of_lt bound small)]
    exact Nat.le_refl 1
  | case2 n large inductionHypothesis =>
    rw [digits]
    split
    · simp
    · have shorter := inductionHypothesis (Nat.div_le_div_right bound)
      simpa using shorter

/-- Digits are written with capital letters. -/
theorem ascending_mem_digits (radix : Radix) (n : Nat) : ∀ c ∈ digits radix n, c ∈ ascending := by
  have written {digit : Nat} (small : digit < radix.base) : digitChar digit ∈ ascending := by
    have known : ∀ digit < 16, digitChar digit ∈ ascending := by decide
    exact known digit (Nat.lt_of_lt_of_le small radix.base_le_sixteen)
  fun_induction digits radix n with
  | case1 n small => simpa using written small
  | case2 n large inductionHypothesis =>
    intro c member
    rcases List.mem_append.mp member with earlier | last
    · exact inductionHypothesis c earlier
    · rw [List.mem_singleton.mp last]
      exact written (mod_base_lt radix n)

end Digits

section Padding

theorem value_leftpad (radix : Radix) (width : Nat) (text : List Char) :
    value radix (text.leftpad width '0') = value radix text := by
  have zero : place '0' = 0 := by decide
  unfold List.leftpad
  generalize width - text.length = count
  induction count with
  | zero => simp
  | succ count inductionHypothesis =>
    simp [List.replicate_succ, value_cons, zero, inductionHypothesis]

theorem leftpad_digits_ne_nil (radix : Radix) (width n : Nat) (fill : Char) :
    (digits radix n).leftpad width fill ≠ [] := by
  simp [List.leftpad, digits_ne_nil radix n]

theorem ascending_mem_leftpad (radix : Radix) (width n : Nat) :
    ∀ c ∈ (digits radix n).leftpad width '0', c ∈ ascending := by
  intro c member
  rcases List.mem_append.mp member with padding | digit
  · rw [List.eq_of_mem_replicate padding]
    decide
  · exact ascending_mem_digits radix n c digit

theorem isHexadecimal_mem_leftpad (width n : Nat) :
    ∀ c ∈ (digits .hexadecimal n).leftpad width '0', IsHexadecimal c := by
  intro c member
  apply isHexadecimal_iff.mpr
  rcases List.mem_append.mp member with padding | digit
  · have zero := List.eq_of_mem_replicate padding
    subst zero
    decide
  · exact place_mem_digits .hexadecimal n c digit

end Padding

end RelayLadder.Numeral
