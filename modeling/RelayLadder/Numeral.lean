/-!
Unsigned numerals in a radix: the digits of a number, most significant first and
in upper case, and a reader bounded by a limit.
-/

namespace RelayLadder

/-- The two bases in which numbers are written. -/
inductive Radix where
  | decimal
  | hexadecimal
  deriving DecidableEq

def Radix.base : Radix → Nat
  | .decimal => 10
  | .hexadecimal => 16

theorem Radix.one_lt_base (radix : Radix) : 1 < radix.base := by
  cases radix <;> decide

namespace Numeral

/-- The character of a digit below sixteen; letters are upper case. -/
def digitChar (value : Nat) : Char :=
  if value < 10 then Char.ofNat ('0'.toNat + value) else Char.ofNat ('A'.toNat + (value - 10))

/-- The value of a digit character in a radix, in either case of letters. -/
def digitValue? (radix : Radix) (c : Char) : Option Nat :=
  let value? : Option Nat :=
    if '0' ≤ c ∧ c ≤ '9' then some (c.toNat - '0'.toNat)
    else if 'A' ≤ c ∧ c ≤ 'F' then some (c.toNat - 'A'.toNat + 10)
    else if 'a' ≤ c ∧ c ≤ 'f' then some (c.toNat - 'a'.toNat + 10)
    else none
  value?.filter (fun value => decide (value < radix.base))

/-- The digits of a number without leading zeros; zero has the one digit `0`. -/
def digits (radix : Radix) (n : Nat) : List Char :=
  if n < radix.base then [digitChar n]
  else digits radix (n / radix.base) ++ [digitChar (n % radix.base)]
termination_by n
decreasing_by
  have one_lt := radix.one_lt_base
  exact Nat.div_lt_self (by omega) one_lt

theorem digits_ne_nil (radix : Radix) (n : Nat) : digits radix n ≠ [] := by
  rw [digits]
  split <;> simp

end Numeral

/-- A number in decimal digits. -/
def decimal (n : Nat) : String :=
  String.ofList (Numeral.digits .decimal n)

/-- A number in upper-case hexadecimal digits, padded with zeros to a width. -/
def hexadecimal (width n : Nat) : String :=
  String.ofList ((Numeral.digits .hexadecimal n).leftpad width '0')

/-- Why a text is not a numeral below the limit. -/
inductive NumeralError where
  | empty
  | invalidDigit
  | tooLarge
  deriving DecidableEq

def NumeralError.message : NumeralError → String
  | .empty => "cannot parse integer from empty string"
  | .invalidDigit => "invalid digit found in string"
  | .tooLarge => "number too large to fit in target type"

namespace Numeral

/-- Reads digits onto a running total. The total is compared with the limit at
every digit, so the first offending place decides the error, and at one place a
bad digit comes before an overflow. -/
def accumulate (radix : Radix) (limit : Nat) : Nat → List Char → Except NumeralError Nat
  | total, [] => .ok total
  | total, c :: rest =>
    match digitValue? radix c with
    | none => .error .invalidDigit
    | some value =>
      let next := total * radix.base + value
      if next < limit then accumulate radix limit next rest else .error .tooLarge

/-- Reads a numeral below a limit. One leading plus sign is allowed if a digit
follows it. -/
def read (radix : Radix) (limit : Nat) : List Char → Except NumeralError Nat
  | [] => .error .empty
  | ['+'] => .error .invalidDigit
  | '+' :: rest => accumulate radix limit 0 rest
  | text => accumulate radix limit 0 text

end Numeral

/-- Addresses, counts and seeds are words of 64 bits: they lie below this. -/
def wordLimit : Nat := 0x10000000000000000

end RelayLadder
