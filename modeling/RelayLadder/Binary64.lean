import RelayLadder.Numeral

/-!
Rounding of exact decimals to the binary floating-point grid with 53 significant
bits and exponents from -1074 up: the nearest grid point, a tie to the even one.
-/

namespace RelayLadder.Binary64

/-- The quotient rounded to the nearest integer, a half to the even neighbour. -/
def roundDiv (numerator denominator : Nat) : Nat :=
  let quotient := numerator / denominator
  let remainder := numerator % denominator
  if 2 * remainder < denominator then quotient
  else if denominator < 2 * remainder then quotient + 1
  else quotient + quotient % 2

/-- A numerator and denominator whose quotient is the given one over a power of two. -/
def scaleDown (numerator denominator : Nat) (exponent : Int) : Nat × Nat :=
  if 0 ≤ exponent then (numerator, denominator <<< exponent.toNat)
  else (numerator <<< (-exponent).toNat, denominator)

/-- The exponent of the largest power of two that is at most a positive quotient. -/
def floorLog2 (numerator denominator : Nat) : Int :=
  let estimate : Int := (numerator.log2 : Int) - (denominator.log2 : Int)
  let (n, d) := scaleDown numerator denominator estimate
  if d ≤ n then estimate else estimate - 1

/-- The smallest exponent of the grid. -/
def leastExponent : Int := -1074

/-- A significand times a power of two. -/
def scaled (significand : Nat) (exponent : Int) : Rat :=
  if 0 ≤ exponent then ((significand <<< exponent.toNat : Nat) : Rat)
  else mkRat significand (1 <<< (-exponent).toNat)

/-- The values of the grid lie below this. -/
def overflow : Rat := scaled 1 1024

/-- The grid point nearest to a quotient, or nothing when it is beyond the largest. -/
def nearest? (numerator denominator : Nat) : Option Rat :=
  if numerator = 0 then some 0
  else
    let exponent := max leastExponent (floorLog2 numerator denominator - 52)
    let (n, d) := scaleDown numerator denominator exponent
    let value := scaled (roundDiv n d) exponent
    if value < overflow then some value else none

/-- The grid point nearest to a mantissa times a power of ten. Magnitudes far
outside the grid are settled by their number of digits. -/
def ofDecimal? (mantissa : Nat) (exponent : Int) : Option Rat :=
  let magnitude : Int := (Numeral.digits .decimal mantissa).length + exponent
  if mantissa = 0 then some 0
  else if 310 < magnitude then none
  else if magnitude < -330 then some 0
  else if 0 ≤ exponent then nearest? (mantissa * Nat.pow 10 exponent.toNat) 1
  else nearest? mantissa (Nat.pow 10 (-exponent).toNat)

end RelayLadder.Binary64
