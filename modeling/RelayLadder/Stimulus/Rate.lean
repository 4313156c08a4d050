import RelayLadder.Binary64
import RelayLadder.Stimulus.Draw

/-!
Flip rates. A rate is a binary floating-point number taken as an exact value, or
one of the values outside the numbers.
-/

namespace RelayLadder

inductive Rate where
  | finite (value : Rat)
  | unbounded (negative : Bool)
  /-- Not a number: no comparison with it holds. -/
  | undefined
  deriving DecidableEq

namespace Rate

/-- Whether the rate is at most zero, so that nothing is drawn. -/
def isSilent : Rate → Bool
  | finite value => decide (value ≤ 0)
  | unbounded negative => negative
  | undefined => false

/-- Whether a draw, taken as a fraction of all draws, lies below the rate. -/
def exceeds : Rate → Nat → Bool
  | finite value, draw => decide (mkRat draw drawLimit < value)
  | unbounded negative, _ => !negative
  | undefined, _ => false

/-- The rate nearest to a signed decimal. -/
def ofDecimal (negative : Bool) (mantissa : Nat) (exponent : Int) : Rate :=
  match Binary64.ofDecimal? mantissa exponent with
  | some value => finite (if negative then -value else value)
  | none => unbounded negative

end Rate

/-- Why a text is not a rate. -/
inductive RateError where
  | empty
  | malformed
  deriving DecidableEq

def RateError.message : RateError → String
  | .empty => "cannot parse float from empty string"
  | .malformed => "invalid float literal"

namespace Rate

/-- The value of a list of decimal digits. -/
def digitsValue (digits : List Char) : Nat :=
  digits.foldl (fun total c => total * 10 + (Numeral.digitValue? .decimal c).getD 0) 0

/-- Splits off a leading sign; the flag is set for a minus. -/
def splitSign : List Char → Bool × List Char
  | '+' :: rest => (false, rest)
  | '-' :: rest => (true, rest)
  | text => (false, text)

/-- The exponent part: nothing, or `e` in either case with a signed number. -/
def readExponent? : List Char → Option Int
  | [] => some 0
  | mark :: rest =>
    if mark = 'e' ∨ mark = 'E' then
      let (negative, digits) := splitSign rest
      if digits ≠ [] ∧ digits.all Char.isDigit then
        let value : Int := digitsValue digits
        some (if negative then -value else value)
      else none
    else none

/-- The digits after a point, and what follows them. -/
def splitFraction : List Char → List Char × List Char
  | '.' :: rest => (rest.takeWhile Char.isDigit, rest.dropWhile Char.isDigit)
  | text => ([], text)

/-- An unsigned decimal: digits with an optional point, a digit at least, and an
optional exponent. -/
def readDecimal? (negative : Bool) (text : List Char) : Option Rate :=
  let whole := text.takeWhile Char.isDigit
  let (fraction, rest) := splitFraction (text.dropWhile Char.isDigit)
  if whole ++ fraction = [] then none
  else (readExponent? rest).map fun exponent =>
    ofDecimal negative (digitsValue (whole ++ fraction)) (exponent - fraction.length)

/-- Reads a rate: a decimal, or the words for infinity and for no number in any case. -/
def read (text : List Char) : Except RateError Rate :=
  if text = [] then .error .empty
  else
    let (negative, magnitude) := splitSign text
    match String.ofList (magnitude.map Char.toLower) with
    | "inf" | "infinity" => .ok (unbounded negative)
    | "nan" => .ok undefined
    | _ =>
      match readDecimal? negative magnitude with
      | some rate => .ok rate
      | none => .error .malformed

end Rate

end RelayLadder
