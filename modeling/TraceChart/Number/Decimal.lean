import TraceChart.Number.Binary64

/-!
Decimal numerals: lists of digits, and the parts of a written number. `Numeral.chars` writes the
parts and `Numeral.toBinary64` is the number nearest to what they say.
-/

namespace TraceChart

abbrev Digit := Fin 10

namespace Digit

def zero : Digit :=
  ⟨0, by decide⟩

/-- The natural that a list of digits denotes, most significant digit first. -/
def value (digits : List Digit) : Nat :=
  digits.foldl (fun total digit => 10 * total + digit.val) 0

/-- The digits of a natural; zero has one. -/
def ofNat (number : Nat) : List Digit :=
  if small : number < 10 then [⟨number, small⟩]
  else ofNat (number / 10) ++ [⟨number % 10, Nat.mod_lt _ (by decide)⟩]
termination_by number

def char (digit : Digit) : Char :=
  Char.ofNat (48 + digit.val)

def chars (digits : List Digit) : List Char :=
  digits.map char

end Digit

/-- How many digits a natural has; zero has one. -/
def digitCount (number : Nat) : Nat :=
  if number < 10 then 1 else digitCount (number / 10) + 1
termination_by number

/-- The exponent of the greatest power of ten that is at most a positive quotient. -/
def decimalExponent (numerator denominator : Nat) : Int :=
  if denominator ≤ numerator then digitCount (numerator / denominator) - 1
  else -(digitCount ((denominator - 1) / numerator) : Int)

/-- The parts of a written number. A numeral without fraction digits has no point. -/
structure Numeral where
  negative : Bool
  whole : List Digit
  fraction : List Digit
  exponent : Option Int
deriving DecidableEq, Repr

namespace Numeral

def significand (numeral : Numeral) : Nat :=
  Digit.value (numeral.whole ++ numeral.fraction)

/-- The power of ten at which the last digit stands. -/
def scale (numeral : Numeral) : Int :=
  numeral.exponent.getD 0 - numeral.fraction.length

def toBinary64 (numeral : Numeral) : Binary64 :=
  .ofDecimal numeral.negative numeral.significand numeral.scale

/-- The integer of a numeral with neither point nor exponent. Minus zero is no integer. -/
def integer? (numeral : Numeral) : Option Int :=
  if numeral.fraction = [] ∧ numeral.exponent = none ∧
      ¬(numeral.negative = true ∧ numeral.significand = 0) then
    some (Binary64.signed numeral.negative numeral.significand)
  else none

/-- An exponent: its sign, a plus sign only on request, and digits up to a least number. -/
def exponentChars (plus : Bool) (width : Nat) (exponent : Int) : List Char :=
  let digits := Digit.chars (Digit.ofNat exponent.natAbs)
  let sign := if exponent < 0 then ['-'] else if plus then ['+'] else []
  sign ++ List.replicate (width - digits.length) '0' ++ digits

def chars (numeral : Numeral) (plus : Bool) (width : Nat) : List Char :=
  let sign := if numeral.negative then ['-'] else []
  let fraction := if numeral.fraction = [] then [] else '.' :: Digit.chars numeral.fraction
  let exponent := match numeral.exponent with
    | none => []
    | some exponent => 'e' :: exponentChars plus width exponent
  sign ++ Digit.chars numeral.whole ++ fraction ++ exponent

end Numeral

end TraceChart
