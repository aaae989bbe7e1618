import TraceChart.Number.Decimal

/-!
The fewest decimal digits that read back as a number.

For one, two, up to seventeen digits, the two decimals next to the number are tried on the grid of
that many digits. The first grid with a decimal that reads back wins, and of two such decimals the
nearer one. What comes out always reads back: should no grid answer, the exact value does.
-/

namespace TraceChart

/-- Which of two equally near decimals is taken. -/
inductive Tie where
  | even
  | up
deriving DecidableEq, Repr

/-- A natural at a power of ten. -/
structure Decimal where
  digits : Nat
  scale : Int
deriving DecidableEq, Repr

namespace Decimal

def toBinary64 (decimal : Decimal) : Binary64 :=
  .ofDecimal false decimal.digits decimal.scale

/-- Move trailing zeros of the digits into the scale. -/
def strip (decimal : Decimal) : Decimal :=
  if decimal.digits ≠ 0 ∧ decimal.digits % 10 = 0 then
    strip ⟨decimal.digits / 10, decimal.scale + 1⟩
  else decimal
termination_by decimal.digits
decreasing_by omega

/-- The decimal at this scale that is next to a quotient and reads back as the number. -/
def neighbour? (tie : Tie) (number : Binary64) (numerator denominator : Nat) (scale : Int) :
    Option Decimal :=
  let numerator := numerator * tenTo (-scale).toNat
  let denominator := denominator * tenTo scale.toNat
  let low := numerator / denominator
  let lower : Decimal := ⟨low, scale⟩
  let upper : Decimal := ⟨low + 1, scale⟩
  match decide (lower.toBinary64 = number), decide (upper.toBinary64 = number) with
  | false, false => none
  | true, false => some lower
  | false, true => some upper
  | true, true =>
    let twice := 2 * (numerator % denominator)
    if twice < denominator then some lower
    else if denominator < twice then some upper
    else match tie with
      | .up => some upper
      | .even => if low % 2 = 0 then some lower else some upper

/-- The exact value of a natural at a power of two. -/
def exact (significand : Nat) (exponent : Int) : Decimal :=
  if exponent < 0 then ⟨significand * Nat.pow 5 exponent.natAbs, exponent⟩
  else ⟨significand * twoTo exponent.toNat, 0⟩

/-- The shortest decimal of a positive canonical value. -/
def shortest (tie : Tie) (significand : Nat) (exponent : Int) : Decimal :=
  let numerator := significand * twoTo exponent.toNat
  let denominator := twoTo (-exponent).toNat
  let number := Binary64.ofParts false significand exponent
  let leading := decimalExponent numerator denominator
  let found := (List.range 17).findSome? fun (count : Nat) =>
    neighbour? tie number numerator denominator (leading - count)
  (found.getD (exact significand exponent)).strip

end Decimal

end TraceChart
