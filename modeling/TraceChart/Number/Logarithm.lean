import TraceChart.Number.Decimal
import TraceChart.Number.Extended

/-!
Logarithms. A decimal logarithm is put together from the binary exponent of a number and the
natural logarithm of its significand. Each step rounds, so the logarithm of a number just below a
power of ten may already be an integer.
-/

namespace TraceChart

/-- The scale at which a series is summed in integers. -/
def seriesScale : Nat :=
  twoTo 256

/-- A number of terms of the series of the inverse hyperbolic tangent. The power of the argument
in the first term and the square of the argument are scaled. -/
def artanhTerms (square power odd : Nat) : Nat → Nat
  | 0 => 0
  | count + 1 =>
    power / odd + artanhTerms square (power * square / seriesScale) (odd + 2) count

/-- The distance of the natural logarithm of a quotient from zero, scaled. The quotient lies
between a half and two, where a hundred terms are more than enough. -/
def scaledLog (numerator denominator : Nat) : Nat :=
  let difference := (numerator - denominator) + (denominator - numerator)
  let argument := difference * seriesScale / (numerator + denominator)
  2 * artanhTerms (argument * argument / seriesScale) argument 1 100

namespace Binary64

/-- The natural logarithm of a quotient between a half and two: the nearest number, or the one
above where the middle is missed by less than a part in five hundred and twelve of the gap. -/
def naturalLog (numerator denominator : Nat) : Binary64 :=
  let scaled := scaledLog numerator denominator
  let lift := twoTo (scaled.log2 - 61)
  if scaled = 0 then zero false
  else if numerator < denominator then round true (scaled - lift) seriesScale
  else round false (scaled + lift) seriesScale

/-- The decimal logarithm of Euler's number. -/
def decimalLogOfEuler : Binary64 := 0.4342944819032518

/-- The leading part of the decimal logarithm of two, whose multiples by an exponent are exact. -/
def decimalLogOfTwo : Binary64 := 0.30102999566361177

/-- What the leading part leaves of the decimal logarithm of two. -/
def decimalLogOfTwoRest : Binary64 := 3.694239077158931e-13

/-- The decimal logarithm of a positive natural at a power of two. -/
def decimalLog (significand : Nat) (exponent : Int) : Binary64 :=
  let binade := exponent + significand.log2
  let shift := if binade < 0 then significand.log2 + 1 else significand.log2
  let count := ofInt (exponent + shift)
  count * decimalLogOfTwoRest + decimalLogOfEuler * naturalLog significand (twoTo shift) +
    count * decimalLogOfTwo

end Binary64

end TraceChart
