import TraceChart.Number.Logarithm

/-!
Decades: the whole part of a decimal logarithm, and powers of ten.
-/

namespace TraceChart

/-- The power of ten with an integer exponent, exactly. -/
def tenPower (exponent : Int) : Rat :=
  if exponent < 0 then 1 / tenTo exponent.natAbs else tenTo exponent.toNat

namespace Binary64

/-- The whole part of the decimal logarithm of a number. -/
def decade : Binary64 → Extended
  | .nan => .undefined
  | .infinite negative => if negative then .undefined else .above
  | .finite negative significand exponent _ =>
    if significand = 0 then .below
    else if negative then .undefined
    else (decimalLog significand exponent).floor

/-- The two powers of ten that lie so close to the middle of two numbers that a power function
in working precision takes the upper one. -/
def roundedUpDecades : List Int := [23, 210]

/-- Ten to a whole power. -/
def powerOfTen : Extended → Binary64
  | .undefined => .nan
  | .below => zero false
  | .above => .infinite false
  | .at exponent =>
    match ofDecimal false 1 exponent with
    | .finite negative significand binary canonical =>
      if exponent ∈ roundedUpDecades then ofParts negative (significand + 1) binary
      else .finite negative significand binary canonical
    | other => other

end Binary64

end TraceChart
