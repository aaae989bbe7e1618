import TraceChart.Number.Scalar

/-!
Exact arithmetic: the rationals as numbers for times and lengths. Nothing is rounded, so a law of
layout that fails for binary64 numbers only by rounding holds here.
-/

namespace TraceChart.Exact

def decade (value : Rat) : Extended :=
  if value < 0 then .undefined
  else if value = 0 then .below
  else .at (decimalExponent value.num.natAbs value.den)

def powerOfTen : Extended → Rat
  | .at exponent => tenPower exponent
  | _ => 0

/-- Digits where the denominator is one, and otherwise a fraction, since a quotient may have no last
digit. No program writes this: it stands in for the digits of a duration, which a drawing puts into
a caption and never looks at. -/
def text (value : Rat) : String :=
  if value.den = 1 then toString value.num
  else toString value.num ++ "/" ++ toString value.den

instance : Scalar Rat where
  lt left right := decide (left < right)
  le left right := decide (left ≤ right)
  isFinite _ := true
  ofInt value := value
  floor value := .at value.floor
  ceil value := .at value.ceil
  truncate value := .at (if value < 0 then value.ceil else value.floor)
  nearest value := .at (if value < 0 then (value - 1 / 2).ceil else (value + 1 / 2).floor)
  decade := decade
  powerOfTen := powerOfTen
  plainText := text
  durationText := text
  fixedText places value :=
    TraceChart.fixedText (value < 0) places value.num.natAbs value.den
  takesPlaces _ := true

end TraceChart.Exact
