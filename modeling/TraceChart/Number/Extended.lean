import TraceChart.Number.Binary64

/-!
Integers read off numbers. A number beyond the integers still has a place below or above all of
them, and NaN has none; `Extended.within` brings every case into a range of integers.
-/

namespace TraceChart

/-- An integer, a place below or above all integers, or no place at all. -/
inductive Extended where
  | undefined
  | below
  | at (value : Int)
  | above
deriving DecidableEq, Repr

/-- The integer of a range that is nearest; zero where there is nothing to be near to. -/
def Extended.within (low high : Int) : Extended → Int
  | .undefined => 0
  | .below => low
  | .at value => max low (min high value)
  | .above => high

namespace Binary64

/-- Apply a rule that rounds an integer quotient with a positive denominator. -/
def whole (rule : Int → Int → Int) : Binary64 → Extended
  | .nan => .undefined
  | .infinite negative => if negative then .below else .above
  | .finite negative significand exponent _ =>
    .at (rule (signed negative (significand * twoTo exponent.toNat)) (twoTo (-exponent).toNat))

def floor : Binary64 → Extended :=
  whole Int.fdiv

def ceil : Binary64 → Extended :=
  whole fun numerator denominator => -Int.fdiv (-numerator) denominator

def truncate : Binary64 → Extended :=
  whole Int.tdiv

/-- The nearest integer, away from zero on a tie. -/
def nearest : Binary64 → Extended :=
  whole fun numerator denominator =>
    if numerator < 0 then -((-2 * numerator + denominator) / (2 * denominator))
    else (2 * numerator + denominator) / (2 * denominator)

/-- The integer that a number is equal to. -/
def integer? : Binary64 → Option Int
  | .finite negative significand exponent _ =>
    let numerator := signed negative (significand * twoTo exponent.toNat)
    let denominator : Int := twoTo (-exponent).toNat
    if numerator % denominator = 0 then some (numerator / denominator) else none
  | _ => none

end Binary64

end TraceChart
