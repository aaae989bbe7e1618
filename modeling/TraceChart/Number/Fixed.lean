import TraceChart.Number.Decimal

/-!
Numbers with a set number of decimal places: the exact value rounded once, to the even last digit
on a tie. The sign is kept also where all digits are zero.
-/

namespace TraceChart

/-- A quotient rounded to some decimal places. -/
def fixedNumeral (negative : Bool) (places numerator denominator : Nat) : Numeral :=
  let scaled := nearestEven (numerator * tenTo places) denominator
  let digits := Digit.ofNat scaled
  let padded := List.replicate (places + 1 - digits.length) Digit.zero ++ digits
  let point := padded.length - places
  ⟨negative, padded.take point, padded.drop point, none⟩

/-- The text of a quotient with a set number of places. -/
def fixedText (negative : Bool) (places numerator denominator : Nat) : String :=
  String.ofList ((fixedNumeral negative places numerator denominator).chars false 1)

namespace Binary64

def fixed (places : Nat) : Binary64 → String
  | .nan => "NaN"
  | .infinite negative => if negative then "-inf" else "inf"
  | .finite negative significand exponent _ =>
    fixedText negative places (significand * twoTo exponent.toNat) (twoTo (-exponent).toNat)

end Binary64

end TraceChart
