import TraceChart.Number.Shortest

/-!
How a number becomes text: which digits, and how they are laid out. The digits are the fewest that
read back. A `Style` holds the choices of a format; each part of the program that writes numbers
names its own.
-/

namespace TraceChart

structure Style where
  /-- The exponents of the leading digit that are written without exponent; `none` takes all. -/
  positional : Option (Int × Int)
  /-- Give an integral number one fraction digit. -/
  pointZero : Bool
  /-- Sign a positive exponent. -/
  exponentPlus : Bool
  /-- The least number of exponent digits. -/
  exponentWidth : Nat
  tie : Tie
  nan : String
  infinity : String

namespace Style

/-- Whether a leading digit at this exponent is written without an exponent. -/
def isPositional (style : Style) (leading : Int) : Bool :=
  match style.positional with
  | none => true
  | some (low, high) => decide (low ≤ leading ∧ leading < high)

/-- Digits with the point after a number of them, which may be negative or beyond their end. -/
def place (negative : Bool) (digits : List Digit) (point : Int) (pointZero : Bool) : Numeral :=
  if point ≤ 0 then
    ⟨negative, [Digit.zero], List.replicate point.natAbs Digit.zero ++ digits, none⟩
  else
    let whole := digits.take point.toNat ++ List.replicate (point.toNat - digits.length) Digit.zero
    let fraction := digits.drop point.toNat
    ⟨negative, whole, if fraction = [] ∧ pointZero = true then [Digit.zero] else fraction, none⟩

def arrange (style : Style) (negative : Bool) (decimal : Decimal) : Numeral :=
  let digits := Digit.ofNat decimal.digits
  let leading := decimal.scale + digits.length - 1
  if decimal.digits = 0 then place negative [Digit.zero] 1 style.pointZero
  else if style.isPositional leading then place negative digits (leading + 1) style.pointZero
  else ⟨negative, digits.take 1, digits.drop 1, some leading⟩

def numeral? (style : Style) : Binary64 → Option Numeral
  | .finite negative significand exponent _ =>
    some (style.arrange negative
      (if significand = 0 then ⟨0, 0⟩ else Decimal.shortest style.tie significand exponent))
  | _ => none

def text (style : Style) (number : Binary64) : String :=
  match style.numeral? number with
  | some numeral => String.ofList (numeral.chars style.exponentPlus style.exponentWidth)
  | none =>
    if number.isNaN then style.nan
    else if number.isNegative then "-" ++ style.infinity
    else style.infinity

/-- Never an exponent, and no point after an integral number. -/
def plain : Style where
  positional := none
  pointZero := false
  exponentPlus := false
  exponentWidth := 1
  tie := .up
  nan := "NaN"
  infinity := "inf"

/-- Always a fraction or an exponent, so that a number is never taken for an integer. -/
def marked : Style where
  positional := some (-4, 16)
  pointZero := true
  exponentPlus := false
  exponentWidth := 1
  tie := .up
  nan := "NaN"
  infinity := "inf"

end Style

end TraceChart
