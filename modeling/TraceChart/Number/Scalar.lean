import TraceChart.Number.Decade
import TraceChart.Number.Fixed
import TraceChart.Number.Style

/-!
What the library needs of the numbers in which times and lengths are measured. Binary64 numbers
are those that run; exact rationals are another instance, in which laws of layout hold without
rounding.
-/

namespace TraceChart

/-- Numbers for times and lengths. `le` is false where either side is no number. -/
class Scalar (α : Type) extends Add α, Sub α, Mul α, Div α, OfScientific α where
  lt : α → α → Bool
  le : α → α → Bool
  isFinite : α → Bool
  ofInt : Int → α
  floor : α → Extended
  ceil : α → Extended
  truncate : α → Extended
  nearest : α → Extended
  decade : α → Extended
  powerOfTen : Extended → α
  /-- Digits without an exponent. -/
  plainText : α → String
  /-- The text of a duration in a caption. -/
  durationText : α → String
  /-- Digits with a set number of decimal places. -/
  fixedText : Nat → α → String
  /-- Whether numbers can be written with so many decimal places. -/
  takesPlaces : Nat → Bool

namespace Scalar

variable {α : Type} [Scalar α]

/-- The greater of two numbers, the second of two equal ones, and a number rather than none. -/
def larger (left right : α) : α :=
  if lt right left || !le right right then left else right

/-- The lesser of two numbers, the second of two equal ones, and a number rather than none. -/
def smaller (left right : α) : α :=
  if lt left right || !le right right then left else right

/-- The number of a range that is nearest, unless the ends are out of order or no numbers. -/
def clamp? (value low high : α) : Option α :=
  if le low high then
    some (if lt value low then low else if lt high value then high else value)
  else none

def magnitude (value : α) : α :=
  if lt value 0.0 then 0.0 - value else value

def ofNat (value : Nat) : α :=
  ofInt value

end Scalar

namespace Binary64

/-- A duration in a caption always shows a fraction or a signed exponent of two digits. -/
def durationStyle : Style where
  positional := some (-4, 16)
  pointZero := true
  exponentPlus := true
  exponentWidth := 2
  tie := .up
  nan := "nan"
  infinity := "inf"

/-- The most decimal places that a number is written with. -/
def mostPlaces : Nat := 65535

instance : Scalar Binary64 where
  lt := lt
  le := le
  isFinite := isFinite
  ofInt := ofInt
  floor := floor
  ceil := ceil
  truncate := truncate
  nearest := nearest
  decade := decade
  powerOfTen := powerOfTen
  plainText := Style.plain.text
  durationText := durationStyle.text
  fixedText := fixed
  takesPlaces places := decide (places ≤ mostPlaces)

end Binary64

end TraceChart
