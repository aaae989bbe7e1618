import TraceChart.Number.Power

/-!
Binary64 numbers as exact dyadic values.

A finite number is a significand of at most 53 bits at a power of two, held at the least exponent
that has room for it, so each number has one representation. An operation computes its exact
result and rounds it once, to the nearest number and to the even significand on a tie. `rank`
places the numbers on the integers in their order; the two zeros share a rank.
-/

namespace TraceChart

/-- Two to the power of 53, which no significand reaches. -/
abbrev significandLimit : Nat := 9007199254740992

/-- Two to the power of 52, the least significand whose exponent cannot be lowered. -/
abbrev leastNormal : Nat := 4503599627370496

/-- A significand of at most 53 bits that stands at the least exponent that can hold it. -/
def Canonical (significand : Nat) (exponent : Int) : Prop :=
  significand < significandLimit ∧ -1074 ≤ exponent ∧ exponent ≤ 971 ∧
    (leastNormal ≤ significand ∨ exponent = -1074)

instance (significand : Nat) (exponent : Int) : Decidable (Canonical significand exponent) :=
  inferInstanceAs (Decidable (_ ∧ _))

/-- A binary64 number. Equality is identity: the one NaN equals itself, the two zeros differ. -/
inductive Binary64 where
  | nan
  | infinite (negative : Bool)
  | finite (negative : Bool) (significand : Nat) (exponent : Int)
      (canonical : Canonical significand exponent)
deriving DecidableEq

/-- The integer nearest to a quotient, the even one of two equally near. -/
def nearestEven (numerator denominator : Nat) : Nat :=
  let quotient := numerator / denominator
  let twice := 2 * (numerator % denominator)
  if twice < denominator then quotient
  else if denominator < twice then quotient + 1
  else quotient + quotient % 2

/-- The exponent of the greatest power of two that is at most a positive quotient. -/
def binade (numerator denominator : Nat) : Int :=
  let estimate : Int := (numerator.log2 : Int) - (denominator.log2 : Int)
  if denominator * twoTo estimate.toNat ≤ numerator * twoTo (-estimate).toNat then estimate
  else estimate - 1

namespace Binary64

def zero (negative : Bool) : Binary64 :=
  .finite negative 0 (-1074) (by decide)

/-- The number with these parts, infinite where no finite number has them. -/
def ofParts (negative : Bool) (significand : Nat) (exponent : Int) : Binary64 :=
  if canonical : Canonical significand exponent then
    .finite negative significand exponent canonical
  else .infinite negative

/-- The number nearest to a quotient of naturals with a positive denominator. -/
def round (negative : Bool) (numerator denominator : Nat) : Binary64 :=
  if numerator = 0 then zero negative
  else
    let exponent := max (-1074) (binade numerator denominator - 52)
    let significand :=
      nearestEven (numerator * twoTo (-exponent).toNat) (denominator * twoTo exponent.toNat)
    -- Rounding up may carry into the next binade.
    if significand = significandLimit then ofParts negative leastNormal (exponent + 1)
    else ofParts negative significand exponent

def roundScaled (negative : Bool) (significand : Nat) (exponent : Int) : Binary64 :=
  round negative (significand * twoTo exponent.toNat) (twoTo (-exponent).toNat)

def ofInt (value : Int) : Binary64 :=
  round (value < 0) value.natAbs 1

/-- The number nearest to a natural at a power of ten. Beyond 400 decimal places on either side
every number is infinite or zero, so no power of ten larger than that is formed. -/
def ofDecimal (negative : Bool) (digits : Nat) (scale : Int) : Binary64 :=
  if digits = 0 then zero negative
  else if 400 < scale then .infinite negative
  else if scale + digits.log2 < -400 then zero negative
  else round negative (digits * tenTo scale.toNat) (tenTo (-scale).toNat)

def isNaN : Binary64 → Bool
  | .nan => true
  | _ => false

def isFinite : Binary64 → Bool
  | .finite .. => true
  | _ => false

/-- The sign bit; NaN counts as unsigned. -/
def isNegative : Binary64 → Bool
  | .nan => false
  | .infinite negative => negative
  | .finite negative .. => negative

def neg : Binary64 → Binary64
  | .nan => .nan
  | .infinite negative => .infinite !negative
  | .finite negative significand exponent canonical =>
    .finite (!negative) significand exponent canonical

def signed (negative : Bool) (magnitude : Nat) : Int :=
  if negative then -(magnitude : Int) else magnitude

/-- Exact zero is negative only as the sum of two negative zeros. -/
def add : Binary64 → Binary64 → Binary64
  | .nan, _ => .nan
  | _, .nan => .nan
  | .infinite left, .infinite right => if left = right then .infinite left else .nan
  | .infinite left, .finite .. => .infinite left
  | .finite .., .infinite right => .infinite right
  | .finite leftSign left leftExponent _, .finite rightSign right rightExponent _ =>
    -- At the lesser exponent both significands are integers.
    let exponent := min leftExponent rightExponent
    let sum := signed leftSign (left * twoTo (leftExponent - exponent).toNat) +
      signed rightSign (right * twoTo (rightExponent - exponent).toNat)
    if sum = 0 then zero (leftSign && rightSign)
    else roundScaled (sum < 0) sum.natAbs exponent

def sub (left right : Binary64) : Binary64 :=
  left.add right.neg

def mul : Binary64 → Binary64 → Binary64
  | .nan, _ => .nan
  | _, .nan => .nan
  | .infinite left, .infinite right => .infinite (left ^^ right)
  | .infinite left, .finite right significand _ _ =>
    if significand = 0 then .nan else .infinite (left ^^ right)
  | .finite left significand _ _, .infinite right =>
    if significand = 0 then .nan else .infinite (left ^^ right)
  | .finite leftSign left leftExponent _, .finite rightSign right rightExponent _ =>
    roundScaled (leftSign ^^ rightSign) (left * right) (leftExponent + rightExponent)

def div : Binary64 → Binary64 → Binary64
  | .nan, _ => .nan
  | _, .nan => .nan
  | .infinite _, .infinite _ => .nan
  | .infinite left, .finite right _ _ _ => .infinite (left ^^ right)
  | .finite left _ _ _, .infinite right => zero (left ^^ right)
  | .finite leftSign left leftExponent _, .finite rightSign right rightExponent _ =>
    if right = 0 then
      if left = 0 then .nan else .infinite (leftSign ^^ rightSign)
    else
      let exponent := leftExponent - rightExponent
      round (leftSign ^^ rightSign) (left * twoTo exponent.toNat) (right * twoTo (-exponent).toNat)

instance : Add Binary64 := ⟨add⟩
instance : Sub Binary64 := ⟨sub⟩
instance : Mul Binary64 := ⟨mul⟩
instance : Div Binary64 := ⟨div⟩
instance : Neg Binary64 := ⟨neg⟩

instance : OfScientific Binary64 where
  ofScientific digits negativeScale scale :=
    ofDecimal false digits (if negativeScale then -(scale : Int) else scale)

/-- The place of a number among all numbers; consecutive numbers have consecutive ranks. -/
def rank : Binary64 → Int
  | .nan => 0
  | .infinite negative => signed negative (2047 * leastNormal)
  | .finite negative significand exponent _ =>
    signed negative ((exponent + 1074).toNat * leastNormal + significand)

/-- Strict order; NaN is below and above nothing. -/
def lt (left right : Binary64) : Bool :=
  !left.isNaN && !right.isNaN && decide (left.rank < right.rank)

/-- Order; NaN is not even at most itself. -/
def le (left right : Binary64) : Bool :=
  !left.isNaN && !right.isNaN && decide (left.rank ≤ right.rank)

end Binary64

end TraceChart
