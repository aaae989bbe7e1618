import TraceChart.Number.Decimal

/-!
How the parts of a written number become a number. To round the exact value once is the best that
can be done; to round the digits first and then scale them by a power of ten is the way of readers
that keep the digits in a word. The two agree on most numerals, and a reader takes the conversion
that it uses as an argument.
-/

namespace TraceChart

abbrev Conversion := Numeral → Binary64

namespace Conversion

/-- The number nearest to the exact value. -/
def nearest : Conversion :=
  Numeral.toBinary64

def greatestWord : Nat := 18446744073709551615

/-- Append digits to a word as long as they fit, with the digits that are left over. -/
def fillWord (word : Nat) : List Digit → Nat × List Digit
  | [] => (word, [])
  | digit :: digits =>
    let next := 10 * word + digit.val
    if next ≤ greatestWord then fillWord next digits else (word, digit :: digits)

def greatestPower : Nat := 308

def power (exponent : Nat) : Binary64 :=
  .ofDecimal false 1 exponent

/-- Divide by a power of ten, twice where it is not at hand. -/
def lower (number : Binary64) (exponent : Nat) : Binary64 :=
  if exponent ≤ greatestPower then number / power exponent
  else if exponent ≤ 2 * greatestPower then
    number / power greatestPower / power (exponent - greatestPower)
  else .zero false

/-- Multiply by a power of ten. Only zero has a product with one that is not at hand. -/
def raise (number : Binary64) (exponent : Nat) : Binary64 :=
  if exponent ≤ greatestPower then number * power exponent
  else if number = .zero false then number
  else .infinite false

/-- A word at a power of ten, where the word is rounded before it is scaled. -/
def scale (word : Nat) (exponent : Int) : Binary64 :=
  if exponent < 0 then lower (.ofInt word) exponent.natAbs
  else raise (.ofInt word) exponent.toNat

/-- Digits first, then the power of ten. Digits of the whole part that the word has no room for
raise the power, and those of the fraction are dropped. -/
def stepwise : Conversion := fun numeral =>
  let (whole, wholeRest) := fillWord 0 numeral.whole
  let (word, fractionRest) := fillWord whole numeral.fraction
  let taken : Int := numeral.fraction.length - fractionRest.length
  let number := scale word (wholeRest.length - taken + numeral.exponent.getD 0)
  if numeral.negative then -number else number

end Conversion

end TraceChart
