import TraceChart.Number.Decimal

/-!
Reading numbers from text: integers with an optional sign, and numbers with an optional sign,
point and exponent, or as one of the words for those that have no digits. The whole text must be
the number, without blanks.
-/

namespace TraceChart

def asciiDigit? (char : Char) : Option Digit :=
  if bounds : 48 ≤ char.toNat ∧ char.toNat - 48 < 10 then some ⟨char.toNat - 48, bounds.2⟩
  else none

def isDigit (char : Char) : Bool :=
  (asciiDigit? char).isSome

/-- The natural that a text of one or more digits denotes. -/
def readNatural? (text : List Char) : Option Nat :=
  if text = [] then none else (text.mapM asciiDigit?).map Digit.value

/-- The integer that digits with an optional sign denote. -/
def readInteger? : List Char → Option Int
  | '+' :: digits => (readNatural? digits).map fun value => (value : Int)
  | '-' :: digits => (readNatural? digits).map fun value => -(value : Int)
  | digits => (readNatural? digits).map fun value => (value : Int)

/-- The digits after a point, with the text that follows them. -/
def readFraction : List Char → List Digit × List Char
  | '.' :: text => ((text.takeWhile isDigit).filterMap asciiDigit?, text.dropWhile isDigit)
  | text => ([], text)

/-- The exponent that ends a numeral, which may be missing. -/
def readExponent? : List Char → Option (Option Int)
  | [] => some none
  | 'e' :: text => (readInteger? text).map some
  | 'E' :: text => (readInteger? text).map some
  | _ => none

/-- A numeral without sign, with at least one digit on either side of its point. -/
def readNumeral? (negative : Bool) (text : List Char) : Option Numeral := do
  let whole := (text.takeWhile isDigit).filterMap asciiDigit?
  let (fraction, rest) := readFraction (text.dropWhile isDigit)
  let exponent ← readExponent? rest
  if whole = [] ∧ fraction = [] then none else some ⟨negative, whole, fraction, exponent⟩

/-- A number without sign. Words may be in capitals. -/
def readUnsigned? (negative : Bool) (text : List Char) : Option Binary64 :=
  match String.ofList (text.map Char.toLower) with
  | "nan" => some .nan
  | "inf" => some (.infinite negative)
  | "infinity" => some (.infinite negative)
  | _ => (readNumeral? negative text).map Numeral.toBinary64

def readBinary64? : List Char → Option Binary64
  | '+' :: text => readUnsigned? false text
  | '-' :: text => readUnsigned? true text
  | text => readUnsigned? false text

end TraceChart
