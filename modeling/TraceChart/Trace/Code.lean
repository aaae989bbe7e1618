import TraceChart.Json.Value
import TraceChart.Number.Conversion
import TraceChart.Number.Extended
import TraceChart.Number.Reading
import TraceChart.Number.Style
import TraceChart.Text.Blank

/-!
Codes of categories and events. A trace writes a code as an integer, as a number that is equal to
one, or as a string that holds one.
-/

namespace TraceChart

inductive Code where
  | integer (value : Int)
  | number (value : Binary64)
  | text (value : String)
deriving DecidableEq

/-- Whether an integer fits into sixty-four bits with a sign. -/
def fitsWord (value : Int) : Bool :=
  decide (-9223372036854775808 ≤ value ∧ value ≤ 9223372036854775807)

namespace Code

/-- How a JSON value writes a code. An integer that is too large for a word is a number like any
other; numbers beyond all finite ones, and values of other kinds, are no codes. -/
def ofJson? (convert : Conversion) : Json.Value → Option Code
  | .number numeral =>
    match numeral.integer?.filter fitsWord with
    | some value => some (.integer value)
    | none =>
      let value := convert numeral
      if value.isFinite then some (.number value) else none
  | .string (some value) => some (.text value)
  | _ => none

def toInt? : Code → Option Int
  | .integer value => some value
  | .number value => value.integer?.filter fitsWord
  | .text value => (readInteger? (trim value.toList)).filter fitsWord

def describe : Code → String
  | .integer value => toString value
  | .number value => Style.marked.text value
  | .text value => value

end Code

end TraceChart
