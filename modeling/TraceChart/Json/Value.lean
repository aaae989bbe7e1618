import TraceChart.Number.Decimal

/-!
JSON documents. A value keeps what a document says and drops how it is spelled: white space and
the choice of escapes go, the order and repetition of members and the parts of each number stay.
-/

namespace TraceChart.Json

/-- What a string denotes: nothing where its bytes and escapes form no Unicode text. -/
abbrev Text := Option String

inductive Value where
  | null
  | bool (value : Bool)
  | number (numeral : Numeral)
  | string (text : Text)
  | array (items : List Value)
  | object (members : List (Text × Value))

end TraceChart.Json
