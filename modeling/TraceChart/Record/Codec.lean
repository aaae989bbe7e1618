import TraceChart.Json.Fields
import TraceChart.Json.Reader
import TraceChart.Json.Writer
import TraceChart.Number.Conversion
import TraceChart.Trace.Code

/-!
Values in serialized form. `encode` writes every field of a record, in order; `decode?` also takes
the other forms that stand for the same value: members in any order and among others, records as
arrays, and alternatives without content as objects.
-/

namespace TraceChart

/-- A type whose values have a serialized form. To read a value takes a conversion of numerals. -/
class Codec (δ : Type) where
  encode : δ → Json.Value
  decode? : Conversion → Json.Value → Option δ

namespace Codec

def write {δ : Type} [Codec δ] (value : δ) : String :=
  (encode value).compact

def read? {δ : Type} [Codec δ] (convert : Conversion) (text : String) : Option δ := do
  let json ← Json.Value.ofString? text
  decode? convert json

instance : Codec String where
  encode := Json.Value.ofString
  decode? _
    | .string text => text
    | _ => none

instance : Codec Bool where
  encode := .bool
  decode? _
    | .bool value => some value
    | _ => none

/-- Integers that fit into sixty-four bits with a sign. -/
instance : Codec Int where
  encode := Json.Value.ofInt
  decode? _
    | .number numeral => numeral.integer?.filter fitsWord
    | _ => none

/-- Only finite numbers can be read back. -/
instance : Codec Binary64 where
  encode := Json.Value.ofBinary64
  decode? convert
    | .number numeral =>
      let value := convert numeral
      if value.isFinite then some value else none
    | _ => none

instance {δ : Type} [Codec δ] : Codec (List δ) where
  encode values := .array (values.map encode)
  decode? convert
    | .array items => items.mapM (decode? convert)
    | _ => none

instance {δ : Type} [Codec δ] : Codec (Option δ) where
  encode
    | some value => encode value
    | none => .null
  decode? convert
    | .null => some none
    | value => (decode? convert value).map some

def required? {δ : Type} [Codec δ] (convert : Conversion) (field : Option Json.Value) :
    Option δ := do
  let value ← field
  decode? convert value

def optional? {δ : Type} [Codec δ] (convert : Conversion) :
    Option Json.Value → Option (Option δ)
  | some value => decode? convert value
  | none => some none

def members (members : List (String × Json.Value)) : Json.Value :=
  .object (members.map fun (name, value) => (some name, value))

/-- An alternative that carries content. -/
def tagged (name : String) (content : Json.Value) : Json.Value :=
  members [(name, content)]

/-- The name of an alternative with its content, `none` for the short form without content. -/
def alternative? : Json.Value → Option (String × Option Json.Value)
  | .string (some name) => some (name, none)
  | .object [(some name, content)] => some (name, some content)
  | _ => none

/-- The name of an alternative without content, which may be written as null. -/
def bareName? (value : Json.Value) : Option String :=
  match alternative? value with
  | some (name, none) => some name
  | some (name, some .null) => some name
  | _ => none

/-- One of some values, each written as its name. -/
def choose? {δ : Type} (names : List (String × δ)) (value : Json.Value) : Option δ := do
  let name ← bareName? value
  names.lookup name

end Codec

end TraceChart
