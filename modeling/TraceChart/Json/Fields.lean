import TraceChart.Json.Value

/-!
Records in JSON documents. A record is an object with a member for each field, in any order, or an
array with an item for each field, in their order. An object may have members that are no fields,
which may repeat; a field may not repeat, and every key must be text.
-/

namespace TraceChart.Json

def valuesOf (members : List (Text × Value)) (name : String) : List Value :=
  (members.filter fun member => decide (member.1 = some name)).map Prod.snd

/-- The value of a field that is present at most once. -/
def field? (members : List (Text × Value)) (name : String) : Option (Option Value) :=
  match valuesOf members name with
  | [] => some none
  | [value] => some (some value)
  | _ => none

/-- The values of the fields of an object, `none` for those that are missing. -/
def fieldsOfObject? (names : List String) (members : List (Text × Value)) :
    Option (List (Option Value)) :=
  if members.all fun member => member.1.isSome then names.mapM (field? members) else none

/-- The values of the fields of a record. In an array none may be missing. -/
def Value.fields? (names : List String) : Value → Option (List (Option Value))
  | .object members => fieldsOfObject? names members
  | .array items => if items.length = names.length then some (items.map some) else none
  | _ => none

end TraceChart.Json
