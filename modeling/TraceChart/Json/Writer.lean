import TraceChart.Json.Value
import TraceChart.Number.Style

/-!
Writing JSON documents, compactly on one line or spread over lines with two blanks a level.
Strings keep every character but the quotation mark, the backslash and the control characters
below the blank.
-/

namespace TraceChart.Json

/-- Numbers show a fraction or a signed exponent and are written with the even digit on a tie. -/
def numberStyle : Style where
  positional := some (-5, 16)
  pointZero := true
  exponentPlus := true
  exponentWidth := 1
  tie := .even
  nan := "null"
  infinity := "null"

/-- A number that has a JSON form, and `null` otherwise. -/
def Value.ofBinary64 (number : Binary64) : Value :=
  match numberStyle.numeral? number with
  | some numeral => .number numeral
  | none => .null

def Value.ofInt (number : Int) : Value :=
  .number ⟨number < 0, Digit.ofNat number.natAbs, [], none⟩

def Value.ofString (text : String) : Value :=
  .string (some text)

def hexChar (value : Nat) : Char :=
  if value < 10 then Char.ofNat (48 + value) else Char.ofNat (87 + value)

/-- A character as it stands inside a string. -/
def escapeChar (char : Char) : List Char :=
  match char with
  | '"' => ['\\', '"']
  | '\\' => ['\\', '\\']
  | '\x08' => ['\\', 'b']
  | '\x0c' => ['\\', 'f']
  | '\n' => ['\\', 'n']
  | '\r' => ['\\', 'r']
  | '\t' => ['\\', 't']
  | char =>
    if char.toNat < 0x20 then
      ['\\', 'u', '0', '0', hexChar (char.toNat / 16), hexChar (char.toNat % 16)]
    else [char]

def quote (text : String) : String :=
  String.ofList ('"' :: text.toList.flatMap escapeChar ++ ['"'])

/-- A string that denotes no text has no written form; it is written empty. -/
def Text.quote (text : Text) : String :=
  Json.quote (text.getD "")

def numeralText (numeral : Numeral) : String :=
  String.ofList (numeral.chars numberStyle.exponentPlus numberStyle.exponentWidth)

mutual

def Value.compact : Value → String
  | .null => "null"
  | .bool value => if value then "true" else "false"
  | .number numeral => numeralText numeral
  | .string text => text.quote
  | .array items => "[" ++ Value.compactItems items ++ "]"
  | .object members => "\x7b" ++ Value.compactMembers members ++ "\x7d"

def Value.compactItems : List Value → String
  | [] => ""
  | [item] => item.compact
  | item :: items => item.compact ++ "," ++ Value.compactItems items

def Value.compactMembers : List (Text × Value) → String
  | [] => ""
  | [(key, value)] => key.quote ++ ":" ++ value.compact
  | (key, value) :: members =>
    key.quote ++ ":" ++ value.compact ++ "," ++ Value.compactMembers members

end

def lineBreak (level : Nat) : String :=
  String.ofList ('\n' :: List.replicate (2 * level) ' ')

mutual

/-- A value spread over lines, at a level of nesting. Empty arrays and objects stay on one line. -/
def Value.pretty (level : Nat) : Value → String
  | .null => "null"
  | .bool value => if value then "true" else "false"
  | .number numeral => numeralText numeral
  | .string text => text.quote
  | .array [] => "[]"
  | .array items => "[" ++ Value.prettyItems (level + 1) items ++ lineBreak level ++ "]"
  | .object [] => "\x7b\x7d"
  | .object members =>
    "\x7b" ++ Value.prettyMembers (level + 1) members ++ lineBreak level ++ "\x7d"

def Value.prettyItems (level : Nat) : List Value → String
  | [] => ""
  | [item] => lineBreak level ++ item.pretty level
  | item :: items =>
    lineBreak level ++ item.pretty level ++ "," ++ Value.prettyItems level items

def Value.prettyMembers (level : Nat) : List (Text × Value) → String
  | [] => ""
  | [(key, value)] => lineBreak level ++ key.quote ++ ": " ++ value.pretty level
  | (key, value) :: members =>
    lineBreak level ++ key.quote ++ ": " ++ value.pretty level ++ "," ++
      Value.prettyMembers level members

end

end TraceChart.Json
