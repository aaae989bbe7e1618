import TraceChart.Text.Unprinted

/-!
Text between quotation marks, as messages show it. What would end the quotation or show nothing is
escaped; all else stands as it is.
-/

namespace TraceChart

/-- The digits of a natural in base sixteen. -/
def hexDigits (number : Nat) : List Char :=
  Nat.toDigits 16 number

def quotedChar (char : Char) : List Char :=
  match char with
  | '\x00' => ['\\', '0']
  | '\t' => ['\\', 't']
  | '\n' => ['\\', 'n']
  | '\r' => ['\\', 'r']
  | '"' => ['\\', '"']
  | '\\' => ['\\', '\\']
  | char =>
    if isUnprinted char then ['\\', 'u', '\x7b'] ++ hexDigits char.toNat ++ ['\x7d'] else [char]

def quoted (text : String) : String :=
  String.ofList ('"' :: text.toList.flatMap quotedChar ++ ['"'])

end TraceChart
