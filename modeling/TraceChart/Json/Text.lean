import TraceChart.Json.Value

/-!
The inside of a JSON string. A string is lexically sound or not by its bytes alone: `readPieces`
finds its end. What it denotes is a second question, which `Text.ofPieces` answers: surrogate
escapes must pair up, and the bytes must be UTF-8.
-/

namespace TraceChart.Json

/-- A byte of a string, as it stands or by a short escape, or a sixteen-bit unit by its number. -/
inductive Piece where
  | byte (value : UInt8)
  | unit (value : Nat)
deriving DecidableEq, Repr

def hexDigit? (byte : UInt8) : Option Nat :=
  if 0x30 ≤ byte ∧ byte ≤ 0x39 then some (byte.toNat - 0x30)
  else if 0x41 ≤ byte ∧ byte ≤ 0x46 then some (byte.toNat - 0x37)
  else if 0x61 ≤ byte ∧ byte ≤ 0x66 then some (byte.toNat - 0x57)
  else none

/-- The sixteen-bit unit that four hexadecimal digits denote. -/
def unit? (first second third fourth : UInt8) : Option Nat := do
  let first ← hexDigit? first
  let second ← hexDigit? second
  let third ← hexDigit? third
  let fourth ← hexDigit? fourth
  pure (((first * 16 + second) * 16 + third) * 16 + fourth)

/-- The byte that a letter after a backslash stands for. -/
def shortEscape? (letter : UInt8) : Option UInt8 :=
  match letter with
  | 0x22 => some 0x22 -- quotation mark
  | 0x5C => some 0x5C -- backslash
  | 0x2F => some 0x2F -- slash
  | 0x62 => some 0x08 -- b
  | 0x66 => some 0x0C -- f
  | 0x6E => some 0x0A -- n
  | 0x72 => some 0x0D -- r
  | 0x74 => some 0x09 -- t
  | _ => none

/-- Read up to the closing quotation mark: the pieces, on top of those already read, and what
follows the mark. -/
def readPieces (reversed : List Piece) : List UInt8 → Option (List Piece × List UInt8)
  | [] => none
  | 0x22 :: rest => some (reversed.reverse, rest)
  | 0x5C :: 0x75 :: first :: second :: third :: fourth :: rest =>
    match unit? first second third fourth with
    | some unit => readPieces (.unit unit :: reversed) rest
    | none => none
  | 0x5C :: letter :: rest =>
    match shortEscape? letter with
    | some byte => readPieces (.byte byte :: reversed) rest
    | none => none
  | byte :: rest =>
    if byte < 0x20 ∨ byte = 0x5C then none
    else readPieces (.byte byte :: reversed) rest

/-- The first unit of a pair. -/
def isLeading (unit : Nat) : Bool :=
  decide (0xD800 ≤ unit ∧ unit < 0xDC00)

/-- The second unit of a pair. -/
def isTrailing (unit : Nat) : Bool :=
  decide (0xDC00 ≤ unit ∧ unit < 0xE000)

/-- The bytes of a string, where its surrogates pair up. -/
def Text.bytes? : List Piece → Option (List UInt8)
  | [] => some []
  | .byte byte :: rest => (bytes? rest).map (byte :: ·)
  | .unit leading :: .unit trailing :: rest =>
    if isLeading leading then
      if isTrailing trailing then
        let scalar := 0x10000 + (leading - 0xD800) * 0x400 + (trailing - 0xDC00)
        (bytes? rest).map (String.utf8EncodeChar (Char.ofNat scalar) ++ ·)
      else none
    else if isTrailing leading then none
    else (bytes? (.unit trailing :: rest)).map (String.utf8EncodeChar (Char.ofNat leading) ++ ·)
  | .unit unit :: rest =>
    if isLeading unit || isTrailing unit then none
    else (bytes? rest).map (String.utf8EncodeChar (Char.ofNat unit) ++ ·)

/-- The text that the pieces of a string denote. -/
def Text.ofPieces (pieces : List Piece) : Text := do
  let bytes ← Text.bytes? pieces
  String.fromUTF8? ⟨bytes.toArray⟩

end TraceChart.Json
