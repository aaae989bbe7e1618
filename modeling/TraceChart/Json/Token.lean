import TraceChart.Json.Text

/-!
The tokens of a JSON document. `Token.readAll` cuts bytes into tokens and drops the white space
between them; each token takes at least one byte.
-/

namespace TraceChart.Json

inductive Token where
  | openArray
  | closeArray
  | openObject
  | closeObject
  | comma
  | colon
  | null
  | bool (value : Bool)
  | number (numeral : Numeral)
  | string (text : Text)
deriving DecidableEq, Repr

def isSpacing (byte : UInt8) : Bool :=
  byte == 0x20 || byte == 0x0A || byte == 0x0D || byte == 0x09

def digit? (byte : UInt8) : Option Digit :=
  if 0x30 ≤ byte ∧ byte ≤ 0x39 then some (Fin.ofNat 10 (byte.toNat - 0x30)) else none

/-- The digits at the front, on top of those already read, and what follows them. -/
def readDigits (reversed : List Digit) : List UInt8 → List Digit × List UInt8
  | [] => (reversed.reverse, [])
  | byte :: rest =>
    match digit? byte with
    | some digit => readDigits (digit :: reversed) rest
    | none => (reversed.reverse, byte :: rest)

/-- Digits without a superfluous leading zero. -/
def readWhole (bytes : List UInt8) : Option (List Digit × List UInt8) :=
  match readDigits [] bytes with
  | ([], _) => none
  | (first :: second :: digits, rest) =>
    if first = 0 then none else some (first :: second :: digits, rest)
  | read => some read

/-- A point with at least one digit, or nothing. -/
def readFraction : List UInt8 → Option (List Digit × List UInt8)
  | 0x2E :: rest =>
    match readDigits [] rest with
    | ([], _) => none
    | read => some read
  | bytes => some ([], bytes)

/-- At least one digit of an exponent whose sign has been read. -/
def readExponentDigits (negative : Bool) (bytes : List UInt8) : Option (Int × List UInt8) :=
  match readDigits [] bytes with
  | ([], _) => none
  | (digits, rest) => some (Binary64.signed negative (Digit.value digits), rest)

/-- An exponent mark with an optional sign and at least one digit, or nothing. -/
def readExponent : List UInt8 → Option (Option Int × List UInt8)
  | byte :: rest =>
    if byte = 0x65 ∨ byte = 0x45 then
      let read := match rest with
        | 0x2B :: rest => readExponentDigits false rest
        | 0x2D :: rest => readExponentDigits true rest
        | rest => readExponentDigits false rest
      read.map fun (exponent, rest) => (some exponent, rest)
    else some (none, byte :: rest)
  | [] => some (none, [])

/-- A number, as far as it reaches. -/
def readNumeral (bytes : List UInt8) : Option (Numeral × List UInt8) := do
  let (negative, bytes) := match bytes with
    | 0x2D :: rest => (true, rest)
    | bytes => (false, bytes)
  let (whole, bytes) ← readWhole bytes
  let (fraction, bytes) ← readFraction bytes
  let (exponent, bytes) ← readExponent bytes
  pure (⟨negative, whole, fraction, exponent⟩, bytes)

namespace Token

/-- The token at the front of bytes that do not begin with white space, and what follows it. -/
def read? : List UInt8 → Option (Token × List UInt8)
  | [] => none
  | 0x5B :: rest => some (.openArray, rest)
  | 0x5D :: rest => some (.closeArray, rest)
  | 0x7B :: rest => some (.openObject, rest)
  | 0x7D :: rest => some (.closeObject, rest)
  | 0x2C :: rest => some (.comma, rest)
  | 0x3A :: rest => some (.colon, rest)
  | 0x6E :: 0x75 :: 0x6C :: 0x6C :: rest => some (.null, rest)
  | 0x74 :: 0x72 :: 0x75 :: 0x65 :: rest => some (.bool true, rest)
  | 0x66 :: 0x61 :: 0x6C :: 0x73 :: 0x65 :: rest => some (.bool false, rest)
  | 0x22 :: rest =>
    (readPieces [] rest).map fun (pieces, rest) => (.string (Text.ofPieces pieces), rest)
  | bytes => (readNumeral bytes).map fun (numeral, rest) => (.number numeral, rest)

/-- Cut bytes into tokens, on top of those already read. The fuel is the number of tokens that
may still come; a byte for each is enough. -/
def readMany (reversed : List Token) : Nat → List UInt8 → Option (List Token)
  | fuel, bytes =>
    match bytes.dropWhile isSpacing with
    | [] => some reversed.reverse
    | byte :: rest =>
      match fuel with
      | 0 => none
      | fuel + 1 =>
        match read? (byte :: rest) with
        | some (token, rest) => readMany (token :: reversed) fuel rest
        | none => none

/-- All tokens of a document. -/
def readAll (bytes : List UInt8) : Option (List Token) :=
  readMany [] bytes.length bytes

end Token

end TraceChart.Json
