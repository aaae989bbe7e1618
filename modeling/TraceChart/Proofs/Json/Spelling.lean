import Mathlib
import TraceChart.Json.Reader

/-!
# How JSON documents are spelled

A second account of JSON beside the reader, from values to bytes: a value has one list of tokens,
and each token may be spelled in many ways with white space between them. Numbers differ in the
mark and sign of their exponents, characters of strings in their escapes.
-/

namespace TraceChart

/-- The byte that writes a digit. -/
def Digit.byte (digit : Digit) : UInt8 :=
  UInt8.ofNat (0x30 + digit.val)

namespace Json

def Spacing (bytes : List UInt8) : Prop :=
  ∀ byte ∈ bytes, isSpacing byte = true

/-! ### Numbers -/

/-- A sign of an exponent, of which plus may be left out. -/
inductive SignSpelled : Bool → List UInt8 → Prop
  | absent : SignSpelled false []
  | plus : SignSpelled false [0x2B]
  | minus : SignSpelled true [0x2D]

/-- An exponent: a mark in either case, a sign and one or more digits, or nothing. -/
inductive ExponentSpelled : Option Int → List UInt8 → Prop
  | absent : ExponentSpelled none []
  | present {negative : Bool} {sign : List UInt8} (mark : UInt8) (digits : List Digit)
      (letter : mark = 0x65 ∨ mark = 0x45) (signed : SignSpelled negative sign)
      (written : digits ≠ []) :
      ExponentSpelled (some (Binary64.signed negative (Digit.value digits)))
        (mark :: sign ++ digits.map Digit.byte)

/-- A number: its whole digits begin with zero only where that is all of them. -/
inductive NumeralSpelled : Numeral → List UInt8 → Prop
  | parts {mark : Option Int} {exponent : List UInt8} (negative : Bool) (first : Digit)
      (whole fraction : List Digit) (leading : first = Digit.zero → whole = [])
      (raised : ExponentSpelled mark exponent) :
      NumeralSpelled ⟨negative, first :: whole, fraction, mark⟩
        ((if negative then [0x2D] else []) ++ (first :: whole).map Digit.byte ++
          (if fraction = [] then [] else 0x2E :: fraction.map Digit.byte) ++ exponent)

/-! ### Strings -/

/-- A character of a string: as it stands, by a short escape, by its number, or by the numbers of
a pair of surrogates. -/
inductive CharSpelled : Char → List UInt8 → Prop
  | literal (char : Char) (printed : 0x20 ≤ char.toNat) (unquoted : char ≠ '"')
      (unescaped : char ≠ '\\') : CharSpelled char (String.utf8EncodeChar char)
  | short (letter byte : UInt8) (known : shortEscape? letter = some byte) :
      CharSpelled (Char.ofNat byte.toNat) [0x5C, letter]
  | unit (char : Char) (first second third fourth : UInt8)
      (number : unit? first second third fourth = some char.toNat) :
      CharSpelled char [0x5C, 0x75, first, second, third, fourth]
  | pair (char : Char) (leading trailing : Nat)
      (first second third fourth fifth sixth seventh eighth : UInt8)
      (front : unit? first second third fourth = some leading)
      (back : unit? fifth sixth seventh eighth = some trailing)
      (opens : isLeading leading = true) (closes : isTrailing trailing = true)
      (number : char.toNat = 0x10000 + (leading - 0xD800) * 0x400 + (trailing - 0xDC00)) :
      CharSpelled char [0x5C, 0x75, first, second, third, fourth,
        0x5C, 0x75, fifth, sixth, seventh, eighth]

/-! ### Tokens and values -/

inductive TokenSpelled : Token → List UInt8 → Prop
  | openArray : TokenSpelled .openArray [0x5B]
  | closeArray : TokenSpelled .closeArray [0x5D]
  | openObject : TokenSpelled .openObject [0x7B]
  | closeObject : TokenSpelled .closeObject [0x7D]
  | comma : TokenSpelled .comma [0x2C]
  | colon : TokenSpelled .colon [0x3A]
  | null : TokenSpelled .null [0x6E, 0x75, 0x6C, 0x6C]
  | trueWord : TokenSpelled (.bool true) [0x74, 0x72, 0x75, 0x65]
  | falseWord : TokenSpelled (.bool false) [0x66, 0x61, 0x6C, 0x73, 0x65]
  | number {numeral : Numeral} {bytes : List UInt8} (spelled : NumeralSpelled numeral bytes) :
      TokenSpelled (.number numeral) bytes
  | string {text : String} {chars : List (List UInt8)}
      (spelled : List.Forall₂ CharSpelled text.toList chars) :
      TokenSpelled (.string (some text)) (0x22 :: chars.flatten ++ [0x22])

/-- Tokens one after the other, with white space before and after each. -/
inductive Lexed : List Token → List UInt8 → Prop
  | done {blanks : List UInt8} (spacing : Spacing blanks) : Lexed [] blanks
  | token {blanks bytes rest : List UInt8} {token : Token} {tokens : List Token}
      (spacing : Spacing blanks) (spelled : TokenSpelled token bytes) (more : Lexed tokens rest) :
      Lexed (token :: tokens) (blanks ++ bytes ++ rest)

/-- A text without quotation marks, backslashes and control characters may stand as it is. -/
theorem TokenSpelled.plain (text : String)
    (printed : ∀ char ∈ text.toList, 0x20 ≤ char.toNat ∧ char ≠ '"' ∧ char ≠ '\\') :
    TokenSpelled (.string (some text))
      (0x22 :: (text.toList.map String.utf8EncodeChar).flatten ++ [0x22]) := by
  apply TokenSpelled.string
  rw [List.forall₂_map_right_iff, List.forall₂_same]
  intro char member
  obtain ⟨visible, unquoted, unescaped⟩ := printed char member
  exact .literal char visible unquoted unescaped

theorem Lexed.next {token : Token} {tokens : List Token} {bytes rest : List UInt8}
    (spelled : TokenSpelled token bytes) (more : Lexed tokens rest) :
    Lexed (token :: tokens) (bytes ++ rest) :=
  @Lexed.token [] bytes rest token tokens (List.forall_mem_nil _) spelled more

theorem Lexed.blank {token : Token} {tokens : List Token} {bytes rest : List UInt8}
    (spelled : TokenSpelled token bytes) (more : Lexed tokens rest) :
    Lexed (token :: tokens) (0x20 :: bytes ++ rest) :=
  @Lexed.token [0x20] bytes rest token tokens (List.forall_mem_singleton.mpr rfl) spelled more

mutual

/-- The tokens of a value. -/
def Value.tokens : Value → List Token
  | .null => [.null]
  | .bool value => [.bool value]
  | .number numeral => [.number numeral]
  | .string text => [.string text]
  | .array items => .openArray :: Value.itemTokens items ++ [.closeArray]
  | .object members => .openObject :: Value.memberTokens members ++ [.closeObject]

def Value.itemTokens : List Value → List Token
  | [] => []
  | [item] => item.tokens
  | item :: items => item.tokens ++ .comma :: Value.itemTokens items

def Value.memberTokens : List (Text × Value) → List Token
  | [] => []
  | [(key, value)] => .string key :: .colon :: value.tokens
  | (key, value) :: members =>
    .string key :: .colon :: value.tokens ++ .comma :: Value.memberTokens members

end

/-- A document that holds a value. -/
def Value.Spelled (value : Value) (bytes : List UInt8) : Prop :=
  Lexed value.tokens bytes

end Json

end TraceChart
