import TraceChart.Proofs.Json.Grammar

/-!
# Lexing

Bytes that have the form of tokens are cut into these tokens. The only token whose end is not its
own is a number, which ends where none of its bytes follows; this is why no two numbers may meet.
-/

namespace TraceChart

@[simp] theorem Digit.digit?_byte (digit : Digit) : Json.digit? digit.byte = some digit := by
  revert digit
  decide

theorem Digit.byte_ne_sign (digit : Digit) : digit.byte ≠ 0x2B ∧ digit.byte ≠ 0x2D := by
  revert digit
  decide

theorem Digit.isSpacing_byte (digit : Digit) : Json.isSpacing digit.byte = false := by
  revert digit
  decide

namespace Json

/-! ### Numbers -/

/-- No digit comes next. -/
def NoDigit (bytes : List UInt8) : Prop :=
  ∀ byte ∈ bytes.head?, digit? byte = none

theorem readDigits_append (reversed digits : List Digit) (rest : List UInt8)
    (ended : NoDigit rest) :
    readDigits reversed (digits.map Digit.byte ++ rest) = (reversed.reverse ++ digits, rest) := by
  induction digits generalizing reversed with
  | nil =>
    cases rest with
    | nil => simp [readDigits]
    | cons byte rest =>
      have other : digit? byte = none := ended byte rfl
      simp [readDigits, other]
  | cons digit digits ih => simp [readDigits, ih]

/-- What may follow a number without becoming a part of it. -/
def Ended (bytes : List UInt8) : Prop :=
  ∀ byte ∈ bytes.head?, digit? byte = none ∧ byte ≠ 0x2E ∧ byte ≠ 0x65 ∧ byte ≠ 0x45

theorem Ended.noDigit {bytes : List UInt8} (ended : Ended bytes) : NoDigit bytes :=
  fun byte member => (ended byte member).1

theorem readWhole_append (first : Digit) (whole : List Digit) (rest : List UInt8)
    (leading : first = Digit.zero → whole = []) (ended : NoDigit rest) :
    readWhole ((first :: whole).map Digit.byte ++ rest) = some (first :: whole, rest) := by
  unfold readWhole
  rw [readDigits_append [] _ rest ended]
  cases whole with
  | nil => rfl
  | cons second whole =>
    have nonzero : first ≠ 0 := fun zero => by simpa using leading zero
    simp [nonzero]

theorem readFraction_append (fraction : List Digit) (rest : List UInt8) (ended : NoDigit rest)
    (notPoint : ∀ byte ∈ rest.head?, byte ≠ 0x2E) :
    readFraction ((if fraction = [] then [] else 0x2E :: fraction.map Digit.byte) ++ rest) =
      some (fraction, rest) := by
  cases fraction with
  | nil =>
    cases rest with
    | nil => rfl
    | cons byte rest =>
      have other : byte ≠ 0x2E := notPoint byte rfl
      simp [readFraction, other]
  | cons digit fraction =>
    have read := readDigits_append [] (digit :: fraction) rest ended
    simp only [List.map_cons, List.cons_append, List.reverse_nil, List.nil_append] at read
    simp [readFraction, read]

theorem readExponentDigits_append (negative : Bool) (digits : List Digit) (rest : List UInt8)
    (written : digits ≠ []) (ended : NoDigit rest) :
    readExponentDigits negative (digits.map Digit.byte ++ rest) =
      some (Binary64.signed negative (Digit.value digits), rest) := by
  unfold readExponentDigits
  rw [readDigits_append [] _ rest ended]
  cases digits with
  | nil => exact absurd rfl written
  | cons digit digits => rfl

theorem readExponent_append {mark : Option Int} {exponent : List UInt8}
    (spelled : ExponentSpelled mark exponent) (rest : List UInt8) (ended : Ended rest) :
    readExponent (exponent ++ rest) = some (mark, rest) := by
  cases spelled with
  | absent =>
    cases rest with
    | nil => rfl
    | cons byte rest =>
      obtain ⟨_, _, small, large⟩ := ended byte rfl
      simp [readExponent, small, large]
  | present mark digits letter signed written =>
    have read := fun negative =>
      readExponentDigits_append negative digits rest written ended.noDigit
    cases signed with
    | absent =>
      cases digits with
      | nil => exact absurd rfl written
      | cons digit digits =>
        -- Where the sign is left out, the first digit must not be taken for one.
        obtain ⟨notPlus, notMinus⟩ := digit.byte_ne_sign
        have digitsRead := read false
        simp only [List.map_cons, List.cons_append] at digitsRead
        simp [readExponent, letter, notPlus, notMinus, digitsRead]
    | plus => simp [readExponent, letter, read]
    | minus => simp [readExponent, letter, read]

/-- Where an exponent, or what follows the number without one, leaves off the digits before it. -/
private theorem exponent_front {mark : Option Int} {exponent : List UInt8}
    (spelled : ExponentSpelled mark exponent) (rest : List UInt8) (ended : Ended rest) :
    ∀ byte ∈ (exponent ++ rest).head?, digit? byte = none ∧ byte ≠ 0x2E := by
  cases spelled with
  | absent => exact fun byte member => ⟨(ended byte member).1, (ended byte member).2.1⟩
  | present mark digits letter signed written =>
    rcases letter with rfl | rfl <;> simp <;> decide

theorem readNumeral_append {numeral : Numeral} {bytes : List UInt8}
    (spelled : NumeralSpelled numeral bytes) (rest : List UInt8) (ended : Ended rest) :
    readNumeral (bytes ++ rest) = some (numeral, rest) := by
  cases spelled with
  | @parts mark exponent negative first whole fraction leading raised =>
    -- From the back to the front, each part is shown to end where the next one begins.
    have front := exponent_front raised rest ended
    have noDigit : NoDigit (exponent ++ rest) := fun byte member => (front byte member).1
    have readExponent := readExponent_append raised rest ended
    have readFraction := readFraction_append fraction (exponent ++ rest) noDigit
      fun byte member => (front byte member).2
    have point : NoDigit ((if fraction = [] then [] else 0x2E :: fraction.map Digit.byte) ++
        (exponent ++ rest)) := by
      cases fraction with
      | nil => exact noDigit
      | cons digit fraction => simp [NoDigit]; decide
    have readWhole := readWhole_append first whole _ leading point
    cases negative with
    | true =>
      simp only [if_true, List.append_assoc, List.cons_append, List.nil_append, readNumeral,
        readWhole, readFraction, readExponent, Option.bind_eq_bind, Option.bind_some,
        Option.pure_def]
    | false =>
      have unsigned := first.byte_ne_sign.2
      simp only [Bool.false_eq_true, if_false, List.append_assoc, List.nil_append]
      rw [List.map_cons, List.cons_append] at readWhole ⊢
      simp [readNumeral, unsigned, readWhole, readFraction, readExponent]

/-! ### Strings -/

theorem readPieces_piece {piece : Piece} {bytes : List UInt8} (spelled : PieceSpelled piece bytes)
    (reversed : List Piece) (rest : List UInt8) :
    readPieces reversed (bytes ++ rest) = readPieces (piece :: reversed) rest := by
  cases spelled with
  | plain byte plain =>
    obtain ⟨printed, unquoted, unescaped⟩ := plain
    have printed : ¬ byte < 0x20 := UInt8.not_lt.mpr printed
    rw [List.singleton_append, readPieces] <;> simp_all
  | short letter byte known =>
    -- The letter that announces a unit is no short escape.
    have notUnit : letter ≠ 0x75 := by
      rintro rfl
      cases known
    simp [readPieces, known, notUnit]
  | unit first second third fourth number known => simp [readPieces, known]

/-- A string is read up to its closing mark. -/
theorem readPieces_append {pieces : List Piece} {chunks : List (List UInt8)}
    (spelled : List.Forall₂ PieceSpelled pieces chunks) (reversed : List Piece)
    (rest : List UInt8) :
    readPieces reversed (chunks.flatten ++ 0x22 :: rest) =
      some (reversed.reverse ++ pieces, rest) := by
  induction spelled generalizing reversed with
  | nil => simp [readPieces]
  | @cons piece chunk pieces chunks first _ ih =>
    rw [List.flatten_cons, List.append_assoc, readPieces_piece first, ih]
    simp

/-! ### Tokens -/

def Token.isNumber : Token → Bool
  | .number _ => true
  | _ => false

theorem numeral_front {numeral : Numeral} {bytes : List UInt8}
    (spelled : NumeralSpelled numeral bytes) :
    ∃ byte tail, bytes = byte :: tail ∧ (byte = 0x2D ∨ ∃ digit : Digit, byte = digit.byte) := by
  cases spelled with
  | parts negative first whole fraction leading raised =>
    cases negative with
    | true => exact ⟨0x2D, _, rfl, Or.inl rfl⟩
    | false => exact ⟨first.byte, _, rfl, Or.inr ⟨first, rfl⟩⟩

private theorem read?_of_numeral (byte : UInt8) (tail : List UInt8)
    (front : byte = 0x2D ∨ ∃ digit : Digit, byte = digit.byte) :
    Token.read? (byte :: tail) =
      (readNumeral (byte :: tail)).map fun (numeral, rest) => (.number numeral, rest) := by
  rcases front with rfl | ⟨digit, rfl⟩
  · rfl
  · fin_cases digit <;> rfl

/-- A token is read off the front of its bytes. -/
theorem read?_append {token : Token} {bytes : List UInt8} (form : TokenForm token bytes)
    (rest : List UInt8) (ended : token.isNumber = true → Ended rest) :
    Token.read? (bytes ++ rest) = some (token, rest) := by
  cases token with
  | string text =>
    obtain ⟨pieces, chunks, spelled, rfl, rfl⟩ := (stringForm_iff text bytes).mp form
    have read := readPieces_append spelled [] rest
    simp [Token.read?, read]
  | number numeral =>
    cases form with
    | number spelled =>
      have read := readNumeral_append spelled rest (ended rfl)
      obtain ⟨byte, tail, rfl, front⟩ := numeral_front spelled
      rw [List.cons_append] at read ⊢
      rw [read?_of_numeral byte _ front, read]
      rfl
  | bool truth => cases form <;> rfl
  | _ =>
    cases form
    rfl

/-- How a token begins: not with white space, and unless it is a number, with nothing that a
number before it could go on with. -/
theorem token_front {token : Token} {bytes : List UInt8} (form : TokenForm token bytes) :
    ∃ byte tail, bytes = byte :: tail ∧ isSpacing byte = false ∧
      (token.isNumber = false → Ended [byte]) := by
  cases token with
  | string text =>
    obtain ⟨_, chunks, _, rfl, _⟩ := (stringForm_iff text bytes).mp form
    exact ⟨_, _, rfl, rfl, fun _ => by simp [Ended]; decide⟩
  | number numeral =>
    cases form with
    | number spelled =>
      obtain ⟨byte, tail, rfl, front⟩ := numeral_front spelled
      refine ⟨byte, tail, rfl, ?_, nofun⟩
      rcases front with rfl | ⟨digit, rfl⟩
      · rfl
      · exact digit.isSpacing_byte
  | bool truth => cases form <;> exact ⟨_, _, rfl, rfl, fun _ => by simp [Ended]; decide⟩
  | _ =>
    cases form
    exact ⟨_, _, rfl, rfl, fun _ => by simp [Ended]; decide⟩

/-- No number comes right after another. -/
def Separated (tokens : List Token) : Prop :=
  tokens.IsChain fun token next => token.isNumber = true → next.isNumber = false

theorem ended_of_isSpacing (byte : UInt8) (spacing : isSpacing byte = true) : Ended [byte] := by
  have known : byte = 0x20 ∨ byte = 0x0A ∨ byte = 0x0D ∨ byte = 0x09 := by
    simpa [isSpacing, or_assoc] using spacing
  rcases known with rfl | rfl | rfl | rfl <;> simp [Ended] <;> decide

theorem ended_of_cut {tokens : List Token} {bytes : List UInt8} (cut : Cut tokens bytes)
    (next : ∀ token ∈ tokens.head?, token.isNumber = false) : Ended bytes := by
  cases cut with
  | done spacing =>
    cases bytes with
    | nil => exact nofun
    | cons byte blanks => exact ended_of_isSpacing byte (spacing byte List.mem_cons_self)
  | @token blanks _ rest token _ spacing form _ =>
    cases blanks with
    | nil =>
      obtain ⟨byte, tail, rfl, _, ended⟩ := token_front form
      exact ended (next token rfl)
    | cons byte blanks => exact ended_of_isSpacing byte (spacing byte List.mem_cons_self)

theorem readMany_of_cut {tokens : List Token} {bytes : List UInt8} (cut : Cut tokens bytes)
    (separated : Separated tokens) (reversed : List Token) (fuel : Nat)
    (enough : tokens.length ≤ fuel) :
    Token.readMany reversed fuel bytes = some (reversed.reverse ++ tokens) := by
  induction cut generalizing reversed fuel with
  | @done blanks spacing =>
    have dropped : blanks.dropWhile isSpacing = [] := List.dropWhile_eq_nil_iff.mpr spacing
    rw [Token.readMany.eq_def]
    dsimp only
    rw [dropped, List.append_nil]
  | @token blanks bytes rest token tokens spacing form more ih =>
    -- White space is dropped up to the first byte of the token, which is none itself.
    obtain ⟨byte, tail, rfl, front, _⟩ := token_front form
    have dropped : (blanks ++ (byte :: tail) ++ rest).dropWhile isSpacing =
        byte :: (tail ++ rest) := by
      rw [List.append_assoc, List.dropWhile_append_of_pos spacing, List.cons_append,
        List.dropWhile_cons_of_neg (by simp [front])]
    -- Behind a number comes white space, another kind of token or the end.
    have ended : token.isNumber = true → Ended rest := by
      intro number
      apply ended_of_cut more
      intro next first
      cases tokens with
      | nil => cases first
      | cons token tokens =>
        cases first
        exact (List.isChain_cons_cons.mp separated).1 number
    have read := read?_append form rest ended
    rw [List.cons_append] at read
    cases fuel with
    | zero => cases enough
    | succ fuel =>
      have later := ih separated.tail (token :: reversed) fuel (by simpa using enough)
      rw [Token.readMany.eq_def]
      dsimp only
      rw [dropped]
      simp [read, later]

theorem length_le_of_cut {tokens : List Token} {bytes : List UInt8}
    (cut : Cut tokens bytes) : tokens.length ≤ bytes.length := by
  induction cut with
  | done => exact Nat.zero_le _
  | token _ form _ ih =>
    obtain ⟨byte, tail, rfl, _⟩ := token_front form
    simp only [List.length_append, List.length_cons]
    omega

theorem readAll_of_cut {tokens : List Token} {bytes : List UInt8} (cut : Cut tokens bytes)
    (separated : Separated tokens) : Token.readAll bytes = some tokens :=
  readMany_of_cut cut separated [] bytes.length (length_le_of_cut cut)

end Json

end TraceChart
