import TraceChart.Number.Reading
import TraceChart.Proofs.Number.Numeral
import TraceChart.Proofs.Traversal

/-!
# Written numerals are read

The reader of numbers takes the characters of a numeral apart again: the digits before the point,
those behind it, and the exponent with its sign and its leading zeros. So a text is written by one
numeral only, and every finite number is read back from the text that a style gives it.
-/

namespace TraceChart

/-! ### Digits -/

theorem asciiDigit?_char (digit : Digit) : asciiDigit? digit.char = some digit := by
  revert digit
  decide

theorem Digit.char_ne (digit : Digit) {char : Char} (other : asciiDigit? char = none) :
    digit.char ≠ char := by
  rintro rfl
  rw [asciiDigit?_char] at other
  cases other

theorem readNatural?_chars (digits : List Digit) (written : digits ≠ []) :
    readNatural? (Digit.chars digits) = some (Digit.value digits) := by
  have digitwise : (Digit.chars digits).mapM asciiDigit? = some digits := by
    rw [mapM_eq_some_iff, Digit.chars, List.forall₂_map_left_iff, List.forall₂_same]
    exact fun digit _ => asciiDigit?_char digit
  unfold readNatural?
  rw [if_neg (by simpa [Digit.chars] using written), digitwise]
  rfl

/-- No digit is a sign, so a text of digits is read as a natural. -/
theorem readInteger?_chars (digits : List Digit) (written : digits ≠ []) :
    readInteger? (Digit.chars digits) = some (Digit.value digits : Int) := by
  obtain ⟨first, rest, rfl⟩ := List.exists_cons_of_ne_nil written
  have unsigned : readInteger? (Digit.chars (first :: rest)) =
      (readNatural? (Digit.chars (first :: rest))).map fun value => (value : Int) := by
    fin_cases first <;> rfl
  rw [unsigned, readNatural?_chars _ written]
  rfl

/-- The digits at the front of a text end where it goes on with something else. -/
theorem span_digits (digits : List Digit) {rest : List Char}
    (ended : ∀ char ∈ rest.head?, isDigit char = false) :
    ((Digit.chars digits ++ rest).takeWhile isDigit).filterMap asciiDigit? = digits ∧
      (Digit.chars digits ++ rest).dropWhile isDigit = rest := by
  have each : ∀ char ∈ Digit.chars digits, isDigit char = true := by
    intro char member
    obtain ⟨digit, _, rfl⟩ := List.mem_map.mp member
    rw [isDigit, asciiDigit?_char]
    rfl
  rw [List.takeWhile_append_of_pos each, List.dropWhile_append_of_pos each]
  have stopped : rest.takeWhile isDigit = [] ∧ rest.dropWhile isDigit = rest := by
    cases rest with
    | nil => exact ⟨rfl, rfl⟩
    | cons char rest =>
      have other := ended char rfl
      exact ⟨List.takeWhile_cons_of_neg (by simp [other]),
        List.dropWhile_cons_of_neg (by simp [other])⟩
  rw [stopped.1, stopped.2, List.append_nil, Digit.chars, List.filterMap_map]
  refine ⟨?_, rfl⟩
  have back : asciiDigit? ∘ Digit.char = some := funext asciiDigit?_char
  rw [back, List.filterMap_some]

theorem Digit.ofNat_ne_nil (number : Nat) : Digit.ofNat number ≠ [] := by
  obtain ⟨first, rest, front, _⟩ := Digit.ofNat_front number
  rw [front]
  exact List.cons_ne_nil first rest

/-! ### Exponents -/

namespace Numeral

/-- The digits of an exponent, with zeros in front up to a least number of digits. -/
def exponentDigits (width : Nat) (exponent : Int) : List Digit :=
  List.replicate (width - (Digit.ofNat exponent.natAbs).length) Digit.zero ++
    Digit.ofNat exponent.natAbs

theorem exponentChars_eq (plus : Bool) (width : Nat) (exponent : Int) :
    exponentChars plus width exponent =
      (if exponent < 0 then ['-'] else if plus then ['+'] else []) ++
        Digit.chars (exponentDigits width exponent) := by
  have zero : Digit.zero.char = '0' := rfl
  simp [exponentChars, exponentDigits, Digit.chars, zero]

theorem value_exponentDigits (width : Nat) (exponent : Int) :
    Digit.value (exponentDigits width exponent) = exponent.natAbs := by
  rw [exponentDigits, Digit.value_append, Digit.value_zeros, Digit.value_ofNat, Nat.zero_mul,
    Nat.zero_add]

theorem readInteger?_exponentChars (plus : Bool) (width : Nat) (exponent : Int) :
    readInteger? (exponentChars plus width exponent) = some exponent := by
  have written : exponentDigits width exponent ≠ [] := by
    simp [exponentDigits, Digit.ofNat_ne_nil]
  have read := readNatural?_chars _ written
  rw [value_exponentDigits] at read
  rw [exponentChars_eq]
  split
  next negative =>
    have same : -(exponent.natAbs : Int) = exponent := by omega
    rw [List.singleton_append, readInteger?, read]
    exact congrArg some same
  next nonneg =>
    have same : (exponent.natAbs : Int) = exponent := by omega
    cases plus with
    | false =>
      rw [if_neg Bool.false_ne_true, List.nil_append, readInteger?_chars _ written,
        value_exponentDigits, same]
    | true =>
      rw [if_pos rfl, List.singleton_append, readInteger?, read]
      exact congrArg some same

/-- An exponent with its mark, or nothing. -/
def exponentEnd (plus : Bool) (width : Nat) : Option Int → List Char
  | none => []
  | some exponent => 'e' :: exponentChars plus width exponent

variable (plus : Bool) (width : Nat)

theorem readExponent?_end (exponent : Option Int) :
    readExponent? (exponentEnd plus width exponent) = some exponent := by
  cases exponent with
  | none => rfl
  | some exponent =>
    change (readInteger? (exponentChars plus width exponent)).map some = _
    rw [readInteger?_exponentChars]
    rfl

theorem exponentEnd_ended (exponent : Option Int) :
    ∀ char ∈ (exponentEnd plus width exponent).head?, isDigit char = false := by
  rintro char front
  cases exponent with
  | none => cases front
  | some exponent =>
    cases front
    rfl

/-! ### Numerals -/

variable (numeral : Numeral)

/-- The characters behind the digits of the whole part. -/
def wholeEnd : List Char :=
  (if numeral.fraction = [] then [] else '.' :: Digit.chars numeral.fraction) ++
    exponentEnd plus width numeral.exponent

theorem chars_eq : numeral.chars plus width = (if numeral.negative then ['-'] else []) ++
    (Digit.chars numeral.whole ++ numeral.wholeEnd plus width) := by
  rw [chars, wholeEnd, List.append_assoc, List.append_assoc]
  cases numeral.exponent <;> rfl

theorem wholeEnd_ended : ∀ char ∈ (numeral.wholeEnd plus width).head?, isDigit char = false := by
  unfold wholeEnd
  split
  · exact exponentEnd_ended plus width numeral.exponent
  · rintro char front
    cases front
    rfl

theorem readFraction_wholeEnd : readFraction (numeral.wholeEnd plus width) =
    (numeral.fraction, exponentEnd plus width numeral.exponent) := by
  unfold wholeEnd
  split
  next pointless =>
    rw [pointless]
    cases numeral.exponent <;> rfl
  next =>
    obtain ⟨taken, dropped⟩ := span_digits numeral.fraction
      (exponentEnd_ended plus width numeral.exponent)
    rw [List.cons_append, readFraction, taken, dropped]

/-- The parts of a numeral are read off its characters, but for the sign. -/
theorem readNumeral?_chars {numeral : Numeral} (written : numeral.whole ≠ []) :
    readNumeral? numeral.negative (Digit.chars numeral.whole ++ numeral.wholeEnd plus width) =
      some numeral := by
  obtain ⟨taken, dropped⟩ := span_digits numeral.whole (numeral.wholeEnd_ended plus width)
  rw [readNumeral?, taken, dropped, numeral.readFraction_wholeEnd]
  simp [readExponent?_end, written]

/-- The words for what is no numeral begin with letters. -/
theorem readUnsigned?_of_digit (negative : Bool) (digit : Digit) (rest : List Char) :
    readUnsigned? negative (digit.char :: rest) =
      (readNumeral? negative (digit.char :: rest)).map toBinary64 := by
  have lower : digit.char.toLower = digit.char := by
    revert digit
    decide
  unfold readUnsigned?
  rw [List.map_cons, lower]
  split
  next word => exact absurd (List.cons.inj (String.ofList_injective word)).1 (digit.char_ne rfl)
  next word => exact absurd (List.cons.inj (String.ofList_injective word)).1 (digit.char_ne rfl)
  next word => exact absurd (List.cons.inj (String.ofList_injective word)).1 (digit.char_ne rfl)
  next => rfl

theorem readBinary64?_chars {numeral : Numeral} (written : numeral.whole ≠ []) :
    readBinary64? (numeral.chars plus width) = some numeral.toBinary64 := by
  have read := readNumeral?_chars plus width written
  obtain ⟨first, rest, front⟩ := List.exists_cons_of_ne_nil written
  have unsigned : Digit.chars numeral.whole ++ numeral.wholeEnd plus width =
      first.char :: (Digit.chars rest ++ numeral.wholeEnd plus width) := by
    rw [front]
    rfl
  rw [unsigned] at read
  rw [chars_eq, unsigned]
  cases sign : numeral.negative with
  | true =>
    rw [sign] at read
    rw [if_pos rfl, List.singleton_append, readBinary64?, readUnsigned?_of_digit, read,
      Option.map_some]
  | false =>
    rw [sign] at read
    have digit : readBinary64? (first.char :: (Digit.chars rest ++ numeral.wholeEnd plus width)) =
        readUnsigned? false (first.char :: (Digit.chars rest ++ numeral.wholeEnd plus width)) := by
      fin_cases first <;> rfl
    rw [if_neg Bool.false_ne_true, List.nil_append, digit, readUnsigned?_of_digit, read,
      Option.map_some]

theorem negative_iff_chars {numeral : Numeral} (written : numeral.whole ≠ []) :
    numeral.negative = true ↔ (numeral.chars plus width).head? = some '-' := by
  obtain ⟨first, rest, front⟩ := List.exists_cons_of_ne_nil written
  have digit : first.char ≠ '-' := first.char_ne rfl
  rw [chars_eq, front]
  cases numeral.negative <;> simp [Digit.chars, digit]

/-- A text is written by one numeral only. -/
theorem chars_injective {numeral other : Numeral} (written : numeral.whole ≠ [])
    (otherWritten : other.whole ≠ [])
    (same : numeral.chars plus width = other.chars plus width) : numeral = other := by
  have signs : numeral.negative = other.negative := by
    rw [Bool.eq_iff_iff, negative_iff_chars plus width written,
      negative_iff_chars plus width otherWritten, same]
  rw [chars_eq, chars_eq, signs] at same
  have read := readNumeral?_chars plus width written
  rw [List.append_cancel_left same, signs, readNumeral?_chars plus width otherWritten] at read
  exact (Option.some.inj read).symm

end Numeral

namespace Style

theorem whole_of_standard {numeral : Numeral} (standard : numeral.Standard) :
    numeral.whole ≠ [] := by
  obtain ⟨first, rest, front, _⟩ := standard
  rw [front]
  exact List.cons_ne_nil first rest

/-- Every finite number is read back from the text that a style gives it. -/
theorem readBinary64?_text (style : Style) {number : Binary64} (finite : number.isFinite = true) :
    readBinary64? (style.text number).toList = some number := by
  obtain ⟨numeral, written⟩ := exists_numeral? style finite
  have whole := whole_of_standard (standard_of_numeral? written)
  rw [text, written]
  dsimp only
  rw [String.toList_ofList, Numeral.readBinary64?_chars _ _ whole, toBinary64_of_numeral? written]

end Style

end TraceChart
