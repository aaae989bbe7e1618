import Mathlib
import TraceChart.Number.Scalar

/-!
# The letters of numbers

Numbers are written with few characters, in whatever style: digits, a point, signs, the letter
before an exponent, and those of the words for what has no digits.
-/

namespace TraceChart

def numberLetters : List Char :=
  "0123456789.+-eNainf".toList

/-- A text that has only letters of numbers. -/
def isNumeric (text : List Char) : Bool :=
  text.all fun char => numberLetters.contains char

theorem isNumeric_cons {char : Char} {text : List Char}
    (letter : numberLetters.contains char = true) (rest : isNumeric text = true) :
    isNumeric (char :: text) = true := by
  rw [isNumeric, List.all_cons, letter, Bool.true_and]
  exact rest

theorem isNumeric_append {left right : List Char} (first : isNumeric left = true)
    (second : isNumeric right = true) : isNumeric (left ++ right) = true := by
  rw [isNumeric, List.all_append, Bool.and_eq_true]
  exact ⟨first, second⟩

theorem isNumeric_digits (digits : List Digit) : isNumeric (Digit.chars digits) = true := by
  have each : ∀ digit : Digit, numberLetters.contains digit.char = true := by decide
  rw [isNumeric, List.all_eq_true]
  intro char member
  obtain ⟨digit, _, rfl⟩ := List.mem_map.mp member
  exact each digit

namespace Numeral

theorem isNumeric_exponent (plus : Bool) (width : Nat) (exponent : Int) :
    isNumeric (exponentChars plus width exponent) = true := by
  have sign : isNumeric (if exponent < 0 then ['-'] else if plus then ['+'] else []) = true := by
    split
    · rfl
    · cases plus <;> rfl
  have zeros (count : Nat) : isNumeric (List.replicate count '0') = true := by
    rw [isNumeric, List.all_eq_true]
    intro char member
    rw [List.eq_of_mem_replicate member]
    rfl
  exact isNumeric_append (isNumeric_append sign (zeros _)) (isNumeric_digits _)

theorem isNumeric_chars (numeral : Numeral) (plus : Bool) (width : Nat) :
    isNumeric (numeral.chars plus width) = true := by
  have sign : isNumeric (if numeral.negative then ['-'] else []) = true := by
    cases numeral.negative <;> rfl
  have fraction : isNumeric
      (if numeral.fraction = [] then [] else '.' :: Digit.chars numeral.fraction) = true := by
    split
    · rfl
    · exact isNumeric_cons rfl (isNumeric_digits _)
  unfold chars
  have whole := isNumeric_append sign (isNumeric_digits numeral.whole)
  refine isNumeric_append (isNumeric_append whole fraction) ?_
  split
  · rfl
  · exact isNumeric_cons rfl (isNumeric_exponent plus width _)

end Numeral

/-- A style brings no letters of its own but those of its two words. -/
theorem Style.isNumeric_text (style : Style) (nan : isNumeric style.nan.toList = true)
    (infinity : isNumeric style.infinity.toList = true) (number : Binary64) :
    isNumeric (style.text number).toList = true := by
  unfold text
  split
  · rw [String.toList_ofList]
    exact Numeral.isNumeric_chars _ _ _
  split
  · exact nan
  split
  · rw [String.toList_append]
    exact isNumeric_append rfl infinity
  · exact infinity

theorem Binary64.isNumeric_fixed (places : Nat) (number : Binary64) :
    isNumeric (number.fixed places).toList = true := by
  cases number with
  | nan =>
    rw [fixed]
    rfl
  | infinite negative =>
    rw [fixed]
    cases negative <;> rfl
  | finite negative significand exponent _ =>
    rw [fixed, fixedText, String.toList_ofList]
    exact Numeral.isNumeric_chars _ _ _

theorem isNumeric_plainText (number : Binary64) :
    isNumeric (Scalar.plainText number).toList = true :=
  Style.plain.isNumeric_text rfl rfl number

theorem isNumeric_durationText (number : Binary64) :
    isNumeric (Scalar.durationText number).toList = true :=
  Binary64.durationStyle.isNumeric_text rfl rfl number

end TraceChart
