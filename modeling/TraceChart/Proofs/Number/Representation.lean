import TraceChart.Proofs.Number.Caption

/-!
# Durations from two renderings

A duration in a caption is made out of two renderings of one number that are at hand. The one with
an exponent is cut at its mark, and what is read behind the mark tells which notation it is to be.
Either the exponent is put together again, with a sign and two digits, or the rendering without
exponents is taken, with a fraction where it has none. Both renderings have the same digits, so this
comes to the one style in which durations are written.
-/

namespace TraceChart

/-! ### The steps -/

/-- Always an exponent, but for zero, and no sign to it unless it is below zero. -/
def Style.raised : Style where
  positional := some (0, 0)
  pointZero := false
  exponentPlus := false
  exponentWidth := 1
  tie := .up
  nan := "NaN"
  infinity := "inf"

/-- An integer of half a word. -/
def fitsHalfWord (value : Int) : Bool :=
  decide (-2 ^ 31 ≤ value ∧ value < 2 ^ 31)

/-- What stands before the first mark of an exponent, with the exponent that is read behind it. -/
def cutExponent? (text : List Char) : Option (List Char × Int) :=
  match text.dropWhile (· != 'e') with
  | [] => none
  | _ :: behind => do
    let exponent ← (readInteger? behind).filter fitsHalfWord
    pure (text.takeWhile (· != 'e'), exponent)

namespace Binary64

/-- The characters of a number with an exponent, which zero has as well. -/
def exponentForm (number : Binary64) : List Char :=
  match number with
  | .finite negative 0 _ _ => (if negative then "-0e0" else "0e0").toList
  | _ => (Style.raised.text number).toList

/-- The text of a duration, as it comes from the two renderings. -/
def representation (number : Binary64) : String :=
  match number with
  | .nan => "nan"
  | .infinite negative => if negative then "-inf" else "inf"
  | .finite _ significand _ _ =>
    let form := number.exponentForm
    let (mantissa, exponent) := (cutExponent? form).getD (form, 0)
    if significand ≠ 0 ∧ ¬(-4 ≤ exponent ∧ exponent < 16) then
      let sign := if exponent < 0 then '-' else '+'
      let digits := Digit.chars (Digit.ofNat exponent.natAbs)
      String.ofList (mantissa ++ 'e' :: sign ::
        (List.replicate (2 - digits.length) '0' ++ digits))
    else
      let plain := Style.plain.text number
      if plain.toList.contains '.' then plain else plain ++ ".0"

end Binary64

/-! ### The exponent -/

namespace Decimal

/-- The exponent of the leading digit. -/
def leading (decimal : Decimal) : Int :=
  decimal.scale + (Digit.ofNat decimal.digits).length - 1

/-- The exponent of a decimal that reads back as a number has few digits. -/
theorem fitsHalfWord_leading (tie : Tie) {significand : Nat} {exponent : Int}
    (canonical : Canonical significand exponent) (positive : 0 < significand) :
    fitsHalfWord (shortest tie significand exponent).leading = true := by
  let decimal := shortest tie significand exponent
  have nonzero : decimal.digits ≠ 0 := digits_shortest_ne_zero tie canonical positive
  have read := toBinary64_shortest tie canonical positive
  have rounded := rounded_toBinary64 decimal
  rw [read] at rounded
  have limit : decimal.value < 10 ^ (400 : Int) := by
    have finite := rounded.isFinite_iff.mp rfl
    rw [abs_of_pos (value_pos nonzero), Binary64.overflowLimit_eq] at finite
    refine finite.trans ?_
    have beyond : 18014398509481983 * twoTo 970 < tenTo 400 := by decide +kernel
    have cast := cast_tenTo 400
    rw [zpow_ofNat, ← cast]
    exact_mod_cast beyond
  have least : (10 : ℚ) ^ (-400 : Int) < decimal.value := by
    by_contra below
    -- So small a value is rounded to zero, and so is every lesser one.
    have tiny := rounded_toBinary64 ⟨1, -400⟩
    have zero : toBinary64 ⟨1, -400⟩ = .zero false := by decide +kernel
    rw [zero, value, Nat.cast_one, one_mul] at tiny
    have ordered := rounded.le tiny (not_lt.mp below)
    rw [Binary64.le_iff_value_le _ _ rfl rfl, Binary64.zero_value] at ordered
    have digits : (0 : ℚ) < significand * 2 ^ exponent :=
      mul_pos (by exact_mod_cast positive) (Binary64.two_zpow_pos _)
    simp only [Binary64.value, Binary64.signed, Bool.false_eq_true, if_false, Int.cast_natCast]
      at ordered
    exact absurd digits (not_lt.mpr ordered)
  have ten (power : Int) := @Int.zpow_le_iff_le_log ℚ _ _ _ _ 10 (by decide) power _
    (value_pos nonzero)
  have below := (not_congr (ten 400)).mp (not_le.mpr limit)
  have above := (ten (-400)).mp least.le
  rw [leading, leading_eq_log nonzero, fitsHalfWord, decide_eq_true_eq]
  exact ⟨by omega, by omega⟩

end Decimal

theorem Digit.not_mem_chars {char : Char} (other : asciiDigit? char = none)
    (digits : List Digit) : char ∉ Digit.chars digits := by
  intro member
  obtain ⟨digit, _, same⟩ := List.mem_map.mp member
  exact digit.char_ne other same

/-- A text is cut before its first mark. -/
theorem cutExponent?_append {mantissa : List Char} (unmarked : 'e' ∉ mantissa) {exponent : Int}
    (fits : fitsHalfWord exponent = true) (plus : Bool) (width : Nat) :
    cutExponent? (mantissa ++ 'e' :: Numeral.exponentChars plus width exponent) =
      some (mantissa, exponent) := by
  have each : ∀ char ∈ mantissa, (char != 'e') = true := fun char member =>
    bne_iff_ne.mpr (ne_of_mem_of_not_mem member unmarked)
  rw [cutExponent?, List.dropWhile_append_of_pos each, List.takeWhile_append_of_pos each]
  simp [Numeral.readInteger?_exponentChars, Option.filter_some, fits]

/-! ### The two notations -/

namespace Numeral

/-- What stands before the exponent of a numeral. -/
def mantissa (numeral : Numeral) : List Char :=
  (if numeral.negative then ['-'] else []) ++ (Digit.chars numeral.whole ++
    if numeral.fraction = [] then [] else '.' :: Digit.chars numeral.fraction)

theorem chars_eq_mantissa (plus : Bool) (width : Nat) (numeral : Numeral) :
    numeral.chars plus width = numeral.mantissa ++ exponentEnd plus width numeral.exponent := by
  rw [chars_eq, wholeEnd, mantissa, List.append_assoc, List.append_assoc]

theorem mark_not_mem_mantissa (numeral : Numeral) : 'e' ∉ numeral.mantissa := by
  have digits : ∀ list, 'e' ∉ Digit.chars list := Digit.not_mem_chars rfl
  unfold mantissa
  cases numeral.negative <;> split <;> simp [digits]

theorem point_mem_mantissa_iff (numeral : Numeral) :
    '.' ∈ numeral.mantissa ↔ numeral.fraction ≠ [] := by
  have digits : ∀ list, '.' ∉ Digit.chars list := Digit.not_mem_chars rfl
  unfold mantissa
  cases numeral.negative <;> split <;> simp_all

/-- An exponent that is signed in any case and has at least two digits. -/
theorem exponentChars_signed (exponent : Int) :
    exponentChars true 2 exponent = (if exponent < 0 then '-' else '+') ::
      (List.replicate (2 - (Digit.chars (Digit.ofNat exponent.natAbs)).length) '0' ++
        Digit.chars (Digit.ofNat exponent.natAbs)) := by
  rw [exponentChars]
  split <;> simp

end Numeral

namespace Style

/-- A fraction is put to digits that have no point yet. -/
theorem place_pointZero (negative : Bool) {digits : List Digit} (written : digits ≠ [])
    (point : Int) : (place negative digits point true).mantissa =
      let plain := (place negative digits point false).mantissa
      if plain.contains '.' then plain else plain ++ ['.', '0'] := by
  have pointed := Numeral.point_mem_mantissa_iff (place negative digits point false)
  rw [← List.contains_iff_mem] at pointed
  -- With or without the added zero, the point comes to stand in the same place.
  by_cases pointless : (place negative digits point false).fraction = []
  · rw [if_neg (mt pointed.mp (not_not.mpr pointless))]
    revert pointless
    unfold place
    split
    next => simp [written]
    next => simp +contextual [Numeral.mantissa, Digit.chars, Digit.char, Digit.zero]
  · rw [if_pos (pointed.mpr pointless)]
    revert pointless
    unfold place
    split
    next => simp
    next =>
      intro some_left
      simp only [Bool.false_eq_true, and_false, if_false, and_true] at some_left ⊢
      rw [if_neg some_left]

theorem exponent_place (negative : Bool) (digits : List Digit) (point : Int) (pointZero : Bool) :
    (place negative digits point pointZero).exponent = none := by
  unfold place
  split <;> rfl

theorem arrange_of_ne_zero (style : Style) (negative : Bool) {decimal : Decimal}
    (nonzero : decimal.digits ≠ 0) : style.arrange negative decimal =
      if style.isPositional decimal.leading then
        place negative (Digit.ofNat decimal.digits) (decimal.leading + 1) style.pointZero
      else ⟨negative, (Digit.ofNat decimal.digits).take 1, (Digit.ofNat decimal.digits).drop 1,
        some decimal.leading⟩ :=
  if_neg nonzero

/-- The text of a number that is not zero: its digits in their places, or with an exponent. -/
theorem toList_text_of_pos {style : Style} (up : style.tie = .up) (negative : Bool)
    {significand : Nat} {exponent : Int} (canonical : Canonical significand exponent)
    (positive : 0 < significand) :
    let decimal := Decimal.shortest .up significand exponent
    let digits := Digit.ofNat decimal.digits
    (style.text (.finite negative significand exponent canonical)).toList =
      if style.isPositional decimal.leading then
        (place negative digits (decimal.leading + 1) style.pointZero).mantissa
      else
        Numeral.mantissa ⟨negative, digits.take 1, digits.drop 1, some decimal.leading⟩ ++
          'e' :: Numeral.exponentChars style.exponentPlus style.exponentWidth
            decimal.leading := by
  intro decimal digits
  have nonzero : decimal.digits ≠ 0 := Decimal.digits_shortest_ne_zero .up canonical positive
  rw [text, numeral?, if_neg positive.ne', up]
  dsimp only
  rw [String.toList_ofList, Numeral.chars_eq_mantissa, arrange_of_ne_zero _ _ nonzero]
  cases style.isPositional decimal.leading with
  | true => simp only [if_true, exponent_place, Numeral.exponentEnd, List.append_nil, digits]
  | false => rfl

end Style

namespace Binary64

section

variable (negative : Bool) {significand : Nat} {exponent : Int}
  (canonical : Canonical significand exponent) (positive : 0 < significand)

include positive

/-- The exponent form of a number is cut where its exponent begins. -/
theorem cut_exponentForm :
    let decimal := Decimal.shortest .up significand exponent
    let digits := Digit.ofNat decimal.digits
    cutExponent? (finite negative significand exponent canonical).exponentForm =
      some (Numeral.mantissa ⟨negative, digits.take 1, digits.drop 1, some decimal.leading⟩,
        decimal.leading) := by
  intro decimal digits
  have form : (finite negative significand exponent canonical).exponentForm =
      (Style.raised.text (finite negative significand exponent canonical)).toList := by
    obtain ⟨before, rfl⟩ := Nat.exists_eq_succ_of_ne_zero positive.ne'
    rfl
  -- There is no exponent from zero up to zero, so no number is written without one.
  have never : Style.raised.isPositional decimal.leading = false := by
    simp only [Style.raised, Style.isPositional, decide_eq_false_iff_not]
    omega
  rw [form, Style.toList_text_of_pos rfl _ canonical positive, never, if_neg Bool.false_ne_true]
  exact cutExponent?_append (Numeral.mark_not_mem_mantissa _)
    (Decimal.fitsHalfWord_leading .up canonical positive) _ _

/-- A number that is not zero is written either way as the style of durations writes it. -/
theorem representation_of_pos :
    (finite negative significand exponent canonical).representation =
      Scalar.durationText (finite negative significand exponent canonical) := by
  let decimal := Decimal.shortest .up significand exponent
  let digits := Digit.ofNat decimal.digits
  have cut := cut_exponentForm negative canonical positive
  have duration := durationStyle.toList_text_of_pos rfl negative canonical positive
  have plain := (Style.plain.toList_text_of_pos rfl negative canonical positive).trans (if_pos rfl)
  have bounds : durationStyle.isPositional decimal.leading = true ↔
      -4 ≤ decimal.leading ∧ decimal.leading < 16 := decide_eq_true_iff
  apply String.toList_injective
  unfold representation
  dsimp only at cut ⊢
  rw [cut, Option.getD_some]
  dsimp only
  by_cases inside : -4 ≤ decimal.leading ∧ decimal.leading < 16
  -- The rendering without exponents differs from a duration by the fraction at most.
  · have pointed := duration.trans (if_pos (bounds.mpr inside))
    have added := Style.place_pointZero negative (Digit.ofNat_ne_nil decimal.digits)
      (decimal.leading + 1)
    rw [if_neg fun outside => outside.2 inside, apply_ite String.toList, String.toList_append,
      plain]
    exact added.symm.trans pointed.symm
  -- The rendering with an exponent differs from a duration behind its mark only.
  · have raised := duration.trans (if_neg (mt bounds.mp inside))
    rw [if_pos ⟨positive.ne', inside⟩, String.toList_ofList, ← Numeral.exponentChars_signed]
    exact raised.symm

end

theorem representation_zero (negative : Bool) :
    (zero negative).representation = Scalar.durationText (zero negative) := by
  cases negative <;> decide +kernel

/-- What comes from the two renderings is the text of the style of durations. -/
theorem representation_eq_durationText (number : Binary64) :
    number.representation = Scalar.durationText number := by
  cases number with
  | nan => rfl
  | infinite negative => cases negative <;> rfl
  | finite negative significand exponent canonical =>
    rcases Nat.eq_zero_or_pos significand with rfl | positive
    · obtain rfl : exponent = -1074 := canonical.2.2.2.resolve_left (by decide)
      exact representation_zero negative
    · exact representation_of_pos negative canonical positive

end Binary64

end TraceChart
