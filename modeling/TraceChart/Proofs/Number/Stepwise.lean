import TraceChart.Json.Writer
import TraceChart.Number.Conversion
import TraceChart.Proofs.Number.Caption
import TraceChart.Proofs.Number.Share

/-!
# Digits first, then the power of ten

A reader that keeps the digits in a word and scales them afterwards rounds up to three times: the
digits, the power of ten, and their product or quotient. Where both the digits and the power are
numbers themselves only the last of these is left, so the numeral is read as the number nearest to
it. Elsewhere what is read may be another number, but of a numeral that was written of a number it
is always a finite one. The digits are then at most as great as the numeral says, and the three
roundings together carry a value past the limit of all numbers only next to the greatest two, which
are read back as they should.
-/

namespace TraceChart

namespace Digit

theorem value_lt (digits : List Digit) : value digits < 10 ^ digits.length := by
  induction digits using List.reverseRecOn with
  | nil => decide
  | append_singleton digits digit ih =>
    have last : value [digit] = digit.val := by simp [value]
    have small := digit.isLt
    rw [value_append, last, List.length_append, List.length_singleton, pow_succ]
    omega

end Digit

namespace Conversion

open Binary64

/-! ### Digits in a word -/

/-- A word takes digits from the front, and what it does not take is left over. -/
theorem exists_taken (word : Nat) (digits : List Digit) :
    ∃ taken, digits = taken ++ (fillWord word digits).2 ∧
      (fillWord word digits).1 = word * 10 ^ taken.length + Digit.value taken := by
  induction digits generalizing word with
  | nil => exact ⟨[], rfl, by simp [fillWord, Digit.value]⟩
  | cons digit digits ih =>
    rw [fillWord]
    split
    next =>
      obtain ⟨taken, split, filled⟩ := ih (10 * word + digit.val)
      refine ⟨digit :: taken, by rw [List.cons_append, ← split], ?_⟩
      have front : Digit.value (digit :: taken) =
          digit.val * 10 ^ taken.length + Digit.value taken := by
        rw [← List.singleton_append, Digit.value_append]
        simp [Digit.value]
      rw [filled, front, List.length_cons]
      ring
    next => exact ⟨[], rfl, by simp [Digit.value]⟩

theorem fillWord_le {word : Nat} (small : word ≤ greatestWord) (digits : List Digit) :
    (fillWord word digits).1 ≤ greatestWord := by
  induction digits generalizing word with
  | nil => exact small
  | cons digit digits ih =>
    rw [fillWord]
    split
    next fits => exact ih fits
    next => exact small

/-- Where there is room for all digits, the word takes them all. -/
theorem fillWord_of_le {word : Nat} {digits : List Digit}
    (fits : word * 10 ^ digits.length + Digit.value digits ≤ greatestWord) :
    fillWord word digits = (word * 10 ^ digits.length + Digit.value digits, []) := by
  induction digits generalizing word with
  | nil => simp [fillWord, Digit.value]
  | cons digit digits ih =>
    have shifted : word * 10 ^ (digit :: digits).length + Digit.value (digit :: digits) =
        (10 * word + digit.val) * 10 ^ digits.length + Digit.value digits := by
      rw [← List.singleton_append, Digit.value_append, List.singleton_append, List.length_cons]
      simp only [Digit.value, List.foldl_cons, List.foldl_nil]
      ring
    rw [shifted] at fits ⊢
    have one : 1 ≤ 10 ^ digits.length := Nat.one_le_pow _ _ (by decide)
    have next : 10 * word + digit.val ≤ greatestWord :=
      ((Nat.le_mul_of_pos_right _ one).trans (Nat.le_add_right _ _)).trans fits
    rw [fillWord, if_pos next]
    exact ih fits

/-! ### Powers of ten -/

theorem rounded_power (exponent : Nat) : Rounded (power exponent) (10 ^ exponent) := by
  have rounded := Decimal.rounded_toBinary64 ⟨1, exponent⟩
  rwa [Decimal.value, Nat.cast_one, one_mul, zpow_natCast] at rounded

/-- Up to the power of 22 the odd part of a power of ten fits into a significand. -/
theorem power_exact {exponent : Nat} (small : exponent ≤ 22) :
    (power exponent).isFinite = true ∧ (power exponent).value = 10 ^ exponent := by
  have odd : ((5 ^ exponent : Nat) : Int).natAbs < significandLimit := by
    rw [Int.natAbs_natCast]
    exact (Nat.pow_le_pow_right (by decide) small).trans_lt (by decide)
  obtain ⟨number, finite, valued⟩ :=
    exists_finite_dyadic odd (show -1074 ≤ (exponent : Int) by omega) (by omega)
  refine (rounded_power exponent).rounds.exact finite (valued.trans ?_)
  push_cast
  rw [zpow_natCast, ← mul_pow]
  norm_num

/-- Every power of ten that is at hand is a number of at least one. -/
theorem power_regular {exponent : Nat} (small : exponent ≤ greatestPower) :
    (power exponent).isFinite = true ∧ 1 ≤ (power exponent).value := by
  have rounded := rounded_power exponent
  have least : (1 : ℚ) ≤ 10 ^ exponent := one_le_pow₀ (by norm_num)
  have most : (10 : ℚ) ^ exponent < overflowLimit := by
    have highest : (10 : ℚ) ^ exponent ≤ 10 ^ 308 := pow_le_pow_right₀ (by norm_num) small
    rw [overflowLimit_eq]
    have limit : 10 ^ 308 < 18014398509481983 * twoTo 970 := by decide +kernel
    exact highest.trans_lt (by exact_mod_cast limit)
  have finite : (power exponent).isFinite = true := by
    rw [rounded.isFinite_iff, abs_of_nonneg (zero_le_one.trans least)]
    exact most
  have one : (1.0 : Binary64).isFinite = true := by decide
  have above := rounded.rounds.above 1.0 one (by rw [value_one]; exact least)
  rw [le_iff_value_le _ _ one finite, value_one] at above
  exact ⟨finite, above⟩

/-! ### Numerals with few digits -/

/-- The number nearest to a word at a power of ten, where both are numbers themselves. -/
theorem scale_eq_ofDecimal {word : Nat} {exponent : Int} (small : word < significandLimit)
    (near : exponent.natAbs ≤ 22) : scale word exponent = .ofDecimal false word exponent := by
  obtain ⟨finite, valued⟩ := ofInt_natCast small
  obtain ⟨powerFinite, powerValue⟩ := power_exact near
  have rounded := Decimal.rounded_toBinary64 ⟨word, exponent⟩
  have far : ¬greatestPower < 22 := by decide
  rcases Nat.eq_zero_or_pos word with rfl | positive
  · -- Zero is scaled to zero; there are only so many powers.
    rw [ofDecimal_zero]
    unfold scale
    obtain ⟨low, high⟩ : -22 ≤ exponent ∧ exponent ≤ 22 := by omega
    interval_cases exponent <;> decide +kernel
  · have digits : (0 : ℚ) < word := by exact_mod_cast positive
    refine Rounded.eq_of_pos ?_ rounded (Decimal.value_pos positive.ne')
    unfold scale
    split
    next below =>
      have exact : (Decimal.mk word exponent).value =
          (ofInt word).value / (power exponent.natAbs).value := by
        obtain ⟨places, rfl⟩ : ∃ places : Nat, exponent = -places := ⟨exponent.natAbs, by omega⟩
        rw [valued, powerValue, Decimal.value, zpow_neg, zpow_natCast, Int.natAbs_neg,
          Int.natAbs_natCast, div_eq_mul_inv]
      have nonzero : (power exponent.natAbs).value ≠ 0 := by
        rw [powerValue]
        positivity
      rw [lower, if_pos (by omega), exact]
      exact rounded_div finite powerFinite nonzero
    next above =>
      have exact : (Decimal.mk word exponent).value =
          (ofInt word).value * (power exponent.toNat).value := by
        obtain ⟨places, rfl⟩ : ∃ places : Nat, exponent = places := ⟨exponent.natAbs, by omega⟩
        rw [Int.natAbs_natCast] at powerValue
        rw [Int.toNat_natCast, valued, powerValue, Decimal.value, zpow_natCast]
      have same : exponent.toNat = exponent.natAbs := by omega
      rw [raise, if_pos (by omega), exact, same]
      exact rounded_mul finite powerFinite

/-- The sign is put to what is read of the digits. -/
theorem stepwise_eq {numeral : Numeral} {word : Nat} {left : List Digit}
    (whole : fillWord 0 numeral.whole = (Digit.value numeral.whole, []))
    (filled : fillWord (Digit.value numeral.whole) numeral.fraction = (word, left)) :
    stepwise numeral =
      let unsigned := scale word
        (numeral.exponent.getD 0 - (numeral.fraction.length - left.length : Int))
      if numeral.negative then -unsigned else unsigned := by
  have exponent : (0 : Int) - (numeral.fraction.length - left.length) + numeral.exponent.getD 0 =
      numeral.exponent.getD 0 - (numeral.fraction.length - left.length) := by omega
  simp only [stepwise, whole, filled, List.length_nil, Nat.cast_zero, exponent]

/-- All whole digits of a numeral are in the word before its fraction begins. -/
theorem fillWord_whole {digits : List Digit} (fits : Digit.value digits ≤ greatestWord) :
    fillWord 0 digits = (Digit.value digits, []) := by
  have filled := @fillWord_of_le 0 digits (by rwa [Nat.zero_mul, Nat.zero_add])
  rwa [Nat.zero_mul, Nat.zero_add] at filled

end Conversion

/-- A numeral whose digits are a significand, at a power of ten that is a number. -/
def Numeral.IsShort (numeral : Numeral) : Prop :=
  numeral.significand < significandLimit ∧ numeral.scale.natAbs ≤ 22

instance (numeral : Numeral) : Decidable numeral.IsShort :=
  inferInstanceAs (Decidable (_ ∧ _))

/-- A numeral with few digits is read as the number nearest to it. -/
theorem Numeral.IsShort.stepwise_eq_nearest {numeral : Numeral} (short : numeral.IsShort) :
    Conversion.stepwise numeral = Conversion.nearest numeral := by
  obtain ⟨small, near⟩ := short
  have parts : numeral.significand = Digit.value numeral.whole * 10 ^ numeral.fraction.length +
      Digit.value numeral.fraction := Digit.value_append _ _
  have room : numeral.significand ≤ Conversion.greatestWord :=
    small.le.trans (by decide)
  have power : 1 ≤ 10 ^ numeral.fraction.length := Nat.one_le_pow _ _ (by decide)
  have whole : Digit.value numeral.whole ≤ Conversion.greatestWord :=
    ((Nat.le_mul_of_pos_right _ power).trans (Nat.le_add_right _ _)).trans (parts ▸ room)
  have filled := Conversion.fillWord_of_le (parts ▸ room)
  rw [Conversion.stepwise_eq (Conversion.fillWord_whole whole) filled, ← parts, List.length_nil,
    Nat.cast_zero, sub_zero]
  change (if numeral.negative = true then -Conversion.scale numeral.significand numeral.scale
    else Conversion.scale numeral.significand numeral.scale) = numeral.toBinary64
  rw [Conversion.scale_eq_ofDecimal small near, Numeral.toBinary64]
  cases numeral.negative with
  | false => rfl
  | true => exact (Binary64.ofDecimal_true _ _).symm

/-! ### What is written is read as a finite number -/

namespace Conversion

open Binary64

/-- Two and a half steps below the power of two behind all numbers. -/
def safeLimit : ℚ := 18014398509481979 * twoTo 970

/-- A value of at least one is carried up by little more than half a unit of its last place. -/
theorem value_le_of_one_le {number : Binary64} {exact : ℚ} (rounded : Rounded number exact)
    (finite : number.isFinite = true) (large : 1 ≤ exact) :
    0 ≤ number.value ∧ number.value ≤ exact * (1 + 2 ^ (-53 : Int) + 2 ^ (-110 : Int)) := by
  have nonneg : 0 ≤ exact := zero_le_one.trans large
  have above := rounded.rounds.above (zero false) rfl (by rwa [zero_value])
  rw [le_iff_value_le _ _ rfl finite, zero_value] at above
  have below := rounded.value_le finite nonneg
  have least : (2 : ℚ) ^ (-1075 : Int) ≤ exact * 2 ^ (-110 : Int) :=
    (zpow_le_zpow_right₀ one_le_two (by decide)).trans
      (le_mul_of_one_le_left (two_zpow_pos _).le large)
  refine ⟨above, below.trans ?_⟩
  rw [roundoff, mul_add, mul_add, mul_one]
  linarith

theorem isFinite_div {number divisor : Binary64} (finite : number.isFinite = true)
    (divisorFinite : divisor.isFinite = true) (large : 1 ≤ divisor.value) :
    (number / divisor).isFinite = true := by
  have positive : 0 < divisor.value := zero_lt_one.trans_le large
  rw [(rounded_div finite divisorFinite positive.ne').isFinite_iff, abs_div, abs_of_pos positive]
  exact (div_le_self (abs_nonneg _) large).trans_lt (abs_value_lt finite)

theorem isFinite_lower {number : Binary64} (finite : number.isFinite = true) (exponent : Nat) :
    (lower number exponent).isFinite = true := by
  have greatest := power_regular (le_refl greatestPower)
  unfold lower
  split
  next small =>
    obtain ⟨powerFinite, large⟩ := power_regular small
    exact isFinite_div finite powerFinite large
  next =>
    split
    next twice =>
      obtain ⟨powerFinite, large⟩ := @power_regular (exponent - greatestPower) (by omega)
      exact isFinite_div (isFinite_div finite greatest.1 greatest.2) powerFinite large
    next => rfl

/-- Three roundings do not carry a value past the limit if it keeps some steps away from it. -/
theorem isFinite_raise {word exponent : Nat} (fits : word ≤ greatestWord)
    (safe : (word : ℚ) * 10 ^ exponent ≤ safeLimit) :
    (raise (ofInt word) exponent).isFinite = true := by
  have finite : (ofInt word).isFinite = true := isFinite_ofInt (by
    rw [Int.natAbs_natCast]
    exact fits.trans (by decide))
  rcases Nat.eq_zero_or_pos word with rfl | positive
  · -- Zero times a number is zero, and with no power at hand it is left as it is.
    have zeroed : ofInt (0 : Nat) = zero false := by decide
    rw [zeroed]
    unfold raise
    split
    next small =>
      rw [(rounded_mul rfl (power_regular small).1).isFinite_iff, zero_value, zero_mul, abs_zero,
        overflowLimit_eq]
      exact mul_pos (by norm_num) (by exact_mod_cast twoTo_pos 970)
    next => rfl
  · have one : (1 : ℚ) ≤ word := by exact_mod_cast positive
    have small : exponent ≤ greatestPower := by
      by_contra beyond
      have large : ((tenTo 309 : Nat) : ℚ) ≤ 10 ^ exponent := by
        rw [cast_tenTo]
        exact pow_le_pow_right₀ (by norm_num) (by simp only [greatestPower] at beyond; omega)
      have limit : 18014398509481979 * twoTo 970 < tenTo 309 := by decide +kernel
      have least : safeLimit < (tenTo 309 : Nat) := by
        rw [safeLimit]
        exact_mod_cast limit
      have scaled : (10 : ℚ) ^ exponent ≤ word * 10 ^ exponent :=
        le_mul_of_one_le_left (by positivity) one
      exact absurd (least.trans_le (large.trans scaled)) (not_lt.mpr safe)
    have powerFinite := (power_regular small).1
    obtain ⟨wordNonneg, wordLe⟩ :=
      value_le_of_one_le (rounded_ofInt word) finite (by exact_mod_cast one)
    obtain ⟨powerNonneg, powerLe⟩ := value_le_of_one_le (rounded_power exponent) powerFinite
      (one_le_pow₀ (by norm_num))
    rw [raise, if_pos small, (rounded_mul finite powerFinite).isFinite_iff,
      abs_of_nonneg (mul_nonneg wordNonneg powerNonneg)]
    rw [Int.cast_natCast] at wordLe
    have unit : (0 : ℚ) < twoTo 970 := by exact_mod_cast twoTo_pos 970
    let carry : ℚ := 1 + 2 ^ (-53 : Int) + 2 ^ (-110 : Int)
    calc (ofInt word).value * (power exponent).value
        ≤ word * carry * (10 ^ exponent * carry) :=
          mul_le_mul wordLe powerLe powerNonneg (wordNonneg.trans wordLe)
      _ = word * 10 ^ exponent * carry ^ 2 := by ring
      _ ≤ safeLimit * carry ^ 2 := mul_le_mul_of_nonneg_right safe (sq_nonneg _)
      _ = 18014398509481979 * carry ^ 2 * twoTo 970 := by rw [safeLimit]; ring
      _ < 18014398509481983 * twoTo 970 :=
          mul_lt_mul_of_pos_right (by norm_num [carry]) unit
      _ = overflowLimit := overflowLimit_eq.symm

/-- A numeral that keeps away from the limit is read as a finite number, if its whole part has no
more digits than a word has room for. What the word leaves of the fraction only lowers the value. -/
theorem isFinite_stepwise {numeral : Numeral} (few : numeral.whole.length ≤ 19)
    (safe : numeral.magnitude ≤ safeLimit) : (stepwise numeral).isFinite = true := by
  have whole : Digit.value numeral.whole ≤ greatestWord :=
    ((Digit.value_lt _).trans_le (Nat.pow_le_pow_right (by decide) few)).le.trans (by decide)
  obtain ⟨taken, split, filled⟩ := exists_taken (Digit.value numeral.whole) numeral.fraction
  have fits := fillWord_le whole numeral.fraction
  rw [stepwise_eq (fillWord_whole whole) rfl]
  generalize fillWord (Digit.value numeral.whole) numeral.fraction = result at *
  obtain ⟨word, left⟩ := result
  dsimp only at *
  have exponent : numeral.exponent.getD 0 - (numeral.fraction.length - left.length : Int) =
      numeral.scale + left.length := by
    rw [Numeral.scale]
    omega
  rw [exponent]
  -- The digits that are left over stand behind those of the word.
  have digits : numeral.significand = word * 10 ^ left.length + Digit.value left := by
    rw [Numeral.significand, Digit.value_append, filled, split, Digit.value_append,
      List.length_append]
    ring
  have bounded : (word : ℚ) * 10 ^ (numeral.scale + left.length) ≤ safeLimit := by
    refine le_trans ?_ safe
    rw [Numeral.magnitude, digits, zpow_add₀ (by norm_num), zpow_natCast]
    push_cast
    have behind : (0 : ℚ) ≤ Digit.value left * 10 ^ numeral.scale := by positivity
    linarith
  have unsigned : (scale word (numeral.scale + left.length)).isFinite = true := by
    unfold scale
    split
    next below =>
      refine isFinite_lower (isFinite_ofInt ?_) _
      rw [Int.natAbs_natCast]
      exact fits.trans (by decide)
    next above =>
      obtain ⟨places, same⟩ : ∃ places : Nat, numeral.scale + left.length = places :=
        ⟨(numeral.scale + left.length).toNat, by omega⟩
      rw [same, zpow_natCast] at bounded
      rw [same, Int.toNat_natCast]
      exact isFinite_raise fits bounded
  cases numeral.negative with
  | false => exact unsigned
  | true => exact (isFinite_neg _).trans unsigned

end Conversion

end TraceChart
