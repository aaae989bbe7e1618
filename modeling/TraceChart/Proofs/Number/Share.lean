import TraceChart.Proofs.Number.Monotone
import TraceChart.Proofs.Number.Whole

/-!
# Shares of a whole

A length that is less than a whole is a share of less than one, and such a share of a count is less
than the count, although both the quotient and the product are rounded. Rounding cannot reach one:
two numbers differ by at least as much of the greater one as the greatest number below one lacks of
one. And it cannot reach the count, because it adds less than is missing.
-/

namespace TraceChart.Binary64

/-- The most that rounding changes a value by, as a part of the value. -/
def roundoff : ℚ := 2 ^ (-53 : Int)

theorem roundoff_pos : 0 < roundoff :=
  two_zpow_pos _

theorem roundoff_lt_one : roundoff < 1 := by
  norm_num [roundoff]

/-- The greatest number below one. -/
def belowOne : Binary64 :=
  .finite false 9007199254740991 (-53) (by decide)

theorem value_belowOne : belowOne.value = 1 - roundoff := by
  norm_num [belowOne, roundoff, value, signed]

theorem lt_one_iff (number : Binary64) : number.lt 1.0 = true ↔ number.le belowOne = true := by
  have next : (1.0 : Binary64).rank = belowOne.rank + 1 := by decide
  have one : (1.0 : Binary64).isNaN = false := by decide
  have below : belowOne.isNaN = false := rfl
  simp only [lt, le, one, below, next, Int.lt_add_one_iff]

/-! ### Parts of a whole -/

theorem exists_canonical {number : Binary64} (finite : number.isFinite = true)
    (positive : 0 < number.value) : ∃ significand exponent, Canonical significand exponent ∧
      number.value = significand * 2 ^ exponent := by
  cases number <;> simp only [isFinite, Bool.false_eq_true] at finite
  case finite negative significand exponent canonical =>
    cases negative with
    | false => exact ⟨significand, exponent, canonical, by simp [value, signed]⟩
    | true =>
      have magnitude : (0 : ℚ) ≤ significand * 2 ^ exponent := by positivity
      simp only [value, signed, if_true, Int.cast_neg, Int.cast_natCast, neg_mul] at positive
      linarith

/-- What the lesser of two numbers lacks is at least as much of the greater one as the greatest
number below one lacks of one. -/
theorem value_le_of_lt {lesser greater : Binary64} (lesserFinite : lesser.isFinite = true)
    (greaterFinite : greater.isFinite = true) (nonneg : 0 ≤ lesser.value)
    (less : lesser.value < greater.value) : lesser.value ≤ belowOne.value * greater.value := by
  obtain ⟨whole, exponent, small, least, _, lesserEq⟩ := exists_value_eq lesserFinite
  obtain ⟨significand, unit, ⟨limited, _, _, normal⟩, greaterEq⟩ :=
    exists_canonical greaterFinite (nonneg.trans_lt less)
  rw [value_belowOne]
  rcases le_or_gt unit exponent with same | apart
  · -- Both are whole numbers of units of the greater one, so they are a unit apart.
    obtain ⟨raised, rfl⟩ := Int.le.dest same
    have inUnits : lesser.value = (whole * 2 ^ raised : Int) * 2 ^ unit := by
      rw [lesserEq, zpow_add₀ (by norm_num), zpow_natCast]
      push_cast
      ring
    rw [inUnits, greaterEq] at less
    have next : whole * 2 ^ raised + 1 ≤ (significand : Int) := by
      exact_mod_cast lt_of_mul_lt_mul_right less (two_zpow_pos unit).le
    have nextValue : ((whole * 2 ^ raised : Int) : ℚ) + 1 ≤ significand := by exact_mod_cast next
    have lost : significand * roundoff ≤ 1 := by
      rw [roundoff, zpow_neg, ← div_eq_mul_inv, div_le_one (two_zpow_pos 53)]
      exact_mod_cast limited.le
    rw [inUnits, greaterEq, ← mul_assoc]
    exact mul_le_mul_of_nonneg_right (by linarith) (two_zpow_pos unit).le
  · -- The lesser one lies in a lower binade, and the greatest number there lacks just as much.
    have full : (2 : ℚ) ^ 52 ≤ significand := by
      exact_mod_cast normal.resolve_right (by omega)
    have limit : (whole : ℚ) ≤ 2 ^ 53 - 1 := by
      have below : whole ≤ 2 ^ 53 - 1 := by
        simp only [significandLimit] at small
        omega
      exact_mod_cast below
    calc lesser.value = whole * 2 ^ exponent := lesserEq
      _ ≤ (2 ^ 53 - 1) * 2 ^ exponent := mul_le_mul_of_nonneg_right limit (two_zpow_pos _).le
      _ ≤ (2 ^ 53 - 1) * 2 ^ (unit - 1) :=
          mul_le_mul_of_nonneg_left (zpow_le_zpow_right₀ (by norm_num) (by omega)) (by norm_num)
      _ = (1 - roundoff) * (2 ^ 52 * 2 ^ unit) := by
          rw [zpow_sub_one₀ (by norm_num)]
          norm_num [roundoff]
          ring
      _ ≤ (1 - roundoff) * greater.value := by
          rw [greaterEq]
          have kept : 0 ≤ 1 - roundoff := by linarith [roundoff_lt_one]
          gcongr

theorem div_lt_one {length whole : Binary64} (lengthFinite : length.isFinite = true)
    (wholeFinite : whole.isFinite = true) (nonneg : 0 ≤ length.value)
    (less : length.value < whole.value) : (length / whole).lt 1.0 = true := by
  have positive := nonneg.trans_lt less
  refine (lt_one_iff _).mpr ((rounds_div lengthFinite wholeFinite positive.ne').below _ rfl ?_)
  rw [div_le_iff₀ positive]
  exact value_le_of_lt lengthFinite wholeFinite nonneg less

theorem not_div_lt_one {length whole : Binary64} (lengthFinite : length.isFinite = true)
    (wholeFinite : whole.isFinite = true) (positive : 0 < whole.value)
    (reached : whole.value ≤ length.value) : ¬ (length / whole).lt 1.0 = true := by
  have number := (rounds_div lengthFinite wholeFinite positive.ne').above 1.0 (by decide)
    (by rwa [value_one, le_div_iff₀ positive, one_mul])
  have ranks := ((le_iff _ _).mp number).2.2
  simp [lt, ranks]

/-- A finite length is no part at all of an infinite one. -/
theorem div_infinite_lt_one {length : Binary64} (finite : length.isFinite = true) :
    (length / infinite false).lt 1.0 = true := by
  cases length with
  | nan => cases finite
  | infinite => cases finite
  | finite negative significand exponent canonical =>
    change (zero (negative ^^ false)).lt 1.0 = true
    cases negative <;> decide

theorem lt_infinite {number : Binary64} (finite : number.isFinite = true) :
    number.lt (infinite false) = true := by
  have bounded : number.rank < (infinite false).rank := (rank_bounds finite).2
  have notNaN : (infinite false).isNaN = false := rfl
  simp [lt, isNaN_of_finite finite, notNaN, bounded]

/-- A length is a share of less than one exactly of a whole that it is less than. -/
theorem div_lt_one_iff {length whole : Binary64} (finite : length.isFinite = true)
    (nonneg : (0.0 : Binary64).le length = true) (positive : (0.0 : Binary64).lt whole = true) :
    (length / whole).lt 1.0 = true ↔ length.lt whole = true := by
  rcases pos_cases positive with rfl | ⟨wholeFinite, wholePos⟩
  · exact iff_of_true (div_infinite_lt_one finite) (lt_infinite finite)
  · rw [lt_iff_value_lt finite wholeFinite]
    refine ⟨fun share => ?_, div_lt_one finite wholeFinite ((zero_le_iff finite).mp nonneg)⟩
    by_contra reached
    exact not_div_lt_one finite wholeFinite wholePos (not_lt.mp reached) share

/-! ### Shares of a count -/

/-- A quotient is rounded up by at most a small part of it, or by half of the least number where
there are no finer numbers. -/
theorem value_round_le_roundoff {numerator denominator : Nat} (numeratorPos : 0 < numerator)
    (denominatorPos : 0 < denominator)
    (finite : (round false numerator denominator).isFinite = true) :
    (round false numerator denominator).value ≤
      numerator / denominator + numerator / denominator * roundoff + 2 ^ (-1075 : Int) := by
  have near := value_round_le numeratorPos denominatorPos finite
  have positive : (0 : ℚ) < numerator / denominator := by positivity
  have lowest : -1074 ≤ roundingExponent numerator denominator := le_max_left _ _
  rcases lowest.eq_or_lt with same | normal
  · have unit : (2 : ℚ) ^ roundingExponent numerator denominator = 2 * 2 ^ (-1075 : Int) := by
      rw [← same, ← zpow_one_add₀ (by norm_num)]
      norm_num
    have part := mul_pos positive roundoff_pos
    linarith
  · have large := le_quotient numeratorPos denominatorPos normal
    have unit : (2 : ℚ) ^ roundingExponent numerator denominator ≤
        2 * (numerator / denominator * roundoff) := by
      norm_num [leastNormal, roundoff] at large ⊢
      linarith
    have least := two_zpow_pos (-1075)
    linarith

theorem Rounded.value_le {result : Binary64} {exact : ℚ} (rounded : Rounded result exact)
    (finite : result.isFinite = true) (nonneg : 0 ≤ exact) :
    result.value ≤ exact + exact * roundoff + 2 ^ (-1075 : Int) := by
  obtain ⟨negative, numerator, denominator, denominatorPos, rfl, rfl⟩ := rounded
  rcases Nat.eq_zero_or_pos numerator with rfl | numeratorPos
  · have zeroed : (round negative 0 denominator).value = 0 := zero_value negative
    have nothing : ((signed negative 0 : Int) : ℚ) = 0 := by cases negative <;> rfl
    have least := two_zpow_pos (-1075)
    rw [zeroed, nothing, zero_div]
    linarith
  cases negative with
  | false => simpa [signed] using value_round_le_roundoff numeratorPos denominatorPos finite
  | true =>
    have positive : (0 : ℚ) < numerator / denominator := by positivity
    simp only [signed, if_true, Int.cast_neg, Int.cast_natCast, neg_div] at nonneg
    linarith

/-- A share of less than one of a count is less than the count. -/
theorem share_lt {share : Binary64} (nonneg : (0.0 : Binary64).le share = true)
    (less : share.lt 1.0 = true) {count : Nat} (positive : 0 < count)
    (small : count < significandLimit) :
    (share * ofInt count).isFinite = true ∧ 0 ≤ (share * ofInt count).value ∧
      (share * ofInt count).value < count := by
  have zeroFinite : (0.0 : Binary64).isFinite = true := rfl
  have shareLe := (lt_one_iff share).mp less
  have shareFinite := isFinite_between zeroFinite rfl nonneg shareLe
  have shareNonneg := (zero_le_iff shareFinite).mp nonneg
  have shareValue := (le_iff_value_le _ _ shareFinite rfl).mp shareLe
  rw [value_belowOne] at shareValue
  obtain ⟨countFinite, countValue⟩ := ofInt_natCast small
  have rounded := rounded_mul shareFinite countFinite
  rw [countValue] at rounded
  have exactNonneg : 0 ≤ share.value * count := by positivity
  have exactLe : share.value * count ≤ (1 - roundoff) * count :=
    mul_le_mul_of_nonneg_right shareValue (Nat.cast_nonneg count)
  have lack : roundoff * 1 ≤ roundoff * count :=
    mul_le_mul_of_nonneg_left (by exact_mod_cast positive) roundoff_pos.le
  obtain ⟨finite, above, _⟩ := rounded.rounds.between zeroFinite countFinite
    (by rwa [value_zero]) (by rw [countValue]; linarith [roundoff_pos])
  rw [value_zero] at above
  refine ⟨finite, above, ?_⟩
  have near := rounded.value_le finite exactNonneg
  -- What is missing at first is all but regained, up to a part of a part of the count.
  have least : (2 : ℚ) ^ (-1075 : Int) < roundoff * roundoff := by
    rw [roundoff, ← zpow_add₀ (by norm_num)]
    exact zpow_lt_zpow_right₀ (by norm_num) (by norm_num)
  have gained := mul_le_mul_of_nonneg_right exactLe roundoff_pos.le
  have missing := mul_le_mul_of_nonneg_left lack roundoff_pos.le
  linarith

end TraceChart.Binary64
