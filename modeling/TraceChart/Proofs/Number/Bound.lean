import TraceChart.Proofs.Number.Monotone

/-!
# Bounds that are powers of two

A power of two, and few times one, is a number itself, so that no rounding carries a result past it.
Lower bounds of this kind are handed on through products and quotients, whether or not the numbers
are finite.
-/

namespace TraceChart.Binary64

theorem exists_finite_few {whole exponent : Int} (few : whole.natAbs ≤ 8) (least : -1074 ≤ exponent)
    (most : exponent ≤ 1020) :
    ∃ number : Binary64, number.isFinite = true ∧ number.value = whole * 2 ^ exponent := by
  rcases le_or_gt exponent 971 with low | high
  · exact exists_finite_dyadic (by simp only [significandLimit]; omega) least low
  · -- The significand takes up what the exponent has no room for.
    obtain ⟨number, isFinite, valued⟩ := @exists_finite_dyadic (whole * 2 ^ 49) (exponent - 49)
      (by simp only [significandLimit]; omega) (by omega) (by omega)
    refine ⟨number, isFinite, ?_⟩
    rw [valued, zpow_sub₀ (by norm_num)]
    push_cast
    field_simp

theorem exists_finite_power {exponent : Int} (least : -1074 ≤ exponent) (most : exponent ≤ 1023) :
    ∃ number : Binary64, number.isFinite = true ∧ number.value = 2 ^ exponent := by
  rcases le_or_gt exponent 1020 with low | high
  · simpa using @exists_finite_few 1 _ (by decide) least low
  · obtain ⟨number, isFinite, valued⟩ := @exists_finite_few 8 (exponent - 3) (by decide)
      (by omega) (by omega)
    refine ⟨number, isFinite, ?_⟩
    rw [valued, zpow_sub₀ (by norm_num)]
    norm_num
    ring

/-- A finite result below a power of two comes from a value below it. -/
theorem Rounded.lt_power {result : Binary64} {exact : ℚ} (rounded : Rounded result exact)
    (isFinite : result.isFinite = true) {exponent : Int} (least : -1074 ≤ exponent)
    (below : result.value < 2 ^ exponent) : exact < 2 ^ exponent := by
  rcases le_or_gt exponent 1023 with most | large
  · by_contra beyond
    obtain ⟨bound, boundFinite, valued⟩ := exists_finite_power least most
    have reached := rounded.rounds.above bound boundFinite (valued ▸ not_lt.mp beyond)
    have values := (le_iff_value_le _ _ boundFinite isFinite).mp reached
    linarith
  · -- All values that are rounded to finite numbers are less than such a power.
    have power : (2 : ℚ) ^ (1024 : Int) ≤ 2 ^ exponent := zpow_le_zpow_right₀ one_le_two large
    exact (abs_lt.mp (rounded.isFinite_iff.mp isFinite)).2.trans_le (overflowLimit_le.trans power)

/-- A number that is infinite or has at least some value. -/
def AtLeast (number : Binary64) (least : ℚ) : Prop :=
  number = infinite false ∨ number.isFinite = true ∧ least ≤ number.value

namespace AtLeast

variable {number factor bound : Binary64} {least : ℚ}

theorem of_le (boundFinite : bound.isFinite = true) (ordered : bound.le number = true) :
    number.AtLeast bound.value := by
  rcases le_cases ordered with rfl | infinite | ⟨_, isFinite⟩
  · cases boundFinite
  · exact .inl infinite
  · exact .inr ⟨isFinite, (le_iff_value_le _ _ boundFinite isFinite).mp ordered⟩

theorem mono {lower : ℚ} (above : number.AtLeast least) (ordered : lower ≤ least) :
    number.AtLeast lower :=
  above.imp_right fun ⟨isFinite, values⟩ => ⟨isFinite, ordered.trans values⟩

theorem pos (above : number.AtLeast least) (positive : 0 < least) :
    (0.0 : Binary64).lt number = true := by
  rcases above with rfl | ⟨isFinite, values⟩
  · rfl
  · rw [lt_iff_value_lt rfl isFinite, value_zero]
    exact positive.trans_le values

/-- A product is not below a number that the exact product is not below. -/
theorem mul (above : number.AtLeast least) (isFinite : factor.isFinite = true)
    (positive : 0 < factor.value) (boundFinite : bound.isFinite = true)
    (reached : bound.value ≤ factor.value * least) : (factor * number).AtLeast bound.value := by
  rcases above with rfl | ⟨numberFinite, values⟩
  · exact .inl (mul_infinite_of_pos isFinite positive)
  · refine of_le boundFinite ((rounds_mul isFinite numberFinite).above bound boundFinite ?_)
    exact reached.trans (mul_le_mul_of_nonneg_left values positive.le)

theorem div (above : number.AtLeast least) (isFinite : factor.isFinite = true)
    (positive : 0 < factor.value) (boundFinite : bound.isFinite = true)
    (reached : bound.value * factor.value ≤ least) : (number / factor).AtLeast bound.value := by
  rcases above with rfl | ⟨numberFinite, values⟩
  · exact .inl (infinite_div isFinite positive)
  · refine of_le boundFinite ((rounds_div numberFinite isFinite positive.ne').above bound
      boundFinite ?_)
    rw [le_div_iff₀ positive]
    exact reached.trans values

end AtLeast

end TraceChart.Binary64
