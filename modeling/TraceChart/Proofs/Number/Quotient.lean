import TraceChart.Proofs.Number.Rounding

/-!
# Rounding equal quotients

A quotient is rounded by its value: numerator and denominator may be multiplied by the same factor.
So the value alone says when a quotient is rounded to zero or to an infinite number, and a quotient
that has the value of a number is rounded to that number.
-/

namespace TraceChart.Binary64

/-! ### Common factors -/

theorem nearestEven_mul_right (numerator denominator : Nat) {factor : Nat} (positive : 0 < factor) :
    nearestEven (numerator * factor) (denominator * factor) = nearestEven numerator denominator := by
  have twice : 2 * (numerator * factor % (denominator * factor)) =
      2 * (numerator % denominator) * factor := by
    rw [Nat.mul_mod_mul_right, Nat.mul_assoc]
  unfold nearestEven
  dsimp only
  rw [Nat.mul_div_mul_right _ _ positive, twice]
  simp only [Nat.mul_lt_mul_right positive]

theorem nearestEven_eq_zero {numerator denominator : Nat} (small : 2 * numerator < denominator) :
    nearestEven numerator denominator = 0 := by
  unfold nearestEven
  dsimp only
  rw [Nat.mod_eq_of_lt (by omega), if_pos small]
  exact Nat.div_eq_of_lt (by omega)

/-- The binade of a quotient is the only exponent between whose powers it lies. -/
theorem binade_eq {numerator denominator : Nat} (numeratorPos : 0 < numerator)
    (denominatorPos : 0 < denominator) {exponent : Int}
    (low : (2 : ℚ) ^ exponent ≤ numerator / denominator)
    (high : (numerator / denominator : ℚ) < 2 ^ (exponent + 1)) :
    binade numerator denominator = exponent := by
  obtain ⟨below, above⟩ := binade_bounds numeratorPos denominatorPos
  have least := (zpow_lt_zpow_iff_right₀ (by norm_num)).mp (low.trans_lt above)
  have most := (zpow_lt_zpow_iff_right₀ (by norm_num)).mp (below.trans_lt high)
  omega

theorem binade_mul_right {numerator denominator factor : Nat} (numeratorPos : 0 < numerator)
    (denominatorPos : 0 < denominator) (factorPos : 0 < factor) :
    binade (numerator * factor) (denominator * factor) = binade numerator denominator := by
  have same : ((numerator * factor : Nat) / (denominator * factor : Nat) : ℚ) =
      numerator / denominator := by
    have nonzero : (factor : ℚ) ≠ 0 := by exact_mod_cast factorPos.ne'
    push_cast
    exact mul_div_mul_right _ _ nonzero
  obtain ⟨below, above⟩ := binade_bounds numeratorPos denominatorPos
  exact binade_eq (Nat.mul_pos numeratorPos factorPos) (Nat.mul_pos denominatorPos factorPos)
    (same ▸ below) (same ▸ above)

theorem round_mul_right (negative : Bool) (numerator : Nat) {denominator factor : Nat}
    (denominatorPos : 0 < denominator) (factorPos : 0 < factor) :
    round negative (numerator * factor) (denominator * factor) =
      round negative numerator denominator := by
  rcases Nat.eq_zero_or_pos numerator with rfl | numeratorPos
  · rw [Nat.zero_mul]
    rfl
  · have scaled (power other : Nat) :
        nearestEven (numerator * factor * power) (denominator * factor * other) =
          nearestEven (numerator * power) (denominator * other) := by
      rw [Nat.mul_right_comm, Nat.mul_right_comm denominator, nearestEven_mul_right _ _ factorPos]
    unfold round
    rw [if_neg numeratorPos.ne', if_neg (Nat.mul_pos numeratorPos factorPos).ne',
      binade_mul_right numeratorPos denominatorPos factorPos]
    simp only [scaled]

/-- Equal quotients are rounded to the same number. -/
theorem round_congr (negative : Bool) {numerator denominator otherNumerator otherDenominator : Nat}
    (positive : 0 < denominator) (otherPositive : 0 < otherDenominator)
    (same : (numerator / denominator : ℚ) = otherNumerator / otherDenominator) :
    round negative numerator denominator = round negative otherNumerator otherDenominator := by
  have crossed : numerator * otherDenominator = otherNumerator * denominator := by
    rw [div_eq_div_iff (by exact_mod_cast positive.ne') (by exact_mod_cast otherPositive.ne')] at same
    exact_mod_cast same
  rw [← round_mul_right negative numerator positive otherPositive, crossed,
    Nat.mul_comm denominator, round_mul_right negative otherNumerator otherPositive positive]

/-! ### Quotients with known results -/

section Quotient

variable {numerator denominator : Nat} (numeratorPos : 0 < numerator)
  (denominatorPos : 0 < denominator)

include numeratorPos denominatorPos

/-- A quotient that has the value of a positive number is rounded to it. -/
theorem round_canonical {significand : Nat} {exponent : Int}
    (canonical : Canonical significand exponent)
    (same : (numerator / denominator : ℚ) = significand * 2 ^ exponent) :
    round false numerator denominator = .finite false significand exponent canonical := by
  obtain ⟨small, least, _, normal⟩ := canonical
  have power := two_zpow_pos exponent
  have limit : (significand : ℚ) * 2 ^ exponent < 2 ^ (exponent + 52 + 1) := by
    have bound : (significand : ℚ) < 2 ^ (53 : Int) := by
      norm_num
      exact_mod_cast small
    rw [add_assoc, zpow_add₀ (by norm_num), mul_comm]
    exact mul_lt_mul_of_pos_left bound power
  obtain ⟨below, _⟩ := binade_bounds numeratorPos denominatorPos
  have most := (zpow_lt_zpow_iff_right₀ (by norm_num)).mp (below.trans_lt (same ▸ limit))
  -- A normal significand fixes the binade; without one the exponent is the least.
  have place : roundingExponent numerator denominator = exponent := by
    unfold roundingExponent
    rcases normal with full | rfl
    · have bound : (2 : ℚ) ^ (52 : Int) ≤ significand := by
        norm_num
        exact_mod_cast full
      have low : (2 : ℚ) ^ (exponent + 52) ≤ numerator / denominator := by
        rw [same, zpow_add₀ (by norm_num), mul_comm]
        exact mul_le_mul_of_nonneg_right bound power.le
      rw [binade_eq numeratorPos denominatorPos low (same ▸ limit)]
      omega
    · omega
  have rounded : roundedSignificand numerator denominator = significand :=
    le_antisymm (roundedSignificand_le denominatorPos (by rw [place, same]))
      (le_roundedSignificand denominatorPos (by rw [place, same]))
  rw [round_eq_ofParts numeratorPos, rounded, place, if_neg small.ne]
  exact dif_pos _

theorem round_of_large (large : (2 : ℚ) ^ (1024 : Int) ≤ numerator / denominator) :
    round false numerator denominator = .infinite false := by
  obtain ⟨_, above⟩ := binade_bounds numeratorPos denominatorPos
  have least := (zpow_lt_zpow_iff_right₀ (by norm_num)).mp (large.trans_lt above)
  have beyond : 971 < roundingExponent numerator denominator := by
    unfold roundingExponent
    omega
  have outside {significand : Nat} {exponent : Int} (high : 971 < exponent) :
      ofParts false significand exponent = .infinite false :=
    dif_neg fun canonical => by
      have most := canonical.2.2.1
      omega
  rw [round_eq_ofParts numeratorPos, outside beyond, outside (by omega), ite_self]

theorem round_of_small (small : (numerator / denominator : ℚ) < 2 ^ (-1075 : Int)) :
    round false numerator denominator = zero false := by
  obtain ⟨below, _⟩ := binade_bounds numeratorPos denominatorPos
  have most := (zpow_lt_zpow_iff_right₀ (by norm_num)).mp (below.trans_lt small)
  have place : roundingExponent numerator denominator = -1074 := by
    unfold roundingExponent
    omega
  have nothing : roundedSignificand numerator denominator = 0 := by
    have positive : (0 : ℚ) < denominator := by exact_mod_cast denominatorPos
    have powers : (2 : ℚ) ^ (1075 : Int) = twoTo 1074 * 2 := by
      rw [cast_twoTo]
      exact (zpow_natCast 2 (1074 + 1)).trans (pow_succ 2 1074)
    rw [zpow_neg, powers, div_lt_iff₀ positive, inv_mul_eq_div,
      lt_div_iff₀ (mul_pos (by exact_mod_cast twoTo_pos 1074) two_pos)] at small
    have half : 2 * (numerator * twoTo 1074) < denominator * 1 := by
      generalize twoTo 1074 = power at small ⊢
      have cast : ((2 * (numerator * power) : Nat) : ℚ) < (denominator * 1 : Nat) := by
        push_cast
        linarith
      exact_mod_cast cast
    rw [roundedSignificand, place]
    exact nearestEven_eq_zero half
  rw [round_eq_ofParts numeratorPos, nothing, place]
  rfl

end Quotient

end TraceChart.Binary64
