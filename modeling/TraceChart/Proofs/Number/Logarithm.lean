import TraceChart.Number.Exact
import TraceChart.Proofs.Number.Decimal

/-!
# Exact decades

Counted in digits, the decade of a positive quotient is the whole part of its decimal logarithm, and
the power of ten at it is the greatest that the quotient is not less than.
-/

namespace TraceChart

theorem digitCount_eq (number : Nat) : digitCount number = Nat.log 10 number + 1 := by
  induction number using digitCount.induct with
  | case1 number small => rw [digitCount, if_pos small, Nat.log_of_lt small]
  | case2 number large ih =>
    rw [digitCount, if_neg large, ih, Nat.log_of_one_lt_of_le (by decide) (not_lt.mp large)]

/-- To round a logarithm up is to count the digits of one less. -/
theorem clog_eq_digitCount {number : Nat} (several : 2 ≤ number) :
    Nat.clog 10 number = digitCount (number - 1) := by
  rw [digitCount_eq]
  apply eq_of_forall_ge_iff
  intro bound
  rw [Nat.clog_le_iff_le_pow (by decide), Nat.succ_le_iff,
    Nat.log_lt_iff_lt_pow (by decide) (by omega)]
  omega

theorem decimalExponent_eq_log {numerator denominator : Nat} (numeratorPos : 0 < numerator)
    (denominatorPos : 0 < denominator) :
    decimalExponent numerator denominator = Int.log 10 (numerator / denominator : ℚ) := by
  have divisor : (0 : ℚ) < denominator := by exact_mod_cast denominatorPos
  unfold decimalExponent
  split
  next large =>
    have one : (1 : ℚ) ≤ numerator / denominator := by
      rw [one_le_div divisor]
      exact_mod_cast large
    rw [Int.log_of_one_le_right 10 one, Nat.floor_div_eq_div, digitCount_eq]
    push_cast
    ring
  next small =>
    have less : (numerator / denominator : ℚ) ≤ 1 := by
      rw [div_le_one divisor]
      exact_mod_cast (not_le.mp small).le
    -- The inverse, rounded up, is one more than the quotient whose digits are counted.
    have inverse : ⌈((numerator / denominator : ℚ))⁻¹⌉₊ = (denominator - 1) / numerator + 1 := by
      have dividend : (0 : ℚ) < numerator := by exact_mod_cast numeratorPos
      have below := Nat.div_mul_le_self (denominator - 1) numerator
      have above := Nat.lt_div_mul_add (a := denominator - 1) numeratorPos
      rw [inv_div, Nat.ceil_eq_iff (Nat.add_one_ne_zero _), Nat.add_sub_cancel, lt_div_iff₀ dividend,
        div_le_iff₀ dividend]
      constructor
      · exact_mod_cast (show (denominator - 1) / numerator * numerator < denominator by omega)
      · have reached : denominator ≤ ((denominator - 1) / numerator + 1) * numerator := by
          rw [Nat.add_mul, Nat.one_mul]
          omega
        exact_mod_cast reached
    have several : 1 ≤ (denominator - 1) / numerator :=
      (Nat.one_le_div_iff numeratorPos).mpr (by omega)
    rw [Int.log_of_right_le_one 10 less, inverse, clog_eq_digitCount (by omega), Nat.add_sub_cancel]

/-- A factor that is a power of ten moves the logarithm by its exponent. -/
theorem log_mul_zpow {value : ℚ} (positive : 0 < value) (power : Int) :
    Int.log 10 (value * 10 ^ power) = Int.log 10 value + power := by
  have unit : (0 : ℚ) < 10 ^ power := zpow_pos (by norm_num) _
  apply eq_of_forall_le_iff
  intro bound
  rw [← Int.zpow_le_iff_le_log (by decide) (mul_pos positive unit), ← sub_le_iff_le_add,
    ← Int.zpow_le_iff_le_log (by decide) positive, Nat.cast_ofNat, zpow_sub₀ (by norm_num),
    div_le_iff₀ unit]

theorem tenPower_eq (exponent : Int) : tenPower exponent = 10 ^ exponent := by
  rw [ten_zpow_eq, tenPower]
  split
  next negative =>
    have none : exponent.toNat = 0 := by omega
    have same : (-exponent).toNat = exponent.natAbs := by omega
    rw [none, same]
    simp [tenTo]
  next nonneg =>
    have none : (-exponent).toNat = 0 := by omega
    rw [none]
    simp [tenTo]

namespace Exact

theorem decade_of_pos {value : Rat} (positive : 0 < value) :
    Scalar.decade value = .at (Int.log 10 value) := by
  change Exact.decade value = _
  rw [Exact.decade, if_neg (not_lt.mpr positive.le), if_neg positive.ne']
  have numeratorPos := Rat.num_pos.mpr positive
  have quotient : (value.num.natAbs / value.den : ℚ) = value := by
    rw [Nat.cast_natAbs, abs_of_pos numeratorPos, Rat.num_div_den]
  rw [decimalExponent_eq_log (Int.natAbs_pos.mpr numeratorPos.ne') value.den_pos, quotient]

theorem log_bounds {value : Rat} (positive : 0 < value) :
    (10 : ℚ) ^ Int.log 10 value ≤ value ∧ value < 10 * 10 ^ Int.log 10 value := by
  have least := Int.zpow_log_le_self (by decide : 1 < 10) positive
  have next := Int.lt_zpow_succ_log_self (by decide : 1 < 10) value
  rw [zpow_add_one₀ (by norm_num), mul_comm] at next
  exact ⟨by exact_mod_cast least, by exact_mod_cast next⟩

theorem powerOfTen_decade {value : Rat} (positive : 0 < value) :
    Scalar.powerOfTen (Scalar.decade value) = (10 : ℚ) ^ Int.log 10 value := by
  rw [decade_of_pos positive]
  exact tenPower_eq _

end Exact

end TraceChart
