import TraceChart.Proofs.Number.Whole

/-!
# Sevenths

The whole part of a seventh, which is how many characters have room in a width, is that of the
exact quotient as long as it is below 2^51, although the quotient is rounded.
-/

namespace TraceChart.Binary64

theorem seven_eq : (7.0 : Binary64) = .finite false 7881299347898368 (-50) (by decide) := by
  decide

theorem value_seven : (7.0 : Binary64).value = 7 := by
  rw [seven_eq]
  norm_num [value, signed]

/-- To divide by seven rounds the exact seventh. -/
theorem rounds_div_seven {number : Binary64} (finite : number.isFinite = true) :
    Rounds (number / 7.0) (number.value / 7) := by
  have rounds := @rounds_div number 7.0 finite (by decide) (by rw [value_seven]; norm_num)
  rwa [value_seven] at rounds

/-- The seventh of a number is rounded at a unit of which the number itself is a multiple of four:
it lies at least two binades above its seventh. -/
theorem exists_unit_of_seventh {number : Binary64} (finite : number.isFinite = true)
    (large : 7 ≤ number.value) (resultFinite : (number / 7.0).isFinite = true) :
    ∃ (multiple : Nat) (unit : Int), number.value = multiple * 2 ^ (unit + 2) ∧
      2 * (number / 7.0).value ≤ 2 * (number.value / 7) + 2 ^ unit ∧
      leastNormal * 2 ^ unit ≤ number.value / 7 := by
  cases number <;> simp only [isFinite, Bool.false_eq_true] at finite
  case finite negative significand exponent canonical =>
    have nonneg : (0 : ℚ) ≤ significand * 2 ^ exponent := by positivity
    have unsigned : negative = false := by
      cases negative with
      | false => rfl
      | true =>
        simp only [value, signed, if_true, Int.cast_neg, Int.cast_natCast, neg_mul] at large
        linarith
    subst unsigned
    have valued : (Binary64.finite false significand exponent canonical).value =
        significand * 2 ^ exponent := by simp [value, signed]
    rw [valued] at large
    let numerator := significand * twoTo (exponent + 50).toNat
    let denominator := 7881299347898368 * twoTo (-(exponent + 50)).toNat
    have divided : Binary64.finite false significand exponent canonical / 7.0 =
        round false numerator denominator := by
      rw [seven_eq]
      rfl
    have quotient : (numerator / denominator : ℚ) = significand * 2 ^ exponent / 7 := by
      have shift := two_zpow_eq (exponent + 50)
      rw [zpow_add₀ (by norm_num)] at shift
      simp only [numerator, denominator]
      push_cast
      rw [cast_twoTo, cast_twoTo, mul_div_mul_comm, ← shift]
      norm_num
      ring
    have denominatorPos : 0 < denominator := Nat.mul_pos (by decide) (twoTo_pos _)
    have numeratorPos : 0 < numerator := by
      have positive : (0 : ℚ) < numerator / denominator := by
        rw [quotient]
        linarith
      have cast : (0 : ℚ) < numerator := by
        by_contra zero
        rw [le_antisymm (not_lt.mp zero) (Nat.cast_nonneg _), zero_div] at positive
        exact lt_irrefl _ positive
      exact_mod_cast cast
    obtain ⟨low, high⟩ := binade_bounds numeratorPos denominatorPos
    rw [quotient] at low high
    have fromOne : -1 < binade numerator denominator := by
      have power : (2 : ℚ) ^ (0 : Int) < 2 ^ (binade numerator denominator + 1) := by
        rw [zpow_zero]
        linarith
      have exponents := (zpow_lt_zpow_iff_right₀ (by norm_num)).mp power
      omega
    have twoBelow : binade numerator denominator < exponent + 51 := by
      have limit : (significand : ℚ) < 9007199254740992 := by exact_mod_cast canonical.1
      have bound := mul_lt_mul_of_pos_right limit (two_zpow_pos exponent)
      have power : (2 : ℚ) ^ binade numerator denominator < 2 ^ (exponent + 51) := by
        rw [zpow_add₀ (by norm_num)]
        norm_num
        linarith
      exact (zpow_lt_zpow_iff_right₀ (by norm_num)).mp power
    have place : roundingExponent numerator denominator =
        binade numerator denominator - 52 := max_eq_right (by omega)
    obtain ⟨apart, raised⟩ : ∃ apart : Nat,
        exponent = roundingExponent numerator denominator + 2 + apart :=
      ⟨(exponent - roundingExponent numerator denominator - 2).toNat, by omega⟩
    refine ⟨significand * 2 ^ apart, roundingExponent numerator denominator, ?_, ?_, ?_⟩
    · rw [valued, raised, zpow_add₀ (by norm_num), zpow_natCast]
      push_cast
      ring
    · rw [divided] at resultFinite ⊢
      have near := value_round_le numeratorPos denominatorPos resultFinite
      rwa [quotient, ← valued] at near
    · have normal := le_quotient numeratorPos denominatorPos (by omega)
      rwa [quotient, ← valued] at normal

/-- A number below seven times a count has its seventh below the count, though the seventh is
rounded. -/
theorem seventh_lt {number : Binary64} (finite : number.isFinite = true) (large : 7 ≤ number.value)
    {count : Nat} (small : count < 2251799813685248) (below : number.value < 7 * count) :
    (number / 7.0).value < count := by
  by_contra reached
  obtain ⟨one, oneFinite, oneValue⟩ := exists_finite_value 1 0 (by decide) (by decide) (by decide)
  obtain ⟨most, mostFinite, mostValue⟩ := exists_finite_value count 0 (small.trans (by decide))
    (by decide) (by decide)
  rw [zpow_zero, mul_one] at oneValue mostValue
  have rounds := rounds_div_seven finite
  have resultFinite := (rounds.between oneFinite mostFinite
    (by rw [oneValue]; push_cast; linarith) (by rw [mostValue]; linarith)).1
  obtain ⟨multiple, unit, exact, near, normal⟩ := exists_unit_of_seventh finite large resultFinite
  -- The unit is at most a quarter, so in quarters of units the count is a natural too.
  have fine : unit ≤ -2 := by
    by_contra coarse
    have half : (2 : ℚ) ^ (-1 : Int) ≤ 2 ^ unit := zpow_le_zpow_right₀ (by norm_num) (by omega)
    have bounded : (count : ℚ) < 2251799813685248 := by exact_mod_cast small
    norm_num [leastNormal] at half normal
    linarith
  obtain ⟨shift, rfl⟩ : ∃ shift : Nat, unit = -(shift : Int) - 2 := ⟨(-unit - 2).toNat, by omega⟩
  have power : (0 : ℚ) < 2 ^ shift := by positivity
  have whole : number.value * 2 ^ shift = multiple := by
    rw [exact, sub_add_cancel, zpow_neg, zpow_natCast]
    field_simp
  have quarter : (2 : ℚ) ^ (-(shift : Int) - 2) * 2 ^ shift = 1 / 4 := by
    rw [zpow_sub₀ (by norm_num), zpow_neg, zpow_natCast]
    field_simp
    norm_num
  have less : multiple + 1 ≤ 7 * count * 2 ^ shift := by
    have scaled := mul_lt_mul_of_pos_right below power
    rw [whole] at scaled
    exact_mod_cast scaled
  have close : (14 * count * 2 ^ shift : ℚ) ≤ 2 * multiple + 7 / 4 := by
    have bound : (14 * count : ℚ) ≤ 2 * number.value + 7 * 2 ^ (-(shift : Int) - 2) := by
      linarith
    calc (14 * count * 2 ^ shift : ℚ)
        ≤ (2 * number.value + 7 * 2 ^ (-(shift : Int) - 2)) * 2 ^ shift :=
          mul_le_mul_of_nonneg_right bound power.le
      _ = 2 * (number.value * 2 ^ shift) + 7 * (2 ^ (-(shift : Int) - 2) * 2 ^ shift) := by ring
      _ = 2 * multiple + 7 / 4 := by
          rw [whole, quarter]
          ring
  have apart : (multiple + 1 : ℚ) ≤ 7 * count * 2 ^ shift := by exact_mod_cast less
  linarith

theorem le_seventh_iff {number : Binary64} (finite : number.isFinite = true)
    (large : 7 ≤ number.value) {count : Nat} (small : count < 2251799813685248) :
    count ≤ (number / 7.0).value ↔ 7 * count ≤ number.value := by
  constructor
  · intro reached
    by_contra below
    exact absurd reached (not_le.mpr (seventh_lt finite large small (not_le.mp below)))
  · intro reached
    obtain ⟨low, lowFinite, lowValue⟩ := exists_finite_value count 0 (small.trans (by decide))
      (by decide) (by decide)
    rw [zpow_zero, mul_one] at lowValue
    have rounds := rounds_div_seven finite
    rw [← lowValue]
    exact (rounds.between lowFinite finite (by rw [lowValue]; linarith) (by linarith)).2.1

end TraceChart.Binary64
