import TraceChart.Proofs.Number.Order

/-!
# Numbers that are exact

An integer of at most 53 bits, at any power of two that is neither too small nor too large, is a
number itself, and an operation whose exact result is such a number returns it without rounding.
Where the fraction of a number is dropped, the whole part that stays can be read off bounds of its
value.
-/

namespace TraceChart

theorem Extended.within_bounds {low high : Int} (nonpos : low ≤ 0) (nonneg : 0 ≤ high)
    (place : Extended) : low ≤ place.within low high ∧ place.within low high ≤ high := by
  cases place <;> simp only [within] <;> omega

namespace Binary64

/-! ### Numbers with a given value -/

/-- A natural below the limit has a number at any exponent: it is doubled, and the exponent lowered,
until the two are canonical. -/
theorem exists_finite_value (significand : Nat) (exponent : Int)
    (small : significand < significandLimit) (least : -1074 ≤ exponent) (most : exponent ≤ 971) :
    ∃ number : Binary64, number.isFinite = true ∧ number.value = significand * 2 ^ exponent := by
  by_cases normal : leastNormal ≤ significand ∨ exponent = -1074
  · exact ⟨.finite false significand exponent ⟨small, least, most, normal⟩, rfl, by
      simp [value, signed]⟩
  · push Not at normal
    obtain ⟨number, finite, valued⟩ := exists_finite_value (2 * significand) (exponent - 1)
      (by simp only [leastNormal, significandLimit] at *; omega) (by omega) (by omega)
    refine ⟨number, finite, ?_⟩
    rw [valued, zpow_sub_one₀ (by norm_num)]
    push_cast
    ring
termination_by (exponent + 1074).toNat

theorem exists_finite_dyadic {whole exponent : Int} (small : whole.natAbs < significandLimit)
    (least : -1074 ≤ exponent) (most : exponent ≤ 971) :
    ∃ number : Binary64, number.isFinite = true ∧ number.value = whole * 2 ^ exponent := by
  obtain ⟨number, finite, valued⟩ := exists_finite_value whole.natAbs exponent small least most
  rcases whole.natAbs_eq with same | opposite
  · exact ⟨number, finite, by rw [valued, same]; simp⟩
  · exact ⟨number.neg, by rwa [isFinite_neg], by rw [value_neg, valued, opposite]; simp⟩

theorem exists_finite_int {whole : Int} (small : whole.natAbs < significandLimit) :
    ∃ number : Binary64, number.isFinite = true ∧ number.value = whole := by
  simpa using exists_finite_dyadic small (show -1074 ≤ (0 : Int) by omega) (by omega)

/-- A finite number is an integer of at most 53 bits at a power of two. -/
theorem exists_value_eq {number : Binary64} (finite : number.isFinite = true) :
    ∃ whole exponent : Int, whole.natAbs < significandLimit ∧ -1074 ≤ exponent ∧ exponent ≤ 971 ∧
      number.value = whole * 2 ^ exponent := by
  cases number <;> simp only [isFinite, Bool.false_eq_true] at finite
  case finite negative significand exponent canonical =>
    obtain ⟨small, least, most, _⟩ := canonical
    have magnitude : (signed negative significand).natAbs = significand := by
      simp only [signed]
      split <;> omega
    exact ⟨signed negative significand, exponent, magnitude.symm ▸ small, least, most, rfl⟩

/-- A whole number can be taken off a number that is not less: what is left needs no more bits. -/
theorem exists_sub_natCast {number : Binary64} (finite : number.isFinite = true) {taken : Nat}
    (least : taken ≤ number.value) (most : number.value < 2 ^ 53) :
    ∃ rest : Binary64, rest.isFinite = true ∧ rest.value = number.value - taken := by
  obtain ⟨whole, exponent, small, lowest, highest, valued⟩ := exists_value_eq finite
  rw [valued] at least most ⊢
  rcases le_or_gt 0 exponent with integral | fractional
  · -- The number is an integer itself.
    obtain ⟨power, rfl⟩ := Int.eq_ofNat_of_zero_le integral
    have above : (taken : Int) ≤ whole * 2 ^ power := by exact_mod_cast least
    have below : whole * 2 ^ power < (2 : Int) ^ 53 := by exact_mod_cast most
    obtain ⟨rest, restFinite, same⟩ := @exists_finite_int (whole * 2 ^ power - taken) (by
      simp only [significandLimit]
      omega)
    exact ⟨rest, restFinite, by rw [same]; push_cast; rfl⟩
  · -- At the exponent of the number, what is left is an integer that is no greater.
    obtain ⟨power, rfl⟩ := Int.exists_eq_neg_ofNat fractional.le
    have unit : (2 : ℚ) ^ (-(power : Int)) * 2 ^ power = 1 := by
      rw [zpow_neg, zpow_natCast]
      exact inv_mul_cancel₀ (by positivity)
    have split : whole * (2 : ℚ) ^ (-(power : Int)) - taken =
        ((whole - taken * 2 ^ power : Int) : ℚ) * 2 ^ (-(power : Int)) := by
      push_cast
      linear_combination (taken : ℚ) * unit
    have nonneg : 0 ≤ whole - taken * 2 ^ power := by
      have left := sub_nonneg.mpr least
      rw [split] at left
      exact_mod_cast nonneg_of_mul_nonneg_left left (two_zpow_pos _)
    have lost : (0 : Int) ≤ taken * 2 ^ power := by positivity
    rw [split]
    exact exists_finite_dyadic (by omega) lowest highest

/-- The only finite number that an exact value can be rounded to is the number with that value. -/
theorem Rounds.exact {result number : Binary64} {exact : ℚ} (rounds : Rounds result exact)
    (finite : number.isFinite = true) (same : number.value = exact) :
    result.isFinite = true ∧ result.value = exact := by
  have below := rounds.above number finite same.le
  have above := rounds.below number finite same.ge
  have resultFinite := isFinite_between finite finite below above
  refine ⟨resultFinite, le_antisymm ?_ ?_⟩
  · rw [← same]
    exact (le_iff_value_le _ _ resultFinite finite).mp above
  · rw [← same]
    exact (le_iff_value_le _ _ finite resultFinite).mp below

/-- A result between two values that numbers have is finite and between them too. -/
theorem Rounds.between {result low high : Binary64} {exact : ℚ} (rounds : Rounds result exact)
    (lowFinite : low.isFinite = true) (highFinite : high.isFinite = true)
    (above : low.value ≤ exact) (below : exact ≤ high.value) :
    result.isFinite = true ∧ low.value ≤ result.value ∧ result.value ≤ high.value := by
  have lowLe := rounds.above low lowFinite above
  have leHigh := rounds.below high highFinite below
  have finite := isFinite_between lowFinite highFinite lowLe leHigh
  exact ⟨finite, (le_iff_value_le _ _ lowFinite finite).mp lowLe,
    (le_iff_value_le _ _ finite highFinite).mp leHigh⟩

/-- The same between two integers at a power of two. -/
theorem Rounds.between_dyadic {result : Binary64} {exact : ℚ} (rounds : Rounds result exact)
    (low high exponent : Int) (lowSmall : low.natAbs < significandLimit)
    (highSmall : high.natAbs < significandLimit) (least : -1074 ≤ exponent)
    (most : exponent ≤ 971) (above : low * 2 ^ exponent ≤ exact)
    (below : exact ≤ high * 2 ^ exponent) :
    result.isFinite = true ∧ low * 2 ^ exponent ≤ result.value ∧
      result.value ≤ high * 2 ^ exponent := by
  obtain ⟨lowest, lowFinite, lowValue⟩ := exists_finite_dyadic lowSmall least most
  obtain ⟨highest, highFinite, highValue⟩ := exists_finite_dyadic highSmall least most
  rw [← lowValue] at above ⊢
  rw [← highValue] at below ⊢
  exact rounds.between lowFinite highFinite above below

theorem rounded_ofInt (whole : Int) : Rounded (ofInt whole) whole := by
  have rounded := rounded_round (whole < 0) whole.natAbs one_pos
  have same : (signed (whole < 0) whole.natAbs / (1 : Nat) : ℚ) = whole := by
    have sign : signed (whole < 0) whole.natAbs = whole := by
      simp only [signed, decide_eq_true_eq]
      split <;> omega
    rw [sign, Nat.cast_one, div_one]
  rwa [same] at rounded

theorem ofInt_exact {whole : Int} (small : whole.natAbs < significandLimit) :
    (ofInt whole).isFinite = true ∧ (ofInt whole).value = whole := by
  obtain ⟨number, finite, valued⟩ := exists_finite_int small
  exact (rounded_ofInt whole).rounds.exact finite valued

theorem ofInt_natCast {count : Nat} (small : count < significandLimit) :
    (ofInt count).isFinite = true ∧ (ofInt count).value = count := by
  simpa using ofInt_exact (show (count : Int).natAbs < significandLimit by omega)

/-- Whole numbers are added without rounding. -/
theorem add_exact {left right : Binary64} {first second : Nat}
    (leftExact : left.isFinite = true ∧ left.value = first)
    (rightExact : right.isFinite = true ∧ right.value = second)
    (small : first + second < significandLimit) :
    (left + right).isFinite = true ∧ (left + right).value = first + second := by
  obtain ⟨number, finite, valued⟩ := @exists_finite_int (first + second : Nat) small
  rw [Int.cast_natCast, Nat.cast_add] at valued
  have rounds := rounds_add leftExact.1 rightExact.1
  rw [leftExact.2, rightExact.2] at rounds
  exact rounds.exact finite valued

/-- A second is noticed beside a number that is not too far below zero. -/
theorem lt_add_one {number : Binary64} (finite : number.isFinite = true)
    (sumFinite : (number + 1.0).isFinite = true) (least : -2 ^ 53 ≤ number.value)
    (most : number.value ≤ 0) : number.lt (number + 1.0) = true := by
  -- The next whole number is reached within the second, and is a number itself.
  have above := Int.lt_floor_add_one number.value
  have below := Int.floor_le number.value
  have lowest : -2 ^ 53 ≤ ⌊number.value⌋ := Int.le_floor.mpr (by exact_mod_cast least)
  have highest : ⌊number.value⌋ ≤ 0 := by exact_mod_cast below.trans most
  have small : (⌊number.value⌋ + 1).natAbs < significandLimit := by
    simp only [significandLimit]
    omega
  obtain ⟨whole, wholeFinite, valued⟩ := exists_finite_int small
  have reached : whole.le (number + 1.0) = true := by
    refine (rounds_add finite (by decide)).above whole wholeFinite ?_
    rw [valued, value_one]
    push_cast
    linarith
  rw [lt_iff_value_lt finite sumFinite]
  have wholeLe := (le_iff_value_le _ _ wholeFinite sumFinite).mp reached
  rw [valued] at wholeLe
  push_cast at wholeLe
  linarith

/-- A whole number that is written with one decimal place. -/
theorem literal_exact {count : Nat} (positive : 0 < count) (small : count < significandLimit) :
    (OfScientific.ofScientific (10 * count) true 1 : Binary64).isFinite = true ∧
      (OfScientific.ofScientific (10 * count) true 1 : Binary64).value = count := by
  obtain ⟨number, finite, valued⟩ := exists_finite_value count 0 small (by omega) (by omega)
  have written : (OfScientific.ofScientific (10 * count) true 1 : Binary64) =
      round false (10 * count * 1) 10 := by
    change ofDecimal false (10 * count) (-1) = _
    rw [ofDecimal, if_neg (by omega), if_neg (by decide), if_neg (by omega)]
    rfl
  have rounds := rounds_round false (10 * count * 1) (show 0 < 10 by decide)
  have whole : (signed false (10 * count * 1) / (10 : Nat) : ℚ) = count := by
    simp only [signed, Bool.false_eq_true, if_false]
    push_cast
    ring
  rw [whole] at rounds
  rw [written]
  exact rounds.exact finite (by simpa using valued)

/-! ### Whole parts -/

/-- A rule for quotients is applied to a quotient with the value of the number. -/
theorem exists_quotient {number : Binary64} (finite : number.isFinite = true) :
    ∃ (numerator : Int) (denominator : Nat), 0 < denominator ∧
      number.value = numerator / denominator ∧
      ∀ rule, whole rule number = .at (rule numerator denominator) := by
  cases number <;> simp only [isFinite, Bool.false_eq_true] at finite
  case finite negative significand exponent canonical =>
    have positive := twoTo_pos (-exponent).toNat
    refine ⟨signed negative (significand * twoTo exponent.toNat), twoTo (-exponent).toNat,
      positive, ?_, fun rule => rfl⟩
    rw [eq_div_iff (by exact_mod_cast positive.ne')]
    exact_mod_cast value_mul_denominator negative canonical

theorem floor_eq {number : Binary64} (finite : number.isFinite = true) :
    number.floor = .at ⌊number.value⌋ := by
  obtain ⟨numerator, denominator, positive, same, applied⟩ := exists_quotient finite
  rw [floor, applied, same, Rat.floor_intCast_div_natCast,
    Int.fdiv_eq_ediv_of_nonneg _ (Int.natCast_nonneg _)]

theorem ceil_eq {number : Binary64} (finite : number.isFinite = true) :
    number.ceil = .at ⌈number.value⌉ := by
  obtain ⟨numerator, denominator, positive, same, applied⟩ := exists_quotient finite
  have opposite : (numerator : ℚ) / denominator = -((-numerator : Int) / denominator) := by
    push_cast
    ring
  rw [ceil, applied, same, opposite, Int.ceil_neg, Rat.floor_intCast_div_natCast,
    Int.fdiv_eq_ediv_of_nonneg _ (Int.natCast_nonneg _)]

/-- Dropping the fraction of a number that is not negative leaves its floor. -/
theorem truncate_of_nonneg {number : Binary64} (finite : number.isFinite = true)
    (nonneg : 0 ≤ number.value) : number.truncate = .at ⌊number.value⌋ := by
  obtain ⟨numerator, denominator, positive, same, applied⟩ := exists_quotient finite
  have numeratorNonneg : 0 ≤ numerator := by
    rw [same, le_div_iff₀ (by exact_mod_cast positive), zero_mul] at nonneg
    exact_mod_cast nonneg
  rw [truncate, applied, same, Rat.floor_intCast_div_natCast,
    Int.tdiv_eq_ediv_of_nonneg numeratorNonneg]

theorem truncate_of_bounds {number : Binary64} (finite : number.isFinite = true) {whole : Nat}
    (above : (whole : ℚ) ≤ number.value) (below : number.value < whole + 1) :
    number.truncate = .at whole := by
  rw [truncate_of_nonneg finite ((Nat.cast_nonneg _).trans above)]
  have floor : ⌊number.value⌋ = (whole : Int) :=
    Int.floor_eq_iff.mpr ⟨by exact_mod_cast above, by exact_mod_cast below⟩
  rw [floor]

end Binary64

end TraceChart
