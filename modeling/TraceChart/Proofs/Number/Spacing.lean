import TraceChart.Proofs.Number.Monotone

/-!
# Multiples stay apart

Two whole multiples of a number are at least that number apart. As long as the factors leave two
bits of a significand free, there is room for two numbers between the multiples, ends included, so
that they are rounded to different numbers.
-/

namespace TraceChart.Binary64

variable {left right : Binary64} {exact greater : ℚ}

/-- Values with two numbers between them are rounded to different numbers. -/
theorem Rounded.lt_of_between (first : Rounded left exact) (second : Rounded right greater)
    {low high : Binary64} (lowFinite : low.isFinite = true) (highFinite : high.isFinite = true)
    (above : exact ≤ low.value) (less : low.value < high.value) (below : high.value ≤ greater) :
    left.lt right = true := by
  have leftLow := first.rounds.below low lowFinite above
  have highRight := second.rounds.above high highFinite below
  have lowHigh := (lt_iff_value_lt lowFinite highFinite).mpr less
  obtain ⟨leftNumber, _, leftRank⟩ := (le_iff _ _).mp leftLow
  obtain ⟨_, rightNumber, rightRank⟩ := (le_iff _ _).mp highRight
  simp only [lt, Bool.and_eq_true, Bool.not_eq_true', decide_eq_true_eq] at lowHigh ⊢
  exact ⟨⟨leftNumber, rightNumber⟩, by omega⟩

theorem neg_lt_neg_iff (left right : Binary64) : left.neg.lt right.neg = right.lt left := by
  have ranks : (-left.rank < -right.rank) ↔ right.rank < left.rank := Int.neg_lt_neg_iff
  simp only [lt, isNaN_neg, rank_neg, ranks, Bool.and_comm (!left.isNaN)]

section Multiples

variable {number : Binary64} (isFinite : number.isFinite = true) (positive : 0 < number.value)

include isFinite in
/-- A number is a whole multiple of the least one. -/
theorem exists_multiple_of_least :
    ∃ whole : Int, number.value = whole * 2 ^ (-1074 : Int) := by
  obtain ⟨whole, exponent, _, least, _, valued⟩ := exists_value_eq isFinite
  refine ⟨whole * 2 ^ (exponent + 1074).toNat, ?_⟩
  have powers : (2 : ℚ) ^ exponent = 2 ^ (exponent + 1074).toNat * 2 ^ (-1074 : Int) := by
    rw [← zpow_natCast, ← zpow_add₀ (by norm_num)]
    congr 1
    omega
  simp only [valued, powers, Int.cast_mul, Int.cast_pow, Int.cast_ofNat, mul_assoc]

include isFinite positive in
/-- Between two multiples there are two neighbours of a grid on which every place below the greater
multiple has a number. -/
theorem exists_grid {first second : Nat} (less : first < second) (small : second ≤ 2 ^ 51) :
    ∃ exponent place : Int, -1074 ≤ exponent ∧ first * number.value ≤ place * 2 ^ exponent ∧
      (place + 1) * 2 ^ exponent ≤ second * number.value ∧
      second * number.value < 2 ^ (exponent + 53) ∧
      (971 < exponent → 2 ^ (1024 : Int) ≤ second * number.value) := by
  have apart : (first : ℚ) + 1 ≤ second := by exact_mod_cast less
  have spaced : first * number.value + number.value ≤ second * number.value := by nlinarith
  have secondPos : (0 : ℚ) < second := by linarith [first.cast_nonneg (α := ℚ)]
  have product : 0 < second * number.value := mul_pos secondPos positive
  have below := Int.zpow_log_le_self (b := 2) one_lt_two product
  have above := Int.lt_zpow_succ_log_self (b := 2) one_lt_two (second * number.value)
  generalize Int.log 2 (second * number.value) = binade at *
  push_cast at below above
  rcases le_or_gt (binade - 52) (-1074) with subnormal | normal
  · -- At the least exponent the multiples are on the grid themselves.
    obtain ⟨whole, same⟩ := exists_multiple_of_least isFinite
    have unit := two_zpow_pos (-1074)
    have limit := zpow_le_zpow_right₀ (one_le_two : (1 : ℚ) ≤ 2)
      (show binade + 1 ≤ -1074 + 53 by omega)
    refine ⟨-1074, first * whole, le_rfl, ?_, ?_, above.trans_le limit, by omega⟩
    · rw [same, Int.cast_mul, Int.cast_natCast, mul_assoc]
    · have one : (1 : ℚ) ≤ whole := by
        rw [same] at positive
        exact_mod_cast (pos_iff_pos_of_mul_pos positive).mpr unit
      rw [Int.cast_mul, Int.cast_natCast, add_mul, mul_assoc, ← same]
      have least := mul_le_mul_of_nonneg_right one unit.le
      rw [one_mul, ← same] at least
      linarith
  · -- A step of the grid is at most half the number, so there is one between the multiples.
    have step := two_zpow_pos (binade - 52)
    have half : 2 * 2 ^ (binade - 52) ≤ number.value := by
      have factor : (second : ℚ) ≤ 2 ^ 51 := by exact_mod_cast small
      have bound := below.trans (mul_le_mul_of_nonneg_right factor positive.le)
      have power : (2 : ℚ) ^ binade = 2 ^ 52 * 2 ^ (binade - 52) := by
        rw [← zpow_natCast, ← zpow_add₀ (by norm_num)]
        congr 1
        omega
      rw [power] at bound
      linarith
    have ceiling := Int.le_ceil (first * number.value / 2 ^ (binade - 52))
    have next := Int.ceil_lt_add_one (first * number.value / 2 ^ (binade - 52))
    rw [div_le_iff₀ step] at ceiling
    rw [← sub_lt_iff_lt_add, lt_div_iff₀ step] at next
    refine ⟨binade - 52, ⌈first * number.value / 2 ^ (binade - 52)⌉, by omega, ceiling, ?_, ?_, ?_⟩
    · linarith
    · rwa [show binade - 52 + 53 = binade + 1 by omega]
    · intro beyond
      exact (zpow_le_zpow_right₀ (by norm_num) (by omega)).trans below

include isFinite positive in
private theorem Rounded.lt_of_naturals {first second : Nat} (less : first < second)
    (small : second ≤ 2 ^ 51) (leftRounded : Rounded left (first * number.value))
    (rightRounded : Rounded right (second * number.value)) (leftFinite : left.isFinite = true) :
    left.lt right = true := by
  obtain ⟨exponent, place, least, after, before, top, beyond⟩ :=
    exists_grid isFinite positive less small
  rcases le_or_gt exponent 971 with greatest | large
  · have step := two_zpow_pos exponent
    have nonneg : 0 ≤ place := by
      have product : (0 : ℚ) ≤ place * 2 ^ exponent :=
        (mul_nonneg first.cast_nonneg positive.le).trans after
      exact_mod_cast nonneg_of_mul_nonneg_left product step
    have inRange : place + 1 < significandLimit := by
      have bound := before.trans_lt top
      rw [zpow_add₀ (by norm_num), mul_comm] at bound
      exact_mod_cast lt_of_mul_lt_mul_left bound step.le
    obtain ⟨low, lowFinite, lowValue⟩ :=
      exists_finite_dyadic (show place.natAbs < significandLimit by omega) least greatest
    obtain ⟨high, highFinite, highValue⟩ :=
      exists_finite_dyadic (show (place + 1).natAbs < significandLimit by omega) least greatest
    push_cast at highValue
    refine leftRounded.lt_of_between rightRounded lowFinite highFinite ?_ ?_ ?_
    · rwa [lowValue]
    · rw [lowValue, highValue, add_mul, one_mul]
      exact lt_add_of_pos_right _ step
    · rwa [highValue]
  · have limit : overflowLimit ≤ second * number.value := overflowLimit_le.trans (beyond large)
    obtain ⟨_, rightNumber, rightRank⟩ :=
      (le_iff _ _).mp (rounded_overflowLimit.le rightRounded limit)
    have leftRank := (rank_bounds leftFinite).2
    have infiniteRank : (infinite false).rank = 2047 * leastNormal := rfl
    simp only [lt, Bool.and_eq_true, Bool.not_eq_true', decide_eq_true_eq]
    exact ⟨⟨isNaN_of_finite leftFinite, rightNumber⟩, by omega⟩

include isFinite positive in
/-- Multiples by different whole factors within 51 bits are rounded to different numbers, unless
both are beyond the range of numbers on one side. -/
theorem Rounded.lt_of_multiples {first second : Int} (less : first < second)
    (lower : -2 ^ 51 ≤ first) (upper : second ≤ 2 ^ 51)
    (leftRounded : Rounded left (first * number.value))
    (rightRounded : Rounded right (second * number.value))
    (leftFinite : 0 ≤ first → left.isFinite = true)
    (rightFinite : second ≤ 0 → right.isFinite = true) :
    left.lt right = true := by
  rcases le_or_gt 0 first with nonneg | negative
  · obtain ⟨first, rfl⟩ := Int.eq_ofNat_of_zero_le nonneg
    obtain ⟨second, rfl⟩ := Int.eq_ofNat_of_zero_le (nonneg.trans less.le)
    exact Rounded.lt_of_naturals isFinite positive (by omega) (by omega) leftRounded rightRounded
      (leftFinite nonneg)
  rcases le_or_gt second 0 with nonpos | positiveFactor
  · -- The negatives stand in the other order.
    obtain ⟨first, rfl⟩ := Int.exists_eq_neg_ofNat negative.le
    obtain ⟨second, rfl⟩ := Int.exists_eq_neg_ofNat nonpos
    have leftNegated := leftRounded.neg
    have rightNegated := rightRounded.neg
    rw [Int.cast_neg, neg_mul, InvolutiveNeg.neg_neg, Int.cast_natCast] at leftNegated rightNegated
    rw [← neg_lt_neg_iff]
    exact Rounded.lt_of_naturals isFinite positive (by omega) (by omega) rightNegated leftNegated
      ((isFinite_neg right).trans (rightFinite nonpos))
  · -- The number's negative and zero lie between the multiples.
    have before : (first : ℚ) ≤ -1 := by exact_mod_cast (show first ≤ -1 by omega)
    have after : (0 : ℚ) ≤ second := by exact_mod_cast positiveFactor.le
    have mirrored : number.neg.isFinite = true := (isFinite_neg number).trans isFinite
    have zeroFinite : (zero false).isFinite = true := rfl
    refine leftRounded.lt_of_between rightRounded mirrored zeroFinite ?_ ?_ ?_
    · rw [value_neg]
      nlinarith
    · rw [value_neg, zero_value]
      linarith
    · rw [zero_value]
      exact mul_nonneg after positive.le

end Multiples

end TraceChart.Binary64
