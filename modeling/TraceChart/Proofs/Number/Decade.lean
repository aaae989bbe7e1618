import TraceChart.Number.Decade
import TraceChart.Proofs.Number.Decimal
import TraceChart.Proofs.Number.Bound

/-!
# Decades of small numbers

A decade is read off a logarithm that is rounded at every step. It need not be known exactly to say
where it cannot lie: every number above zero has a decade of `-324` or more, and all but the two
least have one of `-323` or more, at which ten to that power is still a number above zero.
-/

namespace TraceChart

/-! ### Logarithms of quotients near one -/

theorem seriesScale_pos : 0 < seriesScale :=
  Binary64.twoTo_pos 256

private theorem mul_div_mul_le (factor value scale : Nat) :
    factor * (value / scale) * scale ≤ factor * value := by
  rw [Nat.mul_assoc]
  exact Nat.mul_le_mul_left _ (Nat.div_mul_le_self _ _)

/-- Each term is at most a ninth of the one before. -/
theorem artanhTerms_le {square : Nat} (small : 9 * square ≤ seriesScale) (power odd count : Nat) :
    8 * artanhTerms square power odd count ≤ 9 * power := by
  induction count generalizing power odd with
  | zero => exact Nat.zero_le _
  | succ count ih =>
    have first : power / odd ≤ power := Nat.div_le_self _ _
    have rest := ih (power * square / seriesScale) (odd + 2)
    have next : 9 * (power * square / seriesScale) ≤ power := by
      refine Nat.le_of_mul_le_mul_right ?_ seriesScale_pos
      calc 9 * (power * square / seriesScale) * seriesScale
          ≤ 9 * (power * square) := mul_div_mul_le _ _ _
        _ = power * (9 * square) := by ring
        _ ≤ power * seriesScale := Nat.mul_le_mul_left _ small
    rw [artanhTerms]
    omega

/-- The logarithm of a quotient between a half and two is at most three quarters. -/
theorem scaledLog_le {numerator denominator : Nat} (positive : 0 < denominator)
    (above : denominator ≤ 2 * numerator) (below : numerator ≤ 2 * denominator) :
    4 * scaledLog numerator denominator ≤ 3 * seriesScale := by
  let difference := (numerator - denominator) + (denominator - numerator)
  let argument := difference * seriesScale / (numerator + denominator)
  have third : 3 * argument ≤ seriesScale := by
    have part : 3 * difference ≤ numerator + denominator := by omega
    refine Nat.le_of_mul_le_mul_right ?_ (show 0 < numerator + denominator by omega)
    calc 3 * argument * (numerator + denominator)
        ≤ 3 * (difference * seriesScale) := mul_div_mul_le _ _ _
      _ = seriesScale * (3 * difference) := by ring
      _ ≤ seriesScale * (numerator + denominator) := Nat.mul_le_mul_left _ part
  have ninth : 9 * (argument * argument / seriesScale) ≤ seriesScale := by
    refine Nat.le_of_mul_le_mul_right ?_ seriesScale_pos
    calc 9 * (argument * argument / seriesScale) * seriesScale
        ≤ 9 * (argument * argument) := mul_div_mul_le _ _ _
      _ = 3 * argument * (3 * argument) := by ring
      _ ≤ seriesScale * seriesScale := Nat.mul_le_mul third third
  have terms := artanhTerms_le ninth argument 1 100
  change 4 * (2 * artanhTerms (argument * argument / seriesScale) argument 1 100) ≤ _
  omega

namespace Binary64

theorem naturalLog_bounds {numerator denominator : Nat} (positive : 0 < denominator)
    (above : denominator ≤ 2 * numerator) (below : numerator ≤ 2 * denominator) :
    (naturalLog numerator denominator).isFinite = true ∧
      (-3 : Int) * 2 ^ (-2 : Int) ≤ (naturalLog numerator denominator).value ∧
      (naturalLog numerator denominator).value ≤ (6 : Int) * 2 ^ (-2 : Int) := by
  have scalePos := seriesScale_pos
  have bounded := scaledLog_le positive above below
  unfold naturalLog
  generalize scaledLog numerator denominator = scaled at *
  dsimp only
  split
  next => exact ⟨rfl, by rw [zero_value]; norm_num, by rw [zero_value]; norm_num⟩
  next nonzero =>
    have lifted : twoTo (scaled.log2 - 61) ≤ scaled :=
      (Nat.pow_le_pow_right two_pos (Nat.sub_le _ _)).trans (Nat.log2_self_le nonzero)
    generalize twoTo (scaled.log2 - 61) = lift at *
    generalize seriesScale = scale at *
    have positive : (0 : ℚ) < scale := by exact_mod_cast scalePos
    split
    next =>
      have rounds := rounds_round true (scaled - lift) scalePos
      have part : ((scaled - lift : Nat) : ℚ) / scale ≤ 3 / 4 := by
        rw [div_le_div_iff₀ positive (by norm_num)]
        exact_mod_cast (show (scaled - lift) * 4 ≤ 3 * scale by omega)
      have nonneg : (0 : ℚ) ≤ ((scaled - lift : Nat) : ℚ) / scale := by positivity
      rw [signed, if_pos rfl, Int.cast_neg, Int.cast_natCast, neg_div] at rounds
      generalize ((scaled - lift : Nat) : ℚ) / scale = quotient at *
      exact rounds.between_dyadic (-3) 6 (-2) (by decide) (by decide) (by decide) (by decide)
        (by norm_num; linarith) (by norm_num; linarith)
    next =>
      have rounds := rounds_round false (scaled + lift) scalePos
      have part : ((scaled + lift : Nat) : ℚ) / scale ≤ 3 / 2 := by
        rw [div_le_div_iff₀ positive (by norm_num)]
        exact_mod_cast (show (scaled + lift) * 2 ≤ 3 * scale by omega)
      have nonneg : (0 : ℚ) ≤ ((scaled + lift : Nat) : ℚ) / scale := by positivity
      rw [signed, if_neg Bool.false_ne_true, Int.cast_natCast] at rounds
      generalize ((scaled + lift : Nat) : ℚ) / scale = quotient at *
      exact rounds.between_dyadic (-3) 6 (-2) (by decide) (by decide) (by decide) (by decide)
        (by norm_num; linarith) (by norm_num; linarith)

/-- A quotient of a natural and the power of two that the logarithm divides it by. -/
theorem shift_bounds {significand : Nat} (positive : 0 < significand) (binade : Int) :
    let shift := if binade < 0 then significand.log2 + 1 else significand.log2
    twoTo shift ≤ 2 * significand ∧ significand ≤ 2 * twoTo shift := by
  have above : 2 ^ significand.log2 ≤ significand := Nat.log2_self_le positive.ne'
  have below : significand < 2 ^ significand.log2 * 2 := Nat.lt_log2_self
  intro shift
  have power : twoTo shift = if binade < 0 then 2 ^ significand.log2 * 2 else 2 ^ significand.log2 := by
    by_cases negative : binade < 0 <;> simp only [shift, negative, if_true, if_false] <;> rfl
  rw [power]
  split <;> omega

private theorem product_bounds {factor value greatest : ℚ} (nonneg : 0 ≤ factor)
    (most : factor ≤ greatest) {low high : ℚ} (lowNeg : low ≤ 0) (highPos : 0 ≤ high)
    (above : low ≤ value) (below : value ≤ high) :
    low * greatest ≤ value * factor ∧ value * factor ≤ high * greatest :=
  ⟨(mul_le_mul_of_nonpos_left most lowNeg).trans (mul_le_mul_of_nonneg_right above nonneg),
    (mul_le_mul_of_nonneg_right below nonneg).trans (mul_le_mul_of_nonneg_left most highPos)⟩

theorem decimalLogOfEuler_bounds : decimalLogOfEuler.isFinite = true ∧
    0 ≤ decimalLogOfEuler.value ∧ decimalLogOfEuler.value ≤ 7 / 16 := by
  have parts : decimalLogOfEuler = .finite false 7823553867474190 (-54) (by decide) := by
    decide +kernel
  rw [parts]
  refine ⟨rfl, ?_, ?_⟩ <;> norm_num [value, signed]

theorem decimalLogOfTwo_bounds : decimalLogOfTwo.isFinite = true ∧
    30102 / 100000 ≤ decimalLogOfTwo.value ∧ decimalLogOfTwo.value ≤ 30103 / 100000 := by
  have parts : decimalLogOfTwo = .finite false 5422874305191936 (-54) (by decide) := by
    decide +kernel
  rw [parts]
  refine ⟨rfl, ?_, ?_⟩ <;> norm_num [value, signed]

theorem decimalLogOfTwoRest_bounds : decimalLogOfTwoRest.isFinite = true ∧
    0 ≤ decimalLogOfTwoRest.value ∧ decimalLogOfTwoRest.value ≤ 1 / 2 ^ 31 := by
  have parts : decimalLogOfTwoRest = .finite false 7317194349292342 (-94) (by decide) := by
    decide +kernel
  rw [parts]
  refine ⟨rfl, ?_, ?_⟩ <;> norm_num [value, signed]

/-- All parts of a logarithm but the leading one come to little. -/
private theorem lesserParts_bounds {count : Int} (low : -1073 ≤ count) (high : count ≤ 1024)
    {numerator denominator : Nat} (positive : 0 < denominator)
    (below : denominator ≤ 2 * numerator) (above : numerator ≤ 2 * denominator) :
    let parts := ofInt count * decimalLogOfTwoRest +
      decimalLogOfEuler * naturalLog numerator denominator
    parts.isFinite = true ∧ -3 / 8 ≤ parts.value ∧ parts.value ≤ 23 / 32 := by
  obtain ⟨countFinite, countValue⟩ :=
    ofInt_exact (show count.natAbs < significandLimit by simp only [significandLimit]; omega)
  have low : (-1073 : ℚ) ≤ count := by exact_mod_cast low
  have high : (count : ℚ) ≤ 1024 := by exact_mod_cast high
  obtain ⟨logFinite, logLow, logHigh⟩ := naturalLog_bounds positive below above
  obtain ⟨eulerFinite, eulerNonneg, eulerMost⟩ := decimalLogOfEuler_bounds
  obtain ⟨restFinite, restNonneg, restMost⟩ := decimalLogOfTwoRest_bounds
  obtain ⟨restLow, restHigh⟩ :=
    product_bounds restNonneg restMost (by norm_num) (by norm_num) low high
  obtain ⟨eulerLow, eulerHigh⟩ :=
    product_bounds eulerNonneg eulerMost (by norm_num) (by norm_num) logLow logHigh
  rw [mul_comm _ decimalLogOfEuler.value] at eulerLow eulerHigh
  rw [← countValue] at restLow restHigh
  norm_num at restLow restHigh eulerLow eulerHigh
  -- One step of rounding after the other, each result between two dyadic bounds.
  obtain ⟨restsFinite, restsLow, restsHigh⟩ :=
    (rounds_mul countFinite restFinite).between_dyadic (-1) 1 (-20) (by decide) (by decide)
      (by decide) (by decide) (by norm_num; linarith only [restLow])
      (by norm_num; linarith only [restHigh])
  obtain ⟨logsFinite, logsLow, logsHigh⟩ :=
    (rounds_mul eulerFinite logFinite).between_dyadic (-11) 22 (-5) (by decide) (by decide)
      (by decide) (by decide) (by norm_num; linarith only [eulerLow])
      (by norm_num; linarith only [eulerHigh])
  norm_num at restsLow restsHigh logsLow logsHigh
  obtain ⟨sumFinite, sumLow, sumHigh⟩ :=
    (rounds_add restsFinite logsFinite).between_dyadic (-12) 23 (-5) (by decide) (by decide)
      (by decide) (by decide) (by norm_num; linarith only [restsLow, logsLow])
      (by norm_num; linarith only [restsHigh, logsHigh])
  norm_num at sumLow sumHigh ⊢
  exact ⟨sumFinite, sumLow, sumHigh⟩

/-- The sixteenth below a value. -/
private theorem exists_sixteenth {exact : ℚ} (low : -325 ≤ exact) (high : exact ≤ 309) :
    ∃ grid : Int, -5200 ≤ grid ∧ grid ≤ 4944 ∧ grid / 16 ≤ exact ∧ exact < (grid + 1) / 16 := by
  have below := Int.floor_le (exact * 16)
  have next := Int.lt_floor_add_one (exact * 16)
  refine ⟨⌊exact * 16⌋, Int.le_floor.mpr (by norm_num; linarith), ?_, by linarith, by linarith⟩
  have most : (⌊exact * 16⌋ : ℚ) ≤ 4944 := by linarith
  exact_mod_cast most

/-- The rounded logarithm of a number is not far below the leading part of the logarithm of the
power of two beside it. -/
theorem decimalLog_floor {significand : Nat} {exponent : Int} (positive : 0 < significand)
    (least : -1074 ≤ exponent + significand.log2) (most : exponent + significand.log2 ≤ 1023) :
    ∃ decade, (decimalLog significand exponent).floor = .at decade ∧
      (exponent + (if exponent + (significand.log2 : Int) < 0 then significand.log2 + 1
        else significand.log2 : Nat) : Int) * decimalLogOfTwo.value - 3 / 2 < decade := by
  have shifted := shift_bounds positive (exponent + significand.log2)
  unfold decimalLog
  dsimp only at shifted ⊢
  generalize shiftEq : (if exponent + (significand.log2 : Int) < 0 then significand.log2 + 1
    else significand.log2) = shift at *
  have countLeast : -1073 ≤ exponent + (shift : Int) := by split at shiftEq <;> omega
  have countMost : exponent + (shift : Int) ≤ 1024 := by split at shiftEq <;> omega
  generalize exponent + (shift : Int) = count at *
  obtain ⟨countFinite, countValue⟩ :=
    ofInt_exact (show count.natAbs < significandLimit by simp only [significandLimit]; omega)
  have low : (-1073 : ℚ) ≤ count := by exact_mod_cast countLeast
  have high : (count : ℚ) ≤ 1024 := by exact_mod_cast countMost
  obtain ⟨lesserFinite, lesserLow, lesserHigh⟩ :=
    lesserParts_bounds countLeast countMost (twoTo_pos shift) shifted.1 shifted.2
  obtain ⟨twoFinite, twoLeast, twoMost⟩ := decimalLogOfTwo_bounds
  obtain ⟨twoLow, twoHigh⟩ :=
    product_bounds (by linarith only [twoLeast]) twoMost (by norm_num) (by norm_num) low high
  norm_num at twoLow twoHigh
  -- The leading part is followed to a sixteenth, the others to a fixed bound.
  obtain ⟨grid, gridLeast, gridMost, below, next⟩ :=
    @exists_sixteenth (count * decimalLogOfTwo.value) (by linarith only [twoLow])
      (by linarith only [twoHigh])
  rw [← countValue] at below next ⊢
  have step : (2 : ℚ) ^ (-4 : Int) = 1 / 16 := by norm_num
  obtain ⟨leadFinite, leadLow, leadHigh⟩ :=
    (rounds_mul countFinite twoFinite).between_dyadic grid (grid + 1) (-4)
      (by simp only [significandLimit]; omega) (by simp only [significandLimit]; omega)
      (by decide) (by decide) (by rw [step]; linarith only [below])
      (by rw [step]; push_cast; linarith only [next])
  rw [step] at leadLow leadHigh
  push_cast at leadHigh
  obtain ⟨sumFinite, sumLow, _⟩ :=
    (rounds_add lesserFinite leadFinite).between_dyadic (grid - 6) (grid + 13) (-4)
      (by simp only [significandLimit]; omega) (by simp only [significandLimit]; omega)
      (by decide) (by decide)
      (by rw [step]; push_cast; linarith only [lesserLow, leadLow])
      (by rw [step]; push_cast; linarith only [lesserHigh, leadHigh])
  rw [step] at sumLow
  push_cast at sumLow
  refine ⟨_, floor_eq sumFinite, lt_of_lt_of_le ?_ (Int.sub_one_lt_floor _).le⟩
  linarith only [sumLow, next]

/-! ### Decades -/

/-- Powers of two and of ten are in order where their exponents are, by `28 / 93` and `59 / 196` for
the logarithm of two. -/
theorem two_zpow_le_ten_zpow {low high : Int} (nonneg : 0 ≤ low → 28 * low ≤ 93 * high)
    (nonpos : low ≤ 0 → 59 * low ≤ 196 * high) : (2 : ℚ) ^ low ≤ 10 ^ high := by
  rcases le_total 0 low with positive | negative
  · obtain ⟨low, rfl⟩ := Int.eq_ofNat_of_zero_le positive
    obtain ⟨high, rfl⟩ := Int.eq_ofNat_of_zero_le (show 0 ≤ high by omega)
    have exponents : 28 * low ≤ 93 * high := by omega
    rw [zpow_natCast, zpow_natCast,
      ← pow_le_pow_iff_left₀ (by positivity) (by positivity) (show 93 ≠ 0 by decide)]
    calc ((2 : ℚ) ^ low) ^ 93 = (2 ^ 93) ^ low := pow_right_comm _ _ _
      _ ≤ (10 ^ 28) ^ low := pow_le_pow_left₀ (by positivity) (by norm_num) _
      _ = 10 ^ (28 * low) := (pow_mul _ _ _).symm
      _ ≤ 10 ^ (93 * high) := pow_le_pow_right₀ (by norm_num) exponents
      _ = (10 ^ high) ^ 93 := by rw [mul_comm, pow_mul]
  rcases le_total 0 high with above | below
  · exact (zpow_le_one_of_nonpos₀ one_le_two negative).trans (one_le_zpow₀ (by norm_num) above)
  · obtain ⟨low, rfl⟩ := Int.exists_eq_neg_ofNat negative
    obtain ⟨high, rfl⟩ := Int.exists_eq_neg_ofNat below
    have exponents : 196 * high ≤ 59 * low := by omega
    rw [zpow_neg, zpow_neg, zpow_natCast, zpow_natCast]
    refine inv_anti₀ (by positivity) ?_
    rw [← pow_le_pow_iff_left₀ (by positivity) (by positivity) (show 196 ≠ 0 by decide)]
    calc ((10 : ℚ) ^ high) ^ 196 = 10 ^ (196 * high) := by rw [mul_comm, pow_mul]
      _ ≤ 10 ^ (59 * low) := pow_le_pow_right₀ (by norm_num) exponents
      _ = (10 ^ 59) ^ low := pow_mul _ _ _
      _ ≤ (2 ^ 196) ^ low := pow_le_pow_left₀ (by positivity) (by norm_num) _
      _ = (2 ^ low) ^ 196 := pow_right_comm _ _ _

/-- The decade of a number between two powers of two. -/
private theorem decade_of_binade {significand : Nat} (nonzero : significand ≠ 0) (exponent : Int)
    (least : -1074 ≤ exponent + significand.log2) (most : exponent + significand.log2 ≤ 1023) :
    ∃ decade, (decimalLog significand exponent).floor = .at decade ∧ -324 ≤ decade ∧
      (-1072 ≤ exponent + significand.log2 → -323 ≤ decade) ∧
      (2 : ℚ) ^ (exponent + significand.log2 + 1) ≤ 10 ^ (decade + 2) := by
  obtain ⟨decade, found, bound⟩ := decimalLog_floor (Nat.pos_of_ne_zero nonzero) least most
  obtain ⟨_, twoLeast, twoMost⟩ := decimalLogOfTwo_bounds
  refine ⟨decade, found, ?_⟩
  clear found
  rcases lt_or_ge (exponent + (significand.log2 : Int)) 0 with negative | nonneg
  · rw [if_pos negative, Nat.cast_succ, ← add_assoc] at bound
    generalize exponent + (significand.log2 : Int) = binade at *
    push_cast at bound
    have lowest : (-1074 : ℚ) ≤ binade := by exact_mod_cast least
    have highest : (binade : ℚ) + 1 ≤ 0 := by exact_mod_cast negative
    have product := mul_le_mul_of_nonpos_left twoMost highest
    have integers : 59 * (binade + 1) < 196 * (decade + 2) := by
      have rationals : (59 * (binade + 1) : ℚ) < 196 * (decade + 2) := by linarith
      exact_mod_cast rationals
    refine ⟨?_, fun near => ?_, two_zpow_le_ten_zpow (by omega) (by omega)⟩
    · have above : (-325 : ℚ) < decade := by linarith
      have above : -325 < decade := by exact_mod_cast above
      omega
    · have near : (-1072 : ℚ) ≤ binade := by exact_mod_cast near
      have above : (-324 : ℚ) < decade := by linarith
      have above : -324 < decade := by exact_mod_cast above
      omega
  · rw [if_neg nonneg.not_gt] at bound
    generalize exponent + (significand.log2 : Int) = binade at *
    have lowest : (0 : ℚ) ≤ binade := by exact_mod_cast nonneg
    have highest : (binade : ℚ) ≤ 1023 := by exact_mod_cast most
    have product := mul_le_mul_of_nonneg_left twoLeast lowest
    have integers : 28 * (binade + 1) < 93 * (decade + 2) := by
      have rationals : (28 * (binade + 1) : ℚ) < 93 * (decade + 2) := by linarith
      exact_mod_cast rationals
    refine ⟨by omega, fun _ => by omega, two_zpow_le_ten_zpow (by omega) (by omega)⟩

/-- A number above zero has a decade, which is `-323` or more from three times the least one on, and
less than two below its logarithm. -/
theorem decade_of_pos {number : Binary64} (isFinite : number.isFinite = true)
    (positive : 0 < number.value) : ∃ decade, number.decade = .at decade ∧ -324 ≤ decade ∧
      (3 * 2 ^ (-1074 : Int) ≤ number.value → -323 ≤ decade) ∧
      number.value ≤ 10 ^ (decade + 2) := by
  cases number with
  | nan => cases isFinite
  | infinite => cases isFinite
  | finite negative significand exponent canonical =>
    have nonzero : significand ≠ 0 := by
      rintro rfl
      simp [value, signed] at positive
    obtain rfl := (@value_pos_iff negative _ _ canonical nonzero).1.mp positive
    have read : (finite false significand exponent canonical).decade =
        (decimalLog significand exponent).floor := by
      simp [decade, nonzero]
    obtain ⟨small, least, most, normal⟩ := canonical
    have bits : significand.log2 < 53 := (Nat.log2_lt nonzero).mpr small
    obtain ⟨decade, found, lowest, low, power⟩ :=
      decade_of_binade nonzero exponent (by omega) (by omega)
    rw [read]
    refine ⟨decade, found, lowest, fun large => ?_, power.trans' ?_⟩
    · rcases lt_or_ge (exponent + significand.log2) (-1072) with below | above
      · -- Of the numbers with their leading bit so low, one is three times the least.
        have few : significand < 4 := (Nat.log2_lt nonzero).mp (show significand.log2 < 2 by omega)
        obtain rfl : exponent = -1074 := by simp only [leastNormal] at normal; omega
        have unit := two_zpow_pos (-1074)
        simp only [value, signed, Bool.false_eq_true, if_false, Int.cast_natCast] at large
        have least : (3 : ℚ) ≤ significand := le_of_mul_le_mul_right large unit
        obtain rfl : significand = 3 := by
          have least : 3 ≤ significand := by exact_mod_cast least
          omega
        have third : (decimalLog 3 (-1074)).floor = .at (-323) := by decide +kernel
        rw [third] at found
        cases found
        decide
      · exact low above
    · have whole : significand < 2 ^ (significand.log2 + 1) := Nat.lt_log2_self
      have unit := two_zpow_pos exponent
      have bits : (significand : ℚ) ≤ 2 ^ (significand.log2 + 1) := by exact_mod_cast whole.le
      simp only [value, signed, Bool.false_eq_true, if_false, Int.cast_natCast]
      calc (significand : ℚ) * 2 ^ exponent
          ≤ 2 ^ (significand.log2 + 1) * 2 ^ exponent := mul_le_mul_of_nonneg_right bits unit.le
        _ = 2 ^ (exponent + significand.log2 + 1) := by
          rw [← zpow_natCast, ← zpow_add₀ (by norm_num)]
          congr 1
          push_cast
          ring

/-! ### Multiples of the least number -/

/-- A whole number of times the least number above zero. -/
def leastTimes (count : Nat) : Binary64 :=
  ofParts false count (-1074)

theorem leastTimes_eq {count : Nat} (small : count < significandLimit) :
    (leastTimes count).isFinite = true ∧ (leastTimes count).value = count * 2 ^ (-1074 : Int) := by
  have canonical : Canonical count (-1074) := ⟨small, by decide, by decide, .inr rfl⟩
  rw [leastTimes, ofParts, dif_pos canonical]
  exact ⟨rfl, by simp [value, signed]⟩

/-- The numbers from zero on that are less than three times the least one. -/
theorem few_cases {number : Binary64} (nonneg : (0.0 : Binary64).le number = true)
    (few : number.lt (leastTimes 3) = true) :
    number ∈ [zero false, zero true, leastTimes 1, leastTimes 2] := by
  have none : (0.0 : Binary64).rank = 0 := rfl
  have three : (leastTimes 3).rank = 3 := by decide
  obtain ⟨_, _, nonneg⟩ := (le_iff _ _).mp nonneg
  simp only [lt, Bool.and_eq_true, decide_eq_true_eq, three] at few
  rw [none] at nonneg
  cases number with
  | nan => cases few.1.1
  | infinite negative => cases negative <;> simp [rank, signed] at nonneg few
  | finite negative significand exponent canonical =>
    have subnormal : exponent = -1074 ∧ significand < 3 := by
      obtain ⟨_, least, _, normal⟩ := canonical
      cases negative <;> simp only [rank, signed, leastNormal, Bool.false_eq_true, if_false,
        if_true] at * <;> omega
    obtain ⟨rfl, small⟩ := subnormal
    have same : finite false significand (-1074) canonical = leastTimes significand :=
      (dif_pos canonical).symm
    obtain rfl | rfl | rfl : significand = 0 ∨ significand = 1 ∨ significand = 2 := by omega
    · cases negative
      · exact List.mem_cons_self
      · exact List.mem_cons_of_mem _ List.mem_cons_self
    all_goals
      cases negative with
      | false => simp [same]
      | true => simp [rank, signed] at nonneg

/-! ### Powers of ten -/

theorem powerOfTen_of_not_mem {exponent : Int} (plain : exponent ∉ roundedUpDecades) :
    powerOfTen (.at exponent) = ofDecimal false 1 exponent := by
  unfold powerOfTen
  dsimp only
  split
  next found => rw [if_neg plain, found]
  next => rfl

/-- The least power of ten that is not rounded down to zero is more than twice the least number. -/
private theorem two_zpow_le_least_tenPower : (2 : ℚ) ^ (-1073 : Int) ≤ 10 ^ (-323 : Int) := by
  have powers : tenTo 323 ≤ twoTo 1073 := by decide +kernel
  rw [show (-1073 : Int) = -(1073 : Nat) from rfl, show (-323 : Int) = -(323 : Nat) from rfl,
    zpow_neg, zpow_neg, zpow_natCast, zpow_natCast]
  refine inv_anti₀ (by positivity) ?_
  rw [← cast_tenTo, ← cast_twoTo]
  exact_mod_cast powers

/-- There is a power of two not far below a power of ten. -/
theorem exists_power_le_ten {decade : Int} (least : -323 ≤ decade) :
    ∃ power : Int, -1073 ≤ power ∧ (2 : ℚ) ^ power ≤ 10 ^ decade ∧
      (10 : ℚ) ^ (decade + 2) < 2 ^ (power + 8) := by
  have positive : (0 : ℚ) < 10 ^ decade := zpow_pos (by norm_num) _
  have below := Int.zpow_log_le_self (b := 2) one_lt_two positive
  have above := Int.lt_zpow_succ_log_self (b := 2) one_lt_two ((10 : ℚ) ^ decade)
  have lowest : -1073 ≤ Int.log 2 ((10 : ℚ) ^ decade) := by
    refine (Int.zpow_le_iff_le_log (b := 2) one_lt_two positive).mp ?_
    rw [Nat.cast_ofNat]
    exact two_zpow_le_least_tenPower.trans (zpow_le_zpow_right₀ (by norm_num) least)
  generalize Int.log 2 ((10 : ℚ) ^ decade) = power at *
  push_cast at below above
  refine ⟨power, lowest, below, ?_⟩
  rw [zpow_add₀ (by norm_num)] at above ⊢
  rw [zpow_add₀ (by norm_num)]
  have unit := two_zpow_pos power
  norm_num at above ⊢
  linarith

/-- A number that is not above a power of ten is not above what it is rounded to. -/
theorem le_powerOfTen {exponent : Int} {bound : Binary64} (isFinite : bound.isFinite = true)
    (below : bound.value ≤ 10 ^ exponent) : bound.le (powerOfTen (.at exponent)) = true := by
  have nearest : bound.le (ofDecimal false 1 exponent) = true := by
    rw [ofDecimal_eq_round _ one_pos]
    refine (rounds_round false _ (tenTo_pos _)).above bound isFinite ?_
    rw [signed, if_neg Bool.false_ne_true, Int.cast_natCast, decimal_eq_quotient, Nat.cast_one,
      one_mul]
    exact below
  by_cases special : exponent ∈ roundedUpDecades
  · rcases List.mem_pair.mp special with rfl | rfl <;> exact le_trans nearest (by decide +kernel)
  · rwa [powerOfTen_of_not_mem special]

/-- The power of ten of a number that is not too small lies between two powers of two. -/
theorem powerOfTen_decade {number : Binary64}
    (above : number.AtLeast (3 * 2 ^ (-1074 : Int))) :
    ∃ power : Int, -1074 ≤ power ∧ power ≤ 1015 ∧
      (powerOfTen number.decade).AtLeast (2 * 2 ^ power) ∧
      (number.isFinite = true → number.value < 2 ^ (power + 9)) := by
  rcases above with rfl | ⟨isFinite, values⟩
  · exact ⟨0, by decide, by decide, .inl rfl, fun finite => by cases finite⟩
  · have unit := two_zpow_pos (-1074)
    obtain ⟨decade, found, _, least, most⟩ :=
      decade_of_pos isFinite (lt_of_lt_of_le (by positivity) values)
    obtain ⟨power, lowest, below, near⟩ := exists_power_le_ten (least values)
    -- Close to the greatest numbers the power is lowered, to leave room for its multiples.
    refine ⟨min (power - 1) 1015, by omega, by omega, ?_, fun _ => ?_⟩
    · obtain ⟨bound, boundFinite, valued⟩ := @exists_finite_power (min (power - 1) 1015 + 1)
        (by omega) (by omega)
      have ordered : bound.value ≤ 10 ^ decade := by
        rw [valued]
        exact (zpow_le_zpow_right₀ one_le_two (by omega)).trans below
      have reached := AtLeast.of_le boundFinite (le_powerOfTen boundFinite ordered)
      rw [found]
      rwa [valued, zpow_add_one₀ (by norm_num), mul_comm] at reached
    · rcases le_total (power - 1) 1015 with low | high
      · rw [min_eq_left low, show power - 1 + 9 = power + 8 by ring]
        exact most.trans_lt near
      · rw [min_eq_right high]
        exact (abs_lt.mp (abs_value_lt isFinite)).2.trans_le overflowLimit_le

end Binary64

end TraceChart
