import TraceChart.Proofs.Number.Quotient
import TraceChart.Proofs.Number.Whole

/-!
# Rounding is monotone

Of two values the greater one is rounded to no lesser number. So an operation keeps the order of
its operands, up to infinite results and as far as the results are numbers at all. A result is
finite exactly if the exact value stays below the middle of the greatest finite number and the
power of two behind it.
-/

namespace TraceChart.Binary64

/-! ### Quotients with one denominator -/

theorem nearestEven_mono {numerator greater denominator : Nat} (positive : 0 < denominator)
    (ordered : numerator ≤ greater) :
    nearestEven numerator denominator ≤ nearestEven greater denominator := by
  rcases (Nat.div_le_div_right (c := denominator) ordered).eq_or_lt with same | less
  · -- With one whole part the remainders decide, and a greater one is rounded up no later.
    have first := Nat.div_add_mod numerator denominator
    have second := Nat.div_add_mod greater denominator
    rw [same] at first
    have remainders : numerator % denominator ≤ greater % denominator := by omega
    have even : greater / denominator % 2 ≤ 1 := by omega
    unfold nearestEven
    dsimp only
    rw [same]
    split_ifs <;> omega
  · have divided := Nat.div_add_mod numerator denominator
    have remainder := Nat.mod_lt numerator positive
    have bound : numerator ≤ (numerator / denominator + 1) * denominator := by
      rw [Nat.add_mul, Nat.mul_comm (numerator / denominator)]
      omega
    calc nearestEven numerator denominator
        ≤ numerator / denominator + 1 := nearestEven_le positive bound
      _ ≤ greater / denominator := less
      _ ≤ nearestEven greater denominator :=
        le_nearestEven positive (Nat.div_mul_le_self greater denominator)

section Quotient

variable {numerator greater denominator : Nat} (numeratorPos : 0 < numerator)
  (denominatorPos : 0 < denominator) (ordered : numerator ≤ greater)

include numeratorPos denominatorPos ordered

theorem roundingExponent_mono :
    roundingExponent numerator denominator ≤ roundingExponent greater denominator := by
  have positive : (0 : ℚ) < denominator := by exact_mod_cast denominatorPos
  have quotients : (numerator / denominator : ℚ) ≤ greater / denominator :=
    div_le_div_of_nonneg_right (by exact_mod_cast ordered) positive.le
  obtain ⟨below, _⟩ := binade_bounds numeratorPos denominatorPos
  obtain ⟨_, above⟩ := binade_bounds (numeratorPos.trans_le ordered) denominatorPos
  have exponents := (zpow_lt_zpow_iff_right₀ (by norm_num)).mp
    ((below.trans quotients).trans_lt above)
  unfold roundingExponent
  omega

/-- The greater quotient has the higher place: by its significand at one exponent, and otherwise
because the significands at the lesser exponent all lie below those at the greater one. -/
theorem place_rounded_mono :
    place (roundedSignificand numerator denominator) (roundingExponent numerator denominator) ≤
      place (roundedSignificand greater denominator) (roundingExponent greater denominator) := by
  have greaterPos := numeratorPos.trans_le ordered
  have least : -1074 ≤ roundingExponent numerator denominator := le_max_left _ _
  rcases (roundingExponent_mono numeratorPos denominatorPos ordered).eq_or_lt with same | less
  · have significands : roundedSignificand numerator denominator ≤
        roundedSignificand greater denominator := by
      unfold roundedSignificand
      rw [same]
      exact nearestEven_mono (Nat.mul_pos denominatorPos (twoTo_pos _))
        (Nat.mul_le_mul_right _ ordered)
    rw [same]
    exact Nat.add_le_add_left significands _
  · have low := roundedSignificand_le denominatorPos (quotient_lt numeratorPos denominatorPos).le
    have high := le_roundedSignificand denominatorPos
      (le_quotient greaterPos denominatorPos (by omega))
    simp only [place, significandLimit, leastNormal] at *
    omega

end Quotient

theorem round_mono {numerator greater denominator : Nat} (positive : 0 < denominator)
    (ordered : numerator ≤ greater) :
    (round false numerator denominator).le (round false greater denominator) = true := by
  rcases Nat.eq_zero_or_pos numerator with rfl | numeratorPos
  · refine (rounds_round false greater positive).above (zero false) rfl ?_
    rw [zero_value]
    simp only [signed, Bool.false_eq_true, if_false]
    positivity
  · refine (le_iff _ _).mpr ⟨isNaN_round _ _ _, isNaN_round _ _ _, ?_⟩
    have places := place_rounded_mono numeratorPos positive ordered
    rw [rank_round numeratorPos positive, rank_round (numeratorPos.trans_le ordered) positive]
    omega

/-! ### Rounded values -/

variable {left right : Binary64} {exact greater : ℚ}

theorem Rounded.neg (rounded : Rounded left exact) : Rounded left.neg (-exact) := by
  obtain ⟨negative, numerator, denominator, positive, rfl, rfl⟩ := rounded
  refine ⟨!negative, numerator, denominator, positive, ?_, ?_⟩
  · cases negative with
    | false => exact (round_true _ _).symm
    | true => rw [round_true, neg_neg]; rfl
  · cases negative <;> simp [signed, neg_div]

private theorem Rounded.nonneg (rounded : Rounded left exact) (nonneg : 0 ≤ exact) :
    exact = 0 ∨ ∃ numerator denominator : Nat, 0 < denominator ∧
      left = round false numerator denominator ∧ exact = numerator / denominator := by
  obtain ⟨negative, numerator, denominator, positive, rfl, rfl⟩ := rounded
  cases negative with
  | false => exact .inr ⟨numerator, denominator, positive, rfl, by simp [signed]⟩
  | true =>
    have magnitude : (0 : ℚ) ≤ numerator / denominator := by positivity
    simp only [signed, if_true, Int.cast_neg, Int.cast_natCast, neg_div] at nonneg ⊢
    exact .inl (by linarith)

private theorem Rounded.le_of_pos (first : Rounded left exact) (second : Rounded right greater)
    (positive : 0 < exact) (ordered : exact ≤ greater) : left.le right = true := by
  obtain zeroed | ⟨numerator, denominator, denominatorPos, rfl, rfl⟩ := first.nonneg positive.le
  · linarith
  obtain zeroed | ⟨other, otherDenominator, otherPos, rfl, rfl⟩ :=
    second.nonneg (positive.le.trans ordered)
  · linarith
  -- Over a common denominator the numerators are in order.
  rw [← round_mul_right false numerator denominatorPos otherPos,
    ← round_mul_right false other otherPos denominatorPos, Nat.mul_comm otherDenominator]
  refine round_mono (Nat.mul_pos denominatorPos otherPos) ?_
  rw [div_le_div_iff₀ (by exact_mod_cast denominatorPos) (by exact_mod_cast otherPos)] at ordered
  exact_mod_cast ordered

/-- Of two values the greater one is rounded to no lesser number. -/
theorem Rounded.le (first : Rounded left exact) (second : Rounded right greater)
    (ordered : exact ≤ greater) : left.le right = true := by
  by_cases positive : 0 < exact
  · exact first.le_of_pos second positive ordered
  by_cases negative : greater < 0
  · rw [← neg_le_neg_iff]
    exact second.neg.le_of_pos first.neg (neg_pos.mpr negative) (neg_le_neg ordered)
  · -- Zero lies between the values, and no rounding carries a value past it.
    have below : left.le (zero false) = true :=
      first.rounds.below (zero false) rfl (by rw [zero_value]; exact not_lt.mp positive)
    have above : (zero false).le right = true :=
      second.rounds.above (zero false) rfl (by rw [zero_value]; exact not_lt.mp negative)
    exact le_trans below above

/-- A positive value is rounded to one number, however it is written as a quotient. -/
theorem Rounded.eq_of_pos (first : Rounded left exact) (second : Rounded right exact)
    (positive : 0 < exact) : left = right := by
  obtain zeroed | ⟨numerator, denominator, denominatorPos, rfl, same⟩ := first.nonneg positive.le
  · exact absurd zeroed positive.ne'
  obtain zeroed | ⟨other, otherDenominator, otherPos, rfl, otherSame⟩ :=
    second.nonneg positive.le
  · exact absurd zeroed positive.ne'
  exact round_congr false denominatorPos otherPos (same.symm.trans otherSame)

/-! ### Finite results -/

/-- The middle of the greatest finite number and the power of two behind it, from which on values
are rounded to an infinite number. -/
def overflowLimit : ℚ := 2 ^ 1024 - 2 ^ 970

/-- The middle in units of half a step between the greatest numbers. -/
theorem overflowLimit_eq : overflowLimit = 18014398509481983 * twoTo 970 := by
  rw [overflowLimit, cast_twoTo, show 1024 = 54 + 970 from rfl, pow_add]
  generalize (2 : ℚ) ^ 970 = power
  ring

theorem overflowLimit_le : overflowLimit ≤ 2 ^ (1024 : Int) := by
  rw [overflowLimit, zpow_ofNat]
  exact sub_le_self _ (pow_nonneg (by norm_num) _)

/-- The limit itself is rounded away from the greatest number, whose significand is odd. -/
theorem rounded_overflowLimit : Rounded (infinite false) overflowLimit := by
  refine ⟨false, 18014398509481983 * twoTo 970, 1, one_pos, by decide +kernel, ?_⟩
  rw [overflowLimit_eq]
  generalize twoTo 970 = power
  simp [signed]

theorem nearestEven_le_of_twice_lt {bound numerator denominator : Nat} (positive : 0 < denominator)
    (below : 2 * numerator < (2 * bound + 1) * denominator) :
    nearestEven numerator denominator ≤ bound := by
  have divided := Nat.div_add_mod numerator denominator
  rw [Nat.mul_comm] at divided
  rw [Nat.add_mul, Nat.mul_assoc, Nat.one_mul] at below
  have whole : numerator / denominator ≤ bound := by
    by_contra beyond
    have product := Nat.mul_le_mul_right denominator (not_le.mp beyond)
    rw [Nat.succ_mul] at product
    omega
  unfold nearestEven
  dsimp only
  rcases whole.eq_or_lt with reached | less
  · -- Above the bound itself lies less than a half, so the rest is dropped.
    rw [reached] at divided ⊢
    rw [if_pos (by omega)]
  · split_ifs <;> omega

theorem isFinite_iff_rank_lt {number : Binary64} (nonneg : (zero false).le number = true) :
    number.isFinite = true ↔ number.rank < 2047 * leastNormal := by
  obtain ⟨_, notNaN, ranks⟩ := (le_iff _ _).mp nonneg
  refine ⟨fun finite => (rank_bounds finite).2, fun less => ?_⟩
  cases number with
  | nan => cases notNaN
  | infinite negative =>
    cases negative <;>
      simp only [rank, signed, zero, leastNormal, Bool.false_eq_true, if_false, if_true] at * <;>
      omega
  | finite => rfl

private theorem twoTo_succ (exponent : Nat) : twoTo (exponent + 1) = 2 * twoTo exponent :=
  (Nat.pow_succ ..).trans (Nat.mul_comm _ _)

private theorem rank_lt_of_lt_limit {numerator denominator : Nat} (numeratorPos : 0 < numerator)
    (denominatorPos : 0 < denominator) (below : (numerator / denominator : ℚ) < overflowLimit) :
    (round false numerator denominator).rank < 2047 * leastNormal := by
  have positive : (0 : ℚ) < denominator := by exact_mod_cast denominatorPos
  have power : overflowLimit < 2 ^ (1024 : Int) := by
    rw [overflowLimit]
    exact sub_lt_self _ (by positivity)
  have least := (zpow_lt_zpow_iff_right₀ (by norm_num)).mp
    (((binade_bounds numeratorPos denominatorPos).1.trans_lt below).trans power)
  have exponents : roundingExponent numerator denominator ≤ 971 := by
    unfold roundingExponent
    omega
  have significands := roundedSignificand_le denominatorPos
    (quotient_lt numeratorPos denominatorPos).le
  rw [rank_round numeratorPos denominatorPos]
  rcases exponents.eq_or_lt with greatest | less
  · -- At the greatest exponent only a significand that is carried would be infinite.
    have kept : roundedSignificand numerator denominator ≤ significandLimit - 1 := by
      unfold roundedSignificand
      rw [greatest]
      refine nearestEven_le_of_twice_lt (Nat.mul_pos denominatorPos (twoTo_pos _)) ?_
      rw [overflowLimit_eq, div_lt_iff₀ positive] at below
      have doubled : twoTo 971 = 2 * twoTo 970 := twoTo_succ 970
      have unit : twoTo (-971 : Int).toNat = 1 := rfl
      rw [unit, show (971 : Int).toNat = 971 from rfl, doubled]
      generalize twoTo 970 = step at *
      have cast : ((2 * (numerator * 1) : Nat) : ℚ) <
          ((2 * (significandLimit - 1) + 1) * (denominator * (2 * step)) : Nat) := by
        push_cast
        norm_num [significandLimit]
        linarith
      exact_mod_cast cast
    simp only [place, significandLimit, leastNormal] at *
    omega
  · simp only [place, significandLimit, leastNormal] at *
    omega

private theorem Rounded.isFinite_iff_of_pos (rounded : Rounded left exact) (positive : 0 < exact) :
    left.isFinite = true ↔ exact < overflowLimit := by
  obtain zeroed | ⟨numerator, denominator, denominatorPos, rfl, rfl⟩ := rounded.nonneg positive.le
  · exact absurd zeroed positive.ne'
  have numeratorPos : 0 < numerator := by
    rcases Nat.eq_zero_or_pos numerator with rfl | numeratorPos
    · simp at positive
    · exact numeratorPos
  have nonneg : (zero false).le (round false numerator denominator) = true :=
    rounded.rounds.above (zero false) rfl (by rw [zero_value]; exact positive.le)
  rw [isFinite_iff_rank_lt nonneg]
  constructor
  · intro less
    by_contra beyond
    have ranks := ((le_iff _ _).mp (rounded_overflowLimit.le rounded (not_lt.mp beyond))).2.2
    have greatest : (infinite false).rank = 2047 * leastNormal := rfl
    omega
  · exact rank_lt_of_lt_limit numeratorPos denominatorPos

/-- A result is finite exactly if the value that is rounded stays within the limit. -/
theorem Rounded.isFinite_iff (rounded : Rounded left exact) :
    left.isFinite = true ↔ |exact| < overflowLimit := by
  rcases lt_trichotomy exact 0 with negative | rfl | positive
  · rw [abs_of_neg negative, ← rounded.neg.isFinite_iff_of_pos (neg_pos.mpr negative), isFinite_neg]
  · have zeroed := rounded.rounds.exact rfl (zero_value false)
    have limit : 0 < overflowLimit := by
      rw [overflowLimit_eq]
      exact mul_pos (by norm_num) (by exact_mod_cast twoTo_pos 970)
    simp [zeroed.1, limit]
  · rw [abs_of_pos positive, rounded.isFinite_iff_of_pos positive]

/-- Sums of three quarters of the greatest power of two stay below the limit. -/
theorem three_quarters_lt_limit : 3 * 2 ^ 1022 < overflowLimit := by
  have power : (2 : ℚ) ^ 1024 = 4 * 2 ^ 1022 := by
    rw [show 1024 = 1022 + 2 from rfl, pow_add]
    generalize (2 : ℚ) ^ 1022 = power
    ring
  have less : (2 : ℚ) ^ 970 < 2 ^ 1022 := pow_lt_pow_right₀ (by norm_num) (by norm_num)
  rw [overflowLimit, power]
  generalize (2 : ℚ) ^ 1022 = quarter, (2 : ℚ) ^ 970 = least at *
  linarith

theorem exists_half_range :
    ∃ half : Binary64, half.isFinite = true ∧ half.value = 2 * 2 ^ 1022 := by
  obtain ⟨half, finite, valued⟩ :=
    exists_finite_value (2 ^ 52) 971 (by decide) (by decide) (by decide)
  refine ⟨half, finite, ?_⟩
  rw [valued, zpow_ofNat, show 1022 = 51 + 971 from rfl, pow_add]
  generalize (2 : ℚ) ^ 971 = power
  norm_num
  ring

theorem abs_value_lt {number : Binary64} (finite : number.isFinite = true) :
    |number.value| < overflowLimit := by
  have rounded := rounded_add finite (show (zero false).isFinite = true from rfl)
  rw [zero_value, add_zero] at rounded
  exact rounded.isFinite_iff.mp (rounded.rounds.exact finite rfl).1

/-- Integers of a machine word are rounded to finite numbers. -/
theorem isFinite_ofInt {whole : Int} (small : whole.natAbs ≤ 2 ^ 64) :
    (ofInt whole).isFinite = true := by
  have word : |(whole : ℚ)| ≤ 2 ^ 64 := by
    rw [← Int.cast_abs, Int.abs_eq_natAbs, Int.cast_natCast]
    exact_mod_cast small
  have power : (2 : ℚ) ^ 64 ≤ 2 ^ 1022 := pow_le_pow_right₀ one_le_two (by decide)
  rw [(rounded_ofInt whole).isFinite_iff]
  have limit := three_quarters_lt_limit
  generalize (2 : ℚ) ^ 1022 = quarter at *
  linarith

theorem isFinite_of_add {left right : Binary64} (finite : (left + right).isFinite = true) :
    left.isFinite = true ∧ right.isFinite = true := by
  cases left with
  | nan => cases finite
  | infinite negative =>
    cases right with
    | nan => cases finite
    | infinite other => cases negative <;> cases other <;> cases finite
    | finite => cases finite
  | finite => cases right <;> first | exact ⟨rfl, rfl⟩ | cases finite

theorem isNaN_of_add {left right : Binary64} (number : (left + right).isNaN = false) :
    right.isNaN = false := by
  cases right with
  | nan => cases left <;> cases number
  | infinite => rfl
  | finite => rfl

/-! ### Infinite operands -/

section Infinite

variable {number : Binary64}

theorem le_infinite_of_number (isNumber : number.isNaN = false) :
    number.le (infinite false) = true := by
  cases number with
  | nan => cases isNumber
  | infinite negative => cases negative <;> decide
  | finite => exact le_infinite rfl

theorem infinite_le_of_number (isNumber : number.isNaN = false) :
    (infinite true).le number = true := by
  cases number with
  | nan => cases isNumber
  | infinite negative => cases negative <;> decide
  | finite => exact infinite_le rfl

theorem infinite_of_not_finite (isNumber : number.isNaN = false)
    (notFinite : ¬ number.isFinite = true) :
    number = infinite true ∨ number = infinite false := by
  cases number with
  | nan => cases isNumber
  | infinite negative => cases negative <;> simp
  | finite => exact absurd rfl notFinite

end Infinite

/-- Where two numbers are in order, one of them is infinite on the outer side or both are finite. -/
theorem le_cases {left right : Binary64} (ordered : left.le right = true) :
    left = infinite true ∨ right = infinite false ∨
      left.isFinite = true ∧ right.isFinite = true := by
  obtain ⟨leftNumber, rightNumber, ranks⟩ := (le_iff _ _).mp ordered
  have greatest : (infinite false).rank = 2047 * leastNormal := rfl
  have least : (infinite true).rank = -(2047 * leastNormal) := rfl
  have limit : 0 < leastNormal := by decide
  by_cases leftFinite : left.isFinite = true
  · by_cases rightFinite : right.isFinite = true
    · exact .inr (.inr ⟨leftFinite, rightFinite⟩)
    · have bounds := rank_bounds leftFinite
      rcases infinite_of_not_finite rightNumber rightFinite with rfl | rfl
      · omega
      · exact .inr (.inl rfl)
  · rcases infinite_of_not_finite leftNumber leftFinite with rfl | rfl
    · exact .inl rfl
    · by_cases rightFinite : right.isFinite = true
      · have bounds := rank_bounds rightFinite
        omega
      · rcases infinite_of_not_finite rightNumber rightFinite with rfl | rfl
        · omega
        · exact .inr (.inl rfl)

theorem infinite_sub {number : Binary64} (finite : number.isFinite = true) (negative : Bool) :
    infinite negative - number = infinite negative := by
  cases number <;> first | rfl | cases finite

theorem add_le_add {finite left right : Binary64} (isFinite : finite.isFinite = true)
    (ordered : left.le right = true) : (finite + left).le (finite + right) = true := by
  obtain ⟨leftNumber, rightNumber, _⟩ := (le_iff _ _).mp ordered
  rcases le_cases ordered with rfl | rfl | ⟨leftFinite, rightFinite⟩
  · rw [add_infinite isFinite]
    exact infinite_le_of_number (isNaN_add isFinite rightNumber)
  · rw [add_infinite isFinite]
    exact le_infinite_of_number (isNaN_add isFinite leftNumber)
  · have values := (le_iff_value_le _ _ leftFinite rightFinite).mp ordered
    exact (rounded_add isFinite leftFinite).le (rounded_add isFinite rightFinite) (by linarith)

theorem sub_le_sub {left right finite : Binary64} (isFinite : finite.isFinite = true)
    (ordered : left.le right = true) : (left - finite).le (right - finite) = true := by
  obtain ⟨leftNumber, rightNumber, _⟩ := (le_iff _ _).mp ordered
  have negated : finite.neg.isFinite = true := by rwa [isFinite_neg]
  rcases le_cases ordered with rfl | rfl | ⟨leftFinite, rightFinite⟩
  · rw [infinite_sub isFinite]
    exact infinite_le_of_number (isNaN_add_finite rightNumber negated)
  · rw [infinite_sub isFinite]
    exact le_infinite_of_number (isNaN_add_finite leftNumber negated)
  · have values := (le_iff_value_le _ _ leftFinite rightFinite).mp ordered
    exact (rounded_sub leftFinite isFinite).le (rounded_sub rightFinite isFinite) (by linarith)

/-- A number with a significand that is not zero lies on the side of its sign. -/
theorem value_pos_iff {negative : Bool} {significand : Nat} {exponent : Int}
    (canonical : Canonical significand exponent) (nonzero : significand ≠ 0) :
    (0 < (finite negative significand exponent canonical).value ↔ negative = false) ∧
      ((finite negative significand exponent canonical).value < 0 ↔ negative = true) := by
  have magnitude : (0 : ℚ) < significand * 2 ^ exponent := by positivity
  cases negative <;> simp only [value, signed, Bool.false_eq_true, if_false, if_true, Int.cast_neg,
    Int.cast_natCast, neg_mul, neg_pos, neg_lt_zero, reduceCtorEq, iff_false, not_lt,
    magnitude, magnitude.le, and_self]

/-- A factor that is not negative keeps the sign of an infinite number, if the product is one. -/
theorem infinite_mul {factor : Binary64} (nonneg : (0.0 : Binary64).le factor = true)
    {negative : Bool} (number : (infinite negative * factor).isNaN = false) :
    infinite negative * factor = infinite negative := by
  cases factor with
  | nan => cases nonneg
  | infinite sign =>
    rw [(zero_le_infinite_iff sign).mp nonneg]
    exact congrArg infinite (Bool.xor_false negative)
  | finite sign significand exponent canonical =>
    have product : infinite negative * finite sign significand exponent canonical =
      if significand = 0 then nan else infinite (negative ^^ sign) := rfl
    have nonzero : significand ≠ 0 := by
      rintro rfl
      cases number
    have positive := (zero_le_iff rfl).mp nonneg
    have sides := @value_pos_iff sign _ _ canonical nonzero
    rw [product, if_neg nonzero]
    cases sign with
    | false => exact congrArg infinite (Bool.xor_false negative)
    | true => exact absurd positive (not_le.mpr (sides.2.mpr rfl))

/-- A number above zero is infinite or has a value above zero. -/
theorem pos_cases {number : Binary64} (positive : (0.0 : Binary64).lt number = true) :
    number = infinite false ∨ number.isFinite = true ∧ 0 < number.value := by
  have ordered : (0.0 : Binary64).le number = true := Scalar.le_of_lt (α := Binary64) positive
  rcases le_cases ordered with absurdity | infinite | ⟨_, isFinite⟩
  · cases absurdity
  · exact .inl infinite
  · exact .inr ⟨isFinite, value_zero ▸ (lt_iff_value_lt rfl isFinite).mp positive⟩

theorem infinite_div {divisor : Binary64} (isFinite : divisor.isFinite = true)
    (positive : 0 < divisor.value) : infinite false / divisor = infinite false := by
  cases divisor with
  | nan => cases isFinite
  | infinite => cases isFinite
  | finite sign significand exponent canonical =>
    have nonzero : significand ≠ 0 := by
      rintro rfl
      simp [value, signed] at positive
    rw [(value_pos_iff canonical nonzero).1.mp positive]
    rfl

/-- The product of a finite and the positive infinite number has the sign of the finite one. -/
theorem mul_infinite {number : Binary64} (isFinite : number.isFinite = true)
    (product : (number * infinite false).isNaN = false) :
    number.value < 0 ∧ number * infinite false = infinite true ∨
      0 < number.value ∧ number * infinite false = infinite false := by
  cases number with
  | nan => cases isFinite
  | infinite => cases isFinite
  | finite sign significand exponent canonical =>
    have same : finite sign significand exponent canonical * infinite false =
      if significand = 0 then nan else infinite (sign ^^ false) := rfl
    have nonzero : significand ≠ 0 := by
      rintro rfl
      cases product
    have sides := @value_pos_iff sign _ _ canonical nonzero
    rw [same, if_neg nonzero]
    cases sign with
    | false => exact .inr ⟨sides.1.mpr rfl, rfl⟩
    | true => exact .inl ⟨sides.2.mpr rfl, rfl⟩

theorem mul_infinite_of_pos {number : Binary64} (isFinite : number.isFinite = true)
    (positive : 0 < number.value) : number * infinite false = infinite false := by
  cases number with
  | nan => cases isFinite
  | infinite => cases isFinite
  | finite sign significand exponent canonical =>
    have nonzero : significand ≠ 0 := by
      rintro rfl
      simp [value, signed] at positive
    obtain rfl := (value_pos_iff canonical nonzero).1.mp positive
    exact if_neg nonzero

theorem mul_le_mul {left right factor : Binary64} (nonneg : (0.0 : Binary64).le factor = true)
    (ordered : left.le right = true) (leftNumber : (left * factor).isNaN = false)
    (rightNumber : (right * factor).isNaN = false) : (left * factor).le (right * factor) = true := by
  rcases le_cases ordered with rfl | rfl | ⟨leftFinite, rightFinite⟩
  · rw [infinite_mul nonneg leftNumber]
    exact infinite_le_of_number rightNumber
  · rw [infinite_mul nonneg rightNumber]
    exact le_infinite_of_number leftNumber
  · have values := (le_iff_value_le _ _ leftFinite rightFinite).mp ordered
    rcases le_cases nonneg with absurdity | rfl | ⟨_, factorFinite⟩
    · cases absurdity
    · rcases mul_infinite leftFinite leftNumber with ⟨below, product⟩ | ⟨above, product⟩
      · rw [product]
        exact infinite_le_of_number rightNumber
      · rcases mul_infinite rightFinite rightNumber with ⟨below, _⟩ | ⟨_, other⟩
        · linarith
        · rw [product, other]
          rfl
    · have factorNonneg := (zero_le_iff factorFinite).mp nonneg
      exact (rounded_mul leftFinite factorFinite).le (rounded_mul rightFinite factorFinite)
        (mul_le_mul_of_nonneg_right values factorNonneg)

/-- A finite length is shared out into lengths. -/
theorem zero_le_div {length divisor : Binary64} (finite : length.isFinite = true)
    (nonneg : (0.0 : Binary64).le length = true) (positive : (0.0 : Binary64).lt divisor = true) :
    (0.0 : Binary64).le (length / divisor) = true := by
  have lengthNonneg := (zero_le_iff finite).mp nonneg
  cases divisor with
  | nan => cases positive
  | infinite =>
    cases length with
    | nan => cases finite
    | infinite => cases finite
    | finite => exact (zero_le_iff rfl).mpr (zero_value _).ge
  | finite =>
    have divisorPos := (lt_iff_value_lt rfl rfl).mp positive
    rw [value_zero] at divisorPos
    refine (rounds_div finite rfl divisorPos.ne').above 0.0 rfl ?_
    rw [value_zero]
    exact div_nonneg lengthNonneg divisorPos.le

end TraceChart.Binary64

namespace TraceChart

/-! ### Numbers with monotone arithmetic -/

/-- Numbers whose sums, differences and products keep the order of an operand, as far as they are
numbers. -/
class MonotoneScalar (α : Type) [Scalar α] : Prop extends OrderedScalar α where
  add_le_add {finite left right : α} : Scalar.isFinite finite = true →
    Scalar.le left right = true → Scalar.le (finite + left) (finite + right) = true
  sub_le_sub {left right finite : α} : Scalar.isFinite finite = true →
    Scalar.le left right = true → Scalar.le (left - finite) (right - finite) = true
  mul_le_mul {left right factor : α} : Scalar.le 0.0 factor = true →
    Scalar.le left right = true → Scalar.le (left * factor) (left * factor) = true →
    Scalar.le (right * factor) (right * factor) = true →
    Scalar.le (left * factor) (right * factor) = true
  number_right_of_add {left right : α} : Scalar.le (left + right) (left + right) = true →
    Scalar.le right right = true
  zero_le_quotient {length divisor : α} : Scalar.isFinite length = true →
    Scalar.le 0.0 length = true → Scalar.lt 0.0 divisor = true →
    Scalar.le 0.0 (length / divisor) = true

instance : MonotoneScalar Binary64 where
  add_le_add := Binary64.add_le_add
  sub_le_sub := Binary64.sub_le_sub
  mul_le_mul nonneg ordered leftNumber rightNumber :=
    Binary64.mul_le_mul nonneg ordered ((Binary64.le_self_iff _).mp leftNumber)
      ((Binary64.le_self_iff _).mp rightNumber)
  number_right_of_add number :=
    (Binary64.le_self_iff _).mpr (Binary64.isNaN_of_add ((Binary64.le_self_iff _).mp number))
  zero_le_quotient := Binary64.zero_le_div

open Exact in
instance : MonotoneScalar Rat where
  add_le_add _ ordered := by
    simp only [le_eq, decide_eq_true_eq] at *
    linarith
  sub_le_sub _ ordered := by
    simp only [le_eq, decide_eq_true_eq] at *
    linarith
  mul_le_mul nonneg ordered _ _ := by
    simp only [le_eq, decide_eq_true_eq, zero_eq] at *
    exact mul_le_mul_of_nonneg_right ordered nonneg
  number_right_of_add _ := by simp
  zero_le_quotient _ nonneg positive := by
    simp only [le_eq, lt_eq, decide_eq_true_eq, zero_eq] at *
    exact div_nonneg nonneg positive.le

end TraceChart
