import TraceChart.Number.Exact
import TraceChart.Number.Scalar
import TraceChart.Proofs.Number.Rounding

/-!
# Order under arithmetic

What the laws of windows and bars need of numbers: an order among all that are numbers at all, and
sums, differences, products and quotients that respect it. Binary64 arithmetic does so through
rounding and overflow; exact arithmetic has nothing to lose.
-/

namespace TraceChart

/-- Numbers whose arithmetic respects their order. Something is a number if it is at most
itself. -/
class OrderedScalar (α : Type) [Scalar α] : Prop where
  le_trans {first second third : α} : Scalar.le first second = true →
    Scalar.le second third = true → Scalar.le first third = true
  le_total {left right : α} : Scalar.le left left = true → Scalar.le right right = true →
    Scalar.le left right = true ∨ Scalar.le right left = true
  number_left {left right : α} : Scalar.le left right = true → Scalar.le left left = true
  number_right {left right : α} : Scalar.le left right = true → Scalar.le right right = true
  lt_iff {left right : α} : Scalar.lt left right = true ↔
    Scalar.le left left = true ∧ Scalar.le right right = true ∧ Scalar.le right left = false
  number_of_finite {value : α} : Scalar.isFinite value = true → Scalar.le value value = true
  finite_between {low value high : α} : Scalar.isFinite low = true → Scalar.isFinite high = true →
    Scalar.le low value = true → Scalar.le value high = true → Scalar.isFinite value = true
  finite_zero : Scalar.isFinite (0.0 : α) = true
  one_le_two : Scalar.le (1.0 : α) 2.0 = true
  number_add {finite value : α} : Scalar.isFinite finite = true → Scalar.le value value = true →
    Scalar.le (finite + value) (finite + value) = true
  number_add_finite {value finite : α} : Scalar.le value value = true →
    Scalar.isFinite finite = true → Scalar.le (value + finite) (value + finite) = true
  number_mul {left right : α} : Scalar.isFinite left = true → Scalar.isFinite right = true →
    Scalar.le (left * right) (left * right) = true
  finite_mul_zero {value : α} : Scalar.isFinite value = true →
    Scalar.isFinite (value * 0.0) = true
  number_right_of_sub {left right : α} : Scalar.le (left - right) (left - right) = true →
    Scalar.le right right = true
  finite_zero_sub {value : α} : Scalar.isFinite value = true →
    Scalar.isFinite (0.0 - value) = true
  zero_le_sub {low high : α} : Scalar.isFinite low = true → Scalar.isFinite high = true →
    Scalar.le low high = true → Scalar.le 0.0 (high - low) = true
  le_add {value length : α} : Scalar.isFinite value = true → Scalar.le 0.0 length = true →
    Scalar.le value (value + length) = true
  sub_le {value length : α} : Scalar.isFinite value = true → Scalar.le 0.0 length = true →
    Scalar.le (value - length) value = true
  zero_le_div {length factor : α} : Scalar.le 0.0 length = true → Scalar.le 1.0 factor = true →
    Scalar.le (length / factor) (length / factor) = true → Scalar.le 0.0 (length / factor) = true
  div_le {length factor : α} : Scalar.isFinite length = true → Scalar.le 0.0 length = true →
    Scalar.le 1.0 factor = true → Scalar.le (length / factor) length = true

/-! ### The greater of two numbers, and the nearest of a range -/

namespace Scalar

open OrderedScalar

variable {α : Type} [Scalar α] [OrderedScalar α]

theorem le_of_lt {left right : α} (less : lt left right = true) : le left right = true := by
  obtain ⟨leftNumber, rightNumber, notAbove⟩ := lt_iff.mp less
  rcases le_total leftNumber rightNumber with ordered | reversed
  · exact ordered
  · simp [reversed] at notAbove

theorem lt_of_lt_of_le {first second third : α} (less : lt first second = true)
    (ordered : le second third = true) : lt first third = true := by
  obtain ⟨firstNumber, _, notAbove⟩ := lt_iff.mp less
  refine lt_iff.mpr ⟨firstNumber, number_right ordered, ?_⟩
  by_contra reversed
  have back := le_trans ordered (by simpa using reversed)
  simp [back] at notAbove

theorem le_of_not_lt {left right : α} (leftNumber : le left left = true)
    (rightNumber : le right right = true) (notLess : lt left right = false) :
    le right left = true := by
  by_contra notAbove
  have less : lt left right = true := lt_iff.mpr ⟨leftNumber, rightNumber, by simpa using notAbove⟩
  simp [less] at notLess

theorem le_larger (left : α) {right : α} (number : le right right = true) :
    le right (larger left right) = true := by
  unfold larger
  split
  next greater => exact le_of_lt (by simpa [number] using greater)
  next => exact number

theorem left_le_larger {left right : α} (leftNumber : le left left = true)
    (rightNumber : le right right = true) : le left (larger left right) = true := by
  unfold larger
  split
  next => exact leftNumber
  next notGreater =>
    exact le_of_not_lt rightNumber leftNumber (by simpa [rightNumber] using notGreater)

theorem larger_le {left right bound : α} (leftBelow : le left left = true → le left bound = true)
    (rightBelow : le right bound = true) : le (larger left right) bound = true := by
  unfold larger
  split
  next greater =>
    rw [number_left rightBelow] at greater
    exact leftBelow (lt_iff.mp (by simpa using greater)).2.1
  next => exact rightBelow

omit [OrderedScalar α] in
theorem finite_larger {left right : α} (leftFinite : isFinite left = true)
    (rightFinite : isFinite right = true) : isFinite (larger left right) = true := by
  unfold larger
  split
  · exact leftFinite
  · exact rightFinite

theorem smaller_le_left {left : α} (number : le left left = true) (right : α) :
    le (smaller left right) left = true := by
  unfold smaller
  split
  next => exact number
  next chosen =>
    simp only [Bool.or_eq_true, Bool.not_eq_true', not_or, Bool.not_eq_false] at chosen
    exact le_of_not_lt number chosen.2 (by simpa using chosen.1)

theorem smaller_le_right (left : α) {right : α} (number : le right right = true) :
    le (smaller left right) right = true := by
  unfold smaller
  split
  next chosen => exact le_of_lt (by simpa [number] using chosen)
  next => exact number

theorem le_smaller {bound left right : α} (leftAbove : le left left = true → le bound left = true)
    (rightAbove : le bound right = true) : le bound (smaller left right) = true := by
  unfold smaller
  split
  next chosen =>
    rw [number_right rightAbove] at chosen
    exact leftAbove (lt_iff.mp (by simpa using chosen)).1
  next => exact rightAbove

omit [OrderedScalar α] in
theorem finite_smaller {left right : α} (leftFinite : isFinite left = true)
    (rightFinite : isFinite right = true) : isFinite (smaller left right) = true := by
  unfold smaller
  split
  · exact leftFinite
  · exact rightFinite

/-- A number is brought into a range. If the low end and the number are at most some bound, then so
is the result. -/
theorem clamp?_of_number {value low high : α} (number : le value value = true)
    (ordered : le low high = true) : ∃ result, clamp? value low high = some result ∧
      le low result = true ∧ le result high = true ∧
      ∀ bound, le low bound = true → le value bound = true → le result bound = true := by
  have lowNumber := number_left ordered
  have highNumber := number_right ordered
  simp only [clamp?, ordered, if_true, Option.some.injEq, exists_eq_left']
  split
  next below => exact ⟨lowNumber, ordered, fun _ lowBelow _ => lowBelow⟩
  next notBelow =>
    have above := le_of_not_lt number lowNumber (by simpa using notBelow)
    split
    next beyond =>
      exact ⟨ordered, highNumber, fun _ _ valueBelow => le_trans (le_of_lt beyond) valueBelow⟩
    next notBeyond =>
      have within := le_of_not_lt highNumber number (by simpa using notBeyond)
      exact ⟨above, within, fun _ _ valueBelow => valueBelow⟩

/-- What has been brought into a range lies there, if it is a number. -/
theorem within_of_clamp? {value low high result : α} (clamped : clamp? value low high = some result)
    (number : le result result = true) :
    le low high = true ∧ le low result = true ∧ le result high = true := by
  have ordered : le low high = true := by
    by_contra notOrdered
    simp [clamp?, notOrdered] at clamped
  have valued : le value value = true := by
    by_contra notNumber
    have notBelow : lt value low = false := by simp [← Bool.not_eq_true, lt_iff, notNumber]
    have notBeyond : lt high value = false := by simp [← Bool.not_eq_true, lt_iff, notNumber]
    simp only [clamp?, ordered, notBelow, notBeyond, if_true, Bool.false_eq_true, if_false,
      Option.some.injEq] at clamped
    exact notNumber (clamped ▸ number)
  obtain ⟨found, same, above, below, _⟩ := clamp?_of_number valued ordered
  obtain rfl : result = found := by simpa [clamped] using same
  exact ⟨ordered, above, below⟩

end Scalar

namespace Binary64

/-! ### Binary64 numbers -/

theorem le_self_iff (number : Binary64) : number.le number = true ↔ number.isNaN = false := by
  rw [le_iff]
  simp

theorem le_trans {first second third : Binary64} (left : first.le second = true)
    (right : second.le third = true) : first.le third = true := by
  obtain ⟨firstNumber, _, firstRanks⟩ := (le_iff _ _).mp left
  obtain ⟨_, thirdNumber, secondRanks⟩ := (le_iff _ _).mp right
  exact (le_iff _ _).mpr ⟨firstNumber, thirdNumber, firstRanks.trans secondRanks⟩

theorem isNaN_of_finite {number : Binary64} (finite : number.isFinite = true) :
    number.isNaN = false := by
  cases number <;> first | rfl | cases finite

/-- The finite numbers have their ranks between those of the infinite ones. -/
theorem rank_bounds {number : Binary64} (finite : number.isFinite = true) :
    -(2047 * leastNormal : Int) < number.rank ∧ number.rank < 2047 * leastNormal := by
  cases number with
  | nan => cases finite
  | infinite => cases finite
  | finite negative significand exponent canonical =>
    have small := canonical.1
    have least := canonical.2.1
    have most := canonical.2.2.1
    cases negative <;>
      simp only [rank, signed, significandLimit, leastNormal, Bool.false_eq_true, if_false,
        if_true] at * <;> omega

theorem isFinite_between {low number high : Binary64} (lowFinite : low.isFinite = true)
    (highFinite : high.isFinite = true) (above : low.le number = true)
    (below : number.le high = true) : number.isFinite = true := by
  have lowest := (rank_bounds lowFinite).1
  have highest := (rank_bounds highFinite).2
  obtain ⟨_, notNaN, above⟩ := (le_iff _ _).mp above
  obtain ⟨_, _, below⟩ := (le_iff _ _).mp below
  cases number with
  | nan => cases notNaN
  | infinite negative =>
    cases negative <;>
      simp only [rank, signed, leastNormal, Bool.false_eq_true, if_false, if_true] at * <;> omega
  | finite => rfl

theorem le_infinite {number : Binary64} (finite : number.isFinite = true) :
    number.le (infinite false) = true :=
  (le_iff _ _).mpr ⟨isNaN_of_finite finite, rfl, (rank_bounds finite).2.le⟩

theorem infinite_le {number : Binary64} (finite : number.isFinite = true) :
    (infinite true).le number = true :=
  (le_iff _ _).mpr ⟨rfl, isNaN_of_finite finite, (rank_bounds finite).1.le⟩

/-- Nothing is above infinity. -/
theorem not_infinite_lt (number : Binary64) : (infinite false).lt number = false := by
  cases number with
  | nan => rfl
  | infinite negative => cases negative <;> rfl
  | finite => exact decide_eq_false (not_lt.mpr (rank_bounds rfl).2.le)

/-- Nothing is below minus infinity. -/
theorem not_lt_infinite (number : Binary64) : number.lt (infinite true) = false := by
  cases number with
  | nan => rfl
  | infinite negative => cases negative <;> rfl
  | finite => exact decide_eq_false (not_lt.mpr (rank_bounds rfl).1.le)

theorem value_zero : (0.0 : Binary64).value = 0 := by
  exact zero_value false

theorem value_one : (1.0 : Binary64).value = 1 := by
  have parts : (1.0 : Binary64) = .finite false 4503599627370496 (-52) (by decide) := by decide
  rw [parts]
  norm_num [value, signed]

theorem zero_le_infinite_iff (negative : Bool) :
    (0.0 : Binary64).le (infinite negative) = true ↔ negative = false := by
  cases negative <;> decide

theorem zero_le_iff {number : Binary64} (finite : number.isFinite = true) :
    (0.0 : Binary64).le number = true ↔ 0 ≤ number.value := by
  rw [le_iff_value_le _ _ rfl finite, value_zero]

theorem one_le_iff {number : Binary64} (finite : number.isFinite = true) :
    (1.0 : Binary64).le number = true ↔ 1 ≤ number.value := by
  rw [le_iff_value_le _ _ (by decide) finite, value_one]

theorem lt_iff_value_lt {left right : Binary64} (leftFinite : left.isFinite = true)
    (rightFinite : right.isFinite = true) : left.lt right = true ↔ left.value < right.value := by
  rw [← not_le, ← le_iff_value_le _ _ rightFinite leftFinite]
  simp [lt, le, isNaN_of_finite leftFinite, isNaN_of_finite rightFinite]

theorem add_infinite {number : Binary64} (finite : number.isFinite = true)
    (negative : Bool) : number + infinite negative = infinite negative := by
  cases number <;> first | rfl | cases finite

theorem isNaN_add {left right : Binary64} (finite : left.isFinite = true)
    (number : right.isNaN = false) : (left + right).isNaN = false := by
  cases right with
  | nan => cases number
  | infinite negative => rw [add_infinite finite]; rfl
  | finite => exact (rounds_add finite rfl).number

theorem isNaN_add_finite {left right : Binary64} (number : left.isNaN = false)
    (finite : right.isFinite = true) : (left + right).isNaN = false := by
  cases left with
  | nan => cases number
  | infinite negative => cases right <;> first | rfl | cases finite
  | finite => exact (rounds_add rfl finite).number

theorem isNaN_of_sub {left right : Binary64} (number : (left - right).isNaN = false) :
    right.isNaN = false := by
  cases right with
  | nan => cases left <;> cases number
  | infinite => rfl
  | finite => rfl

theorem isFinite_zero_sub {number : Binary64} (finite : number.isFinite = true) :
    (0.0 - number).isFinite = true := by
  -- The exact difference is that of the number with the other sign, which needs no rounding.
  have rounds := @rounds_sub 0.0 number rfl finite
  have opposite : number.neg.isFinite = true := by rw [isFinite_neg, finite]
  have same : (0.0 : Binary64).value - number.value = number.neg.value := by
    rw [value_zero, value_neg, zero_sub]
  exact isFinite_between opposite opposite (rounds.above _ opposite same.ge)
    (rounds.below _ opposite same.le)

theorem le_add_of_zero_le {number length : Binary64} (finite : number.isFinite = true)
    (nonneg : (0.0 : Binary64).le length = true) : number.le (number + length) = true := by
  cases length with
  | nan => cases nonneg
  | infinite negative =>
    rw [add_infinite finite, (zero_le_infinite_iff negative).mp nonneg]
    exact le_infinite finite
  | finite negative significand exponent canonical =>
    have bound := (zero_le_iff rfl).mp nonneg
    exact (rounds_add finite rfl).above number finite (by linarith)

theorem sub_le_of_zero_le {number length : Binary64} (finite : number.isFinite = true)
    (nonneg : (0.0 : Binary64).le length = true) : (number - length).le number = true := by
  cases length with
  | nan => cases nonneg
  | infinite negative =>
    rw [(zero_le_infinite_iff negative).mp nonneg]
    change (number + infinite true).le number = true
    rw [add_infinite finite]
    exact infinite_le finite
  | finite negative significand exponent canonical =>
    have bound := (zero_le_iff rfl).mp nonneg
    exact (rounds_sub finite rfl).below number finite (by linarith)

theorem isFinite_mul_zero {number : Binary64} (finite : number.isFinite = true) :
    (number * 0.0).isFinite = true := by
  cases number with
  | nan => cases finite
  | infinite => cases finite
  | finite negative significand exponent canonical =>
    have product : (Binary64.finite negative significand exponent canonical) * 0.0 =
        roundScaled (negative ^^ false) (significand * 0) (exponent + -1074) := rfl
    rw [product, Nat.mul_zero, roundScaled, Nat.zero_mul]
    rfl

theorem zero_le_div_of_one_le {length factor : Binary64}
    (nonneg : (0.0 : Binary64).le length = true) (large : (1.0 : Binary64).le factor = true)
    (number : (length / factor).isNaN = false) : (0.0 : Binary64).le (length / factor) = true := by
  cases length with
  | nan => cases nonneg
  | infinite lengthSign =>
    rw [(zero_le_infinite_iff lengthSign).mp nonneg] at number ⊢
    cases factor with
    | nan => cases large
    | infinite => cases number
    | finite negative significand exponent canonical =>
      have bound := (one_le_iff rfl).mp large
      cases negative with
      | false => exact (zero_le_infinite_iff false).mpr rfl
      | true =>
        have positive : (0 : ℚ) ≤ significand * 2 ^ exponent := by positivity
        simp only [value, signed, if_true, Int.cast_neg, Int.cast_natCast, neg_mul] at bound
        linarith
  | finite negative significand exponent canonical =>
    have lengthNonneg := (zero_le_iff rfl).mp nonneg
    cases factor with
    | nan => cases large
    | infinite => exact (zero_le_iff rfl).mpr (zero_value _).ge
    | finite =>
      have bound := (one_le_iff rfl).mp large
      refine (rounds_div rfl rfl (by linarith)).above 0.0 rfl ?_
      rw [value_zero]
      exact div_nonneg lengthNonneg (by linarith)

theorem div_le_of_one_le {length factor : Binary64} (finite : length.isFinite = true)
    (nonneg : (0.0 : Binary64).le length = true) (large : (1.0 : Binary64).le factor = true) :
    (length / factor).le length = true := by
  have lengthNonneg := (zero_le_iff finite).mp nonneg
  cases factor with
  | nan => cases large
  | infinite factorSign =>
    cases length with
    | nan => cases nonneg
    | infinite => cases finite
    | finite negative significand exponent canonical =>
      change (zero (negative ^^ factorSign)).le _ = true
      refine (le_iff_value_le _ _ rfl rfl).mpr ?_
      rwa [zero_value]
  | finite =>
    have bound := (one_le_iff rfl).mp large
    exact (rounds_div finite rfl (by linarith)).below length finite
      (div_le_self lengthNonneg bound)

end Binary64

open Binary64 in
instance : OrderedScalar Binary64 where
  le_trans := Binary64.le_trans
  le_total {left right} leftNumber rightNumber := by
    have leftNumber := (le_self_iff _).mp leftNumber
    have rightNumber := (le_self_iff _).mp rightNumber
    rcases Int.le_total left.rank right.rank with ranks | ranks
    · exact Or.inl ((le_iff _ _).mpr ⟨leftNumber, rightNumber, ranks⟩)
    · exact Or.inr ((le_iff _ _).mpr ⟨rightNumber, leftNumber, ranks⟩)
  number_left ordered := (le_self_iff _).mpr ((le_iff _ _).mp ordered).1
  number_right ordered := (le_self_iff _).mpr ((le_iff _ _).mp ordered).2.1
  lt_iff {left right} := by
    change left.lt right = true ↔
      left.le left = true ∧ right.le right = true ∧ right.le left = false
    cases leftNaN : left.isNaN <;> cases rightNaN : right.isNaN <;> simp [lt, le, leftNaN, rightNaN]
  number_of_finite finite := (le_self_iff _).mpr (isNaN_of_finite finite)
  finite_between := isFinite_between
  finite_zero := rfl
  one_le_two := by decide
  number_add finite number :=
    (le_self_iff _).mpr (isNaN_add finite ((le_self_iff _).mp number))
  number_add_finite number finite :=
    (le_self_iff _).mpr (isNaN_add_finite ((le_self_iff _).mp number) finite)
  number_mul leftFinite rightFinite :=
    (le_self_iff _).mpr (rounds_mul leftFinite rightFinite).number
  finite_mul_zero := isFinite_mul_zero
  number_right_of_sub number := (le_self_iff _).mpr (isNaN_of_sub ((le_self_iff _).mp number))
  finite_zero_sub := isFinite_zero_sub
  zero_le_sub := zero_le_sub _ _
  le_add := le_add_of_zero_le
  sub_le := sub_le_of_zero_le
  zero_le_div nonneg large number :=
    zero_le_div_of_one_le nonneg large ((le_self_iff _).mp number)
  div_le := div_le_of_one_le

namespace Binary64

variable {left right : Binary64}

theorem value_larger (leftFinite : left.isFinite = true) (rightFinite : right.isFinite = true) :
    (Scalar.larger left right).value = max left.value right.value := by
  have rightNumber : Scalar.le right right = true := OrderedScalar.number_of_finite rightFinite
  unfold Scalar.larger
  rw [rightNumber, Bool.not_true, Bool.or_false]
  split
  next less => exact (max_eq_left ((lt_iff_value_lt rightFinite leftFinite).mp less).le).symm
  next notLess =>
    rw [max_eq_right]
    exact not_lt.mp fun less => notLess ((lt_iff_value_lt rightFinite leftFinite).mpr less)

theorem value_smaller (leftFinite : left.isFinite = true) (rightFinite : right.isFinite = true) :
    (Scalar.smaller left right).value = min left.value right.value := by
  have rightNumber : Scalar.le right right = true := OrderedScalar.number_of_finite rightFinite
  unfold Scalar.smaller
  rw [rightNumber, Bool.not_true, Bool.or_false]
  split
  next less => exact (min_eq_left ((lt_iff_value_lt leftFinite rightFinite).mp less).le).symm
  next notLess =>
    rw [min_eq_right]
    exact not_lt.mp fun less => notLess ((lt_iff_value_lt leftFinite rightFinite).mpr less)

end Binary64

/-! ### Rationals -/

namespace Exact

@[simp] theorem le_eq (left right : Rat) : Scalar.le left right = decide (left ≤ right) := rfl

@[simp] theorem lt_eq (left right : Rat) : Scalar.lt left right = decide (left < right) := rfl

@[simp] theorem isFinite_eq (value : Rat) : Scalar.isFinite value = true := rfl

theorem larger_eq (left right : Rat) : Scalar.larger left right = max left right := by
  simp only [Scalar.larger, lt_eq, le_eq, le_refl, decide_true, Bool.not_true, Bool.or_false,
    decide_eq_true_eq]
  split
  next greater => exact (max_eq_left greater.le).symm
  next => exact (max_eq_right (by linarith)).symm

theorem smaller_eq (left right : Rat) : Scalar.smaller left right = min left right := by
  simp only [Scalar.smaller, lt_eq, le_eq, le_refl, decide_true, Bool.not_true, Bool.or_false,
    decide_eq_true_eq]
  split
  next less => exact (min_eq_left less.le).symm
  next => exact (min_eq_right (by linarith)).symm

theorem zero_eq : (0.0 : Rat) = 0 := by norm_num

theorem one_eq : (1.0 : Rat) = 1 := by norm_num

end Exact

open Exact in
instance : OrderedScalar Rat where
  le_trans first second := by
    simp only [le_eq, decide_eq_true_eq] at *
    exact first.trans second
  le_total {left right} _ _ := by
    simpa only [le_eq, decide_eq_true_eq] using Rat.le_total
  number_left _ := by simp
  number_right _ := by simp
  lt_iff := by simp
  number_of_finite _ := by simp
  finite_between _ _ _ _ := rfl
  finite_zero := rfl
  one_le_two := by norm_num
  number_add _ _ := by simp
  number_add_finite _ _ := by simp
  number_mul _ _ := by simp
  finite_mul_zero _ := rfl
  number_right_of_sub _ := by simp
  finite_zero_sub _ := rfl
  zero_le_sub _ _ ordered := by
    simp only [le_eq, decide_eq_true_eq, zero_eq] at *
    linarith
  le_add _ nonneg := by
    simp only [le_eq, decide_eq_true_eq, zero_eq] at *
    linarith
  sub_le _ nonneg := by
    simp only [le_eq, decide_eq_true_eq, zero_eq] at *
    linarith
  zero_le_div nonneg large _ := by
    simp only [le_eq, decide_eq_true_eq, zero_eq, one_eq] at *
    exact div_nonneg nonneg (by linarith)
  div_le _ nonneg large := by
    simp only [le_eq, decide_eq_true_eq, zero_eq, one_eq] at *
    exact div_le_self nonneg large

end TraceChart
