import Mathlib
import TraceChart.Number.Extended

/-!
# The values of binary64 numbers

A finite number stands for a rational. Ranks order the finite numbers as these rationals are
ordered, which is what makes a comparison of ranks a comparison of numbers. From this it follows
that the difference of a number and a lesser one is never negative, however it is rounded.
-/

namespace TraceChart.Binary64

/-- The rational that a finite number stands for, and zero for the others. -/
def value : Binary64 → ℚ
  | .finite negative significand exponent _ => (signed negative significand : ℚ) * 2 ^ exponent
  | _ => 0

theorem two_zpow_pos (exponent : Int) : (0 : ℚ) < 2 ^ exponent :=
  zpow_pos (by norm_num) exponent

theorem cast_twoTo (exponent : Nat) : ((twoTo exponent : Nat) : ℚ) = 2 ^ exponent := by
  simp [twoTo]

/-! ### Ranks and values -/

/-- The rank of a number without its sign. -/
def place (significand : Nat) (exponent : Int) : Nat :=
  (exponent + 1074).toNat * leastNormal + significand

private theorem exponent_le_of_place_le {left right : Nat} {leftExponent rightExponent : Int}
    (leftCanonical : Canonical left leftExponent) (rightCanonical : Canonical right rightExponent)
    (ordered : place left leftExponent ≤ place right rightExponent) :
    leftExponent ≤ rightExponent := by
  obtain ⟨_, _, _, leftNormal⟩ := leftCanonical
  obtain ⟨rightSmall, _, _, _⟩ := rightCanonical
  simp only [place, leastNormal, significandLimit] at *
  omega

private theorem place_injective {left right : Nat} {leftExponent rightExponent : Int}
    (leftCanonical : Canonical left leftExponent) (rightCanonical : Canonical right rightExponent)
    (same : place left leftExponent = place right rightExponent) :
    left = right ∧ leftExponent = rightExponent := by
  have below := exponent_le_of_place_le leftCanonical rightCanonical same.le
  have above := exponent_le_of_place_le rightCanonical leftCanonical same.ge
  have exponents : leftExponent = rightExponent := by omega
  subst exponents
  exact ⟨by simpa [place] using same, rfl⟩

/-- A greater place is a greater value: within a binade by the significands, and across binades
because a significand below the limit does not reach the least normal one at the next exponent. -/
private theorem value_lt_of_place_lt {left right : Nat} {leftExponent rightExponent : Int}
    (leftCanonical : Canonical left leftExponent) (rightCanonical : Canonical right rightExponent)
    (ordered : place left leftExponent < place right rightExponent) :
    (left : ℚ) * 2 ^ leftExponent < right * 2 ^ rightExponent := by
  have exponents := exponent_le_of_place_le leftCanonical rightCanonical ordered.le
  rcases exponents.eq_or_lt with rfl | apart
  · have significands : left < right := by simpa [place] using ordered
    exact mul_lt_mul_of_pos_right (by exact_mod_cast significands) (two_zpow_pos _)
  · have small : (left : ℚ) < 2 * leastNormal := by
      have bound := leftCanonical.1
      simp only [significandLimit, leastNormal] at *
      exact_mod_cast bound
    have normal : (leastNormal : ℚ) ≤ right := by
      have bound : leastNormal ≤ right := by
        have least := leftCanonical.2.1
        exact rightCanonical.2.2.2.resolve_right (by omega)
      exact_mod_cast bound
    calc (left : ℚ) * 2 ^ leftExponent
        < 2 * leastNormal * 2 ^ leftExponent := mul_lt_mul_of_pos_right small (two_zpow_pos _)
      _ = leastNormal * 2 ^ (leftExponent + 1) := by
        rw [zpow_add_one₀ (by norm_num)]
        ring
      _ ≤ right * 2 ^ rightExponent :=
        mul_le_mul normal (zpow_le_zpow_right₀ (by norm_num) (by omega)) (two_zpow_pos _).le
          (by positivity)

private theorem place_le_iff {left right : Nat} {leftExponent rightExponent : Int}
    (leftCanonical : Canonical left leftExponent)
    (rightCanonical : Canonical right rightExponent) :
    place left leftExponent ≤ place right rightExponent ↔
      (left : ℚ) * 2 ^ leftExponent ≤ right * 2 ^ rightExponent := by
  constructor
  · intro ordered
    rcases ordered.eq_or_lt with same | less
    · obtain ⟨rfl, rfl⟩ := place_injective leftCanonical rightCanonical same
      exact le_refl _
    · exact (value_lt_of_place_lt leftCanonical rightCanonical less).le
  · intro ordered
    by_contra greater
    have reversed := value_lt_of_place_lt rightCanonical leftCanonical (by omega)
    exact absurd ordered (not_le.mpr reversed)

private theorem place_eq_zero_iff {significand : Nat} {exponent : Int}
    (canonical : Canonical significand exponent) :
    place significand exponent = 0 ↔ (significand : ℚ) * 2 ^ exponent = 0 := by
  obtain ⟨_, least, _, normal⟩ := canonical
  have power := (two_zpow_pos exponent).ne'
  simp only [place, leastNormal, mul_eq_zero, power, or_false, Nat.cast_eq_zero] at *
  omega

/-- Finite numbers are ordered as their values. -/
theorem le_iff_value_le (left right : Binary64) (leftFinite : left.isFinite = true)
    (rightFinite : right.isFinite = true) :
    left.le right = true ↔ left.value ≤ right.value := by
  cases left <;> cases right <;> simp only [isFinite, Bool.false_eq_true] at leftFinite rightFinite
  case finite.finite leftSign left leftExponent leftCanonical
      rightSign right rightExponent rightCanonical =>
    have forwards := place_le_iff leftCanonical rightCanonical
    have backwards := place_le_iff rightCanonical leftCanonical
    have leftZero := place_eq_zero_iff leftCanonical
    have rightZero := place_eq_zero_iff rightCanonical
    have leftNonneg : (0 : ℚ) ≤ left * 2 ^ leftExponent := by positivity
    have rightNonneg : (0 : ℚ) ≤ right * 2 ^ rightExponent := by positivity
    have ranks : (finite leftSign left leftExponent leftCanonical).le
        (finite rightSign right rightExponent rightCanonical) = true ↔
        signed leftSign (place left leftExponent) ≤ signed rightSign (place right rightExponent) :=
      decide_eq_true_iff
    rw [ranks]
    generalize place left leftExponent = leftPlace at *
    generalize place right rightExponent = rightPlace at *
    cases leftSign <;> cases rightSign <;>
      simp only [value, signed, Bool.false_eq_true, if_false, if_true, Int.cast_neg,
        Int.cast_natCast, neg_mul]
    · rw [← forwards]
      omega
    · -- A number that is not negative is at most one that is not positive when both are zero.
      constructor
      · intro ordered
        rw [leftZero.mp (by omega), rightZero.mp (by omega), neg_zero]
      · intro ordered
        have left := leftZero.mpr (by linarith)
        have right := rightZero.mpr (by linarith)
        omega
    · constructor <;> intro
      · linarith
      · omega
    · rw [neg_le_neg_iff, neg_le_neg_iff, ← backwards, Nat.cast_le]

/-! ### Sums and differences -/

private theorem value_at_lower {exponent lower : Int} (below : lower ≤ exponent) (negative : Bool)
    (significand : Nat) :
    (signed negative (significand * twoTo (exponent - lower).toNat) : ℚ) * 2 ^ lower =
      signed negative significand * 2 ^ exponent := by
  have shift : (2 : ℚ) ^ exponent = 2 ^ (exponent - lower).toNat * 2 ^ lower := by
    rw [← zpow_natCast, ← zpow_add₀ (by norm_num)]
    congr 1
    omega
  rw [shift, ← cast_twoTo]
  cases negative <;> simp only [signed, Bool.false_eq_true, if_false, if_true] <;> push_cast <;>
    ring

/-- The sum of finite numbers is their exact sum, rounded once. -/
theorem add_eq_round (left right : Binary64) (leftFinite : left.isFinite = true)
    (rightFinite : right.isFinite = true) :
    ∃ (sum : Int) (exponent : Int), (sum : ℚ) * 2 ^ exponent = left.value + right.value ∧
      left + right = if sum = 0 then zero (left.isNegative && right.isNegative)
        else roundScaled (sum < 0) sum.natAbs exponent := by
  cases left <;> cases right <;> simp only [isFinite, Bool.false_eq_true] at leftFinite rightFinite
  case finite.finite leftSign left leftExponent leftCanonical
      rightSign right rightExponent rightCanonical =>
    -- At the lesser exponent both significands are integers, so their sum is exact.
    refine ⟨_, min leftExponent rightExponent, ?_, rfl⟩
    rw [Int.cast_add, add_mul, value_at_lower (min_le_left _ _), value_at_lower (min_le_right _ _)]
    rfl

private theorem zero_le_zero (negative : Bool) : (zero false).le (zero negative) = true := by
  cases negative <;> decide

private theorem zero_le_round (numerator denominator : Nat) :
    (zero false).le (round false numerator denominator) = true := by
  have unsigned (magnitude : Nat) :
      decide ((zero false).rank ≤ signed false magnitude) = true := by
    have least : (zero false).rank = 0 := by decide
    rw [least]
    exact decide_eq_true (Int.natCast_nonneg magnitude)
  have parts (significand : Nat) (exponent : Int) :
      (zero false).le (ofParts false significand exponent) = true := by
    unfold ofParts
    split
    · exact unsigned ((exponent + 1074).toNat * leastNormal + significand)
    · exact unsigned (2047 * leastNormal)
  unfold round
  split
  · exact zero_le_zero false
  · dsimp only
    split <;> exact parts _ _

theorem isFinite_neg (number : Binary64) : number.neg.isFinite = number.isFinite := by
  cases number <;> rfl

theorem value_neg (number : Binary64) : number.neg.value = -number.value := by
  cases number with
  | nan => simp [neg, value]
  | infinite negative => simp [neg, value]
  | finite negative significand exponent canonical => cases negative <;> simp [neg, value, signed]

/-- The difference of a number and one that is at most it is not negative, infinite though it may
be: the exact difference has a sign, which rounding keeps. -/
theorem zero_le_sub (left right : Binary64) (leftFinite : left.isFinite = true)
    (rightFinite : right.isFinite = true) (ordered : left.le right = true) :
    (zero false).le (right - left) = true := by
  have values := (le_iff_value_le left right leftFinite rightFinite).mp ordered
  obtain ⟨sum, exponent, exact, rounded⟩ :=
    add_eq_round right left.neg rightFinite (by rw [isFinite_neg, leftFinite])
  have nonneg : 0 ≤ sum := by
    have difference : (0 : ℚ) ≤ sum * 2 ^ exponent := by
      rw [exact, value_neg]
      linarith
    exact_mod_cast nonneg_of_mul_nonneg_left difference (two_zpow_pos exponent)
  -- Rounding takes the sign as it is and never gives a number below zero for a positive one.
  change (zero false).le (right + left.neg) = true
  rw [rounded]
  split
  · exact zero_le_zero _
  · rw [decide_eq_false (by omega)]
    exact zero_le_round _ _

/-! ### Integers -/

/-- A finite number is the quotient of two integers. -/
theorem value_mul_denominator (negative : Bool) {significand : Nat} {exponent : Int}
    (canonical : Canonical significand exponent) :
    (Binary64.finite negative significand exponent canonical).value *
        (twoTo (-exponent).toNat : Int) =
      (signed negative (significand * twoTo exponent.toNat) : Int) := by
  have powers : (2 : ℚ) ^ exponent * 2 ^ (-exponent).toNat = 2 ^ exponent.toNat := by
    rw [← zpow_natCast, ← zpow_natCast, ← zpow_add₀ (by norm_num)]
    congr 1
    omega
  simp only [value]
  cases negative <;> simp only [signed, Bool.false_eq_true, if_false, if_true] <;> push_cast <;>
    rw [cast_twoTo, cast_twoTo, ← powers] <;> ring

/-- A number is read as the integer that it is equal to, and as none if there is no such integer. -/
theorem integer?_eq_some_iff (number : Binary64) (finite : number.isFinite = true) (code : Int) :
    number.integer? = some code ↔ number.value = code := by
  cases number <;> simp only [isFinite, Bool.false_eq_true] at finite
  case finite negative significand exponent canonical =>
    let numerator := signed negative (significand * twoTo exponent.toNat)
    let denominator : Int := twoTo (-exponent).toNat
    have positive : 0 < denominator :=
      Int.natCast_pos.mpr (Nat.two_pow_pos (-exponent).toNat)
    have quotient := value_mul_denominator negative canonical
    have equal : (Binary64.finite negative significand exponent canonical).value = code ↔
        code * denominator = numerator := by
      rw [← Int.cast_inj (α := ℚ), Int.cast_mul, ← quotient]
      exact ⟨fun same => by rw [same], fun same => (mul_right_cancel₀ (by positivity) same).symm⟩
    have read : (Binary64.finite negative significand exponent canonical).integer? =
        if numerator % denominator = 0 then some (numerator / denominator) else none := rfl
    rw [equal, read]
    -- Both sides now say that the division leaves nothing over.
    constructor
    · intro found
      split at found
      · case isTrue whole =>
        cases found
        exact Int.ediv_mul_cancel (Int.dvd_of_emod_eq_zero whole)
      · cases found
    · intro same
      rw [← same, Int.mul_emod_left, if_pos rfl, Int.mul_ediv_cancel _ positive.ne']

end TraceChart.Binary64
