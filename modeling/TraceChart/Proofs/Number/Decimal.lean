import TraceChart.Number.Style
import TraceChart.Proofs.Number.Quotient

/-!
# Decimals read back

A decimal is read by its value alone: how many zeros end its digits and where its point stands make
no difference. The shortest decimal of a number has been read back before it was taken, and the
exact value, which stands in where no short decimal was found, reads back too. So every written
number is read as itself, whatever the style is in which it was laid out.
-/

namespace TraceChart

/-! ### Reading -/

theorem cast_tenTo (exponent : Nat) : ((tenTo exponent : Nat) : ℚ) = 10 ^ exponent := by
  simp [tenTo]

theorem tenTo_pos (exponent : Nat) : 0 < tenTo exponent :=
  Nat.pow_pos (by decide)

theorem ten_zpow_eq (exponent : Int) :
    (10 : ℚ) ^ exponent = tenTo exponent.toNat / tenTo (-exponent).toNat := by
  rw [cast_tenTo, cast_tenTo, eq_div_iff (by positivity), ← zpow_natCast, ← zpow_natCast,
    ← zpow_add₀ (by norm_num)]
  congr 1
  omega

theorem two_pow_le_ten_pow (exponent : Nat) : (2 : ℚ) ^ (3 * exponent) ≤ 10 ^ exponent := by
  rw [pow_mul]
  exact pow_le_pow_left₀ (by norm_num) (by norm_num) _

namespace Binary64

theorem ofDecimal_zero (negative : Bool) (scale : Int) :
    ofDecimal negative 0 scale = zero negative := rfl

/-- The quotient that a decimal stands for. -/
theorem decimal_eq_quotient (digits : Nat) (scale : Int) :
    ((digits * tenTo scale.toNat : Nat) / (tenTo (-scale).toNat : Nat) : ℚ) =
      digits * 10 ^ scale := by
  rw [ten_zpow_eq]
  push_cast
  ring

/-- The bounds beyond which no power of ten is formed change nothing. -/
theorem ofDecimal_eq_round (negative : Bool) {digits : Nat} (positive : 0 < digits) (scale : Int) :
    ofDecimal negative digits scale =
      round negative (digits * tenTo scale.toNat) (tenTo (-scale).toNat) := by
  have numeratorPos : 0 < digits * tenTo scale.toNat := Nat.mul_pos positive (tenTo_pos _)
  have denominatorPos := tenTo_pos (-scale).toNat
  rw [ofDecimal, if_neg positive.ne']
  split
  next high =>
    obtain ⟨power, rfl⟩ : ∃ power : Nat, scale = power := ⟨scale.toNat, by omega⟩
    have large : (2 : ℚ) ^ (1024 : Int) ≤
        (digits * tenTo (power : Int).toNat : Nat) / (tenTo (-(power : Int)).toNat : Nat) := by
      have one : (1 : ℚ) ≤ digits := by exact_mod_cast positive
      rw [decimal_eq_quotient, zpow_natCast]
      -- Eight is below ten, so three times the exponent of ten is one of two.
      calc (2 : ℚ) ^ (1024 : Int) ≤ 2 ^ ((3 * power : Nat) : Int) :=
            zpow_le_zpow_right₀ (by norm_num) (by omega)
        _ ≤ 1 * 10 ^ power := by
            rw [zpow_natCast, one_mul]
            exact two_pow_le_ten_pow power
        _ ≤ digits * 10 ^ power := mul_le_mul_of_nonneg_right one (by positivity)
    have rounded := round_of_large numeratorPos denominatorPos large
    cases negative with
    | false => exact rounded.symm
    | true => rw [round_true, rounded, neg]; rfl
  next =>
    split
    next low =>
      obtain ⟨power, rfl⟩ : ∃ power : Nat, scale = -(power : Int) :=
        ⟨(-scale).toNat, by omega⟩
      have small : ((digits * tenTo (-(power : Int)).toNat : Nat) /
          (tenTo (-(-(power : Int))).toNat : Nat) : ℚ) < 2 ^ (-1075 : Int) := by
        have bits : (digits : ℚ) < 2 ^ ((digits.log2 : Int) + 1) := by
          rw [← Nat.cast_one, ← Nat.cast_add, zpow_natCast]
          exact_mod_cast Nat.lt_log2_self
        rw [decimal_eq_quotient, zpow_neg, zpow_natCast, ← div_eq_mul_inv,
          div_lt_iff₀ (by positivity)]
        -- The digits have fewer bits than the power of ten takes away.
        calc (digits : ℚ) < 2 ^ ((digits.log2 : Int) + 1) := bits
          _ ≤ 2 ^ ((-1075 : Int) + (3 * power : Nat)) :=
            zpow_le_zpow_right₀ (by norm_num) (by omega)
          _ ≤ 2 ^ (-1075 : Int) * 10 ^ power := by
            rw [zpow_add₀ (by norm_num), zpow_natCast]
            exact mul_le_mul_of_nonneg_left (two_pow_le_ten_pow power) (by positivity)
      have rounded := round_of_small numeratorPos denominatorPos small
      cases negative with
      | false => exact rounded.symm
      | true => rw [round_true, rounded]; rfl
    next => rfl

/-- Decimals of one value are read as the same number. -/
theorem ofDecimal_congr (negative : Bool) {digits otherDigits : Nat} {scale otherScale : Int}
    (same : (digits : ℚ) * 10 ^ scale = otherDigits * 10 ^ otherScale) :
    ofDecimal negative digits scale = ofDecimal negative otherDigits otherScale := by
  have power := (zpow_pos (show (0 : ℚ) < 10 by norm_num) scale).ne'
  have otherPower := (zpow_pos (show (0 : ℚ) < 10 by norm_num) otherScale).ne'
  rcases Nat.eq_zero_or_pos digits with rfl | positive
  · have zero : otherDigits = 0 := by simpa [otherPower] using same
    rw [zero, ofDecimal_zero, ofDecimal_zero]
  · have otherPositive : 0 < otherDigits := by
      rcases Nat.eq_zero_or_pos otherDigits with rfl | positive
      · have zero : digits = 0 := by simpa [power] using same
        omega
      · exact positive
    rw [ofDecimal_eq_round _ positive, ofDecimal_eq_round _ otherPositive]
    exact round_congr negative (tenTo_pos _) (tenTo_pos _)
      (by rw [decimal_eq_quotient, decimal_eq_quotient, same])

theorem ofDecimal_true (digits : Nat) (scale : Int) :
    ofDecimal true digits scale = (ofDecimal false digits scale).neg := by
  rcases Nat.eq_zero_or_pos digits with rfl | positive
  · rfl
  · rw [ofDecimal_eq_round _ positive, ofDecimal_eq_round _ positive, round_true]

/-- A decimal that has the value of a positive number is read as it. -/
theorem ofDecimal_canonical {digits significand : Nat} {scale exponent : Int}
    (canonical : Canonical significand exponent) (positive : 0 < significand)
    (same : (digits : ℚ) * 10 ^ scale = significand * 2 ^ exponent) :
    ofDecimal false digits scale = .finite false significand exponent canonical := by
  have digitsPos : 0 < digits := by
    rcases Nat.eq_zero_or_pos digits with rfl | digitsPos
    · have power := (two_zpow_pos exponent).ne'
      have zero : significand = 0 := by simpa [power] using same
      omega
    · exact digitsPos
  rw [ofDecimal_eq_round _ digitsPos]
  exact round_canonical (Nat.mul_pos digitsPos (tenTo_pos _)) (tenTo_pos _) canonical
    (by rw [decimal_eq_quotient, same])

end Binary64

/-! ### The shortest decimal -/

namespace Decimal

def value (decimal : Decimal) : ℚ :=
  decimal.digits * 10 ^ decimal.scale

theorem toBinary64_congr {decimal other : Decimal} (same : decimal.value = other.value) :
    decimal.toBinary64 = other.toBinary64 :=
  Binary64.ofDecimal_congr false same

theorem value_strip (decimal : Decimal) : decimal.strip.value = decimal.value := by
  induction decimal using strip.induct with
  | case1 decimal ends ih =>
    rw [strip, if_pos ends, ih]
    have tens : ((decimal.digits / 10 : Nat) : ℚ) * 10 = decimal.digits := by
      exact_mod_cast Nat.div_mul_cancel (Nat.dvd_of_mod_eq_zero ends.2)
    rw [value, value, ← tens, zpow_add_one₀ (by norm_num)]
    ring
  | case2 decimal other => rw [strip, if_neg other]

/-- A decimal next to a number is taken only where it reads back. -/
theorem toBinary64_of_neighbour {tie : Tie} {number : Binary64} {numerator denominator : Nat}
    {scale : Int} {decimal : Decimal}
    (found : neighbour? tie number numerator denominator scale = some decimal) :
    decimal.toBinary64 = number := by
  unfold neighbour? at found
  dsimp only at found
  split at found
  next => cases found
  next lower _ =>
    cases found
    exact of_decide_eq_true lower
  next _ upper =>
    cases found
    exact of_decide_eq_true upper
  next lower upper =>
    have either {chosen : Decimal} (below above : Decimal)
        (lower : below.toBinary64 = number) (upper : above.toBinary64 = number)
        (among : chosen = below ∨ chosen = above) : chosen.toBinary64 = number := by
      rcases among with rfl | rfl
      · exact lower
      · exact upper
    -- Where both read back, the nearer one is taken, and on a tie the style decides.
    refine either _ _ (of_decide_eq_true lower) (of_decide_eq_true upper) ?_
    split at found
    · exact Or.inl (Option.some.inj found).symm
    · split at found
      · exact Or.inr (Option.some.inj found).symm
      · split at found
        · exact Or.inr (Option.some.inj found).symm
        · split at found
          · exact Or.inl (Option.some.inj found).symm
          · exact Or.inr (Option.some.inj found).symm

theorem value_exact (significand : Nat) (exponent : Int) :
    (exact significand exponent).value = significand * 2 ^ exponent := by
  unfold exact
  split
  next negative =>
    obtain ⟨power, rfl⟩ : ∃ power : Nat, exponent = -(power : Int) :=
      ⟨exponent.natAbs, by omega⟩
    -- To halve is to take a fifth of the powers of ten.
    have fives : (10 : ℚ) ^ power = 2 ^ power * 5 ^ power := by
      rw [← mul_pow]
      norm_num
    simp only [value, Int.natAbs_neg, Int.natAbs_natCast, zpow_neg, zpow_natCast, fives]
    have powers : ((Nat.pow 5 power : Nat) : ℚ) = 5 ^ power := by simp
    push_cast [powers]
    field_simp
  next nonnegative =>
    obtain ⟨power, rfl⟩ : ∃ power : Nat, exponent = power := ⟨exponent.toNat, by omega⟩
    simp [value, twoTo]

theorem toBinary64_shortest (tie : Tie) {significand : Nat} {exponent : Int}
    (canonical : Canonical significand exponent) (positive : 0 < significand) :
    (shortest tie significand exponent).toBinary64 =
      .finite false significand exponent canonical := by
  have number : Binary64.ofParts false significand exponent =
      .finite false significand exponent canonical := dif_pos canonical
  unfold shortest
  dsimp only
  rw [toBinary64_congr (value_strip _), number]
  -- Each grid answers with a decimal that reads back, and the exact value does so anyway.
  cases found : List.findSome? _ _ with
  | none => exact Binary64.ofDecimal_canonical canonical positive (value_exact _ _)
  | some decimal =>
    obtain ⟨count, -, neighbour⟩ := List.exists_of_findSome?_eq_some found
    exact toBinary64_of_neighbour neighbour

end Decimal

end TraceChart
