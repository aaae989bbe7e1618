import TraceChart.Number.Exact
import TraceChart.Proofs.Number.Reading

/-!
# Numbers with a set number of places

A number that needs no more decimal places than it is given is written exactly. Nothing is added but
zeros behind its last digit, and the sign is that of the value, so that zero has none.
-/

namespace TraceChart

theorem nearestEven_of_dvd (quotient : Nat) {denominator : Nat} (positive : 0 < denominator) :
    nearestEven (quotient * denominator) denominator = quotient :=
  le_antisymm (Binary64.nearestEven_le positive le_rfl) (Binary64.le_nearestEven positive le_rfl)

namespace Numeral

def value (numeral : Numeral) : ℚ :=
  if numeral.negative then -numeral.magnitude else numeral.magnitude

/-- A numeral that says a value with just some decimal places: without an exponent, without zeros in
front of its whole part, and with a sign only below zero. -/
structure Writes (numeral : Numeral) (places : Nat) (value : ℚ) : Prop where
  standard : numeral.Standard
  fraction : numeral.fraction.length = places
  unraised : numeral.exponent = none
  valued : numeral.value = value
  signed : numeral.negative = true ↔ value < 0

end Numeral

/-! ### Placing the point -/

/-- Zeros are put in front of digits until one of them stands before the point. A zero in front of
further whole digits is never needed. -/
theorem standard_padded (number places : Nat) :
    let digits := List.replicate (places + 1 - (Digit.ofNat number).length) Digit.zero ++
      Digit.ofNat number
    ∃ first rest, digits = first :: rest ∧ places ≤ rest.length ∧
      (first = Digit.zero → rest.length = places) := by
  intro digits
  obtain ⟨first, rest, front, zero, _⟩ := Digit.ofNat_front number
  rcases Nat.lt_or_ge places (Digit.ofNat number).length with enough | short
  · have none : places + 1 - (Digit.ofNat number).length = 0 := by omega
    have same : digits = first :: rest := by
      change List.replicate (places + 1 - (Digit.ofNat number).length) _ ++ _ = _
      rw [none, front, List.replicate_zero, List.nil_append]
    rw [front, List.length_cons] at enough
    refine ⟨first, rest, same, by omega, fun leading => ?_⟩
    rw [zero leading] at enough ⊢
    simp only [List.length_nil] at *
    omega
  · refine ⟨Digit.zero, List.replicate (places - (Digit.ofNat number).length) Digit.zero ++
      Digit.ofNat number, ?_, ?_, fun _ => ?_⟩
    · simp only [digits, Nat.sub_add_comm short, List.replicate_succ, List.cons_append]
    · simp only [List.length_append, List.length_replicate]
      omega
    · simp only [List.length_append, List.length_replicate]
      omega

theorem fixedNumeral_parts (negative : Bool) (places numerator denominator : Nat) :
    let numeral := fixedNumeral negative places numerator denominator
    numeral.negative = negative ∧ numeral.exponent = none ∧ numeral.Standard ∧
      numeral.fraction.length = places ∧
      numeral.significand = nearestEven (numerator * tenTo places) denominator := by
  let scaled := nearestEven (numerator * tenTo places) denominator
  obtain ⟨first, rest, padded, long, leading⟩ := standard_padded scaled places
  have valued : Digit.value (first :: rest) = scaled := by
    rw [← padded, Digit.value_append, Digit.value_zeros, Digit.value_ofNat, Nat.zero_mul,
      Nat.zero_add]
  have parts : fixedNumeral negative places numerator denominator =
      ⟨negative, first :: rest.take (rest.length - places), rest.drop (rest.length - places),
        none⟩ := by
    have point : (first :: rest).length - places = rest.length - places + 1 := by
      rw [List.length_cons]
      omega
    unfold fixedNumeral
    dsimp only
    rw [padded, point, List.take_succ_cons, List.drop_succ_cons]
  rw [parts]
  refine ⟨rfl, rfl, ⟨first, _, rfl, fun zero => ?_⟩, ?_, ?_⟩
  · rw [leading zero, Nat.sub_self, List.take_zero]
  · simp only [List.length_drop]
    omega
  · simp only [Numeral.significand, List.cons_append, List.take_append_drop]
    exact valued

/-! ### Exact values -/

theorem magnitude_fixedNumeral (negative : Bool) {places numerator denominator whole : Nat}
    (positive : 0 < denominator) (exact : numerator * tenTo places = whole * denominator) :
    (fixedNumeral negative places numerator denominator).magnitude = numerator / denominator := by
  obtain ⟨_, unraised, _, fraction, significand⟩ :=
    fixedNumeral_parts negative places numerator denominator
  have divisor : (denominator : ℚ) ≠ 0 := by exact_mod_cast positive.ne'
  have power : (10 : ℚ) ^ places ≠ 0 := by positivity
  have quotient : (numerator * 10 ^ places : ℚ) = whole * denominator := by
    rw [← cast_tenTo]
    exact_mod_cast exact
  rw [exact, nearestEven_of_dvd whole positive] at significand
  rw [Numeral.magnitude, significand, Numeral.scale, unraised, fraction, Option.getD_none, zero_sub,
    zpow_neg, zpow_natCast, ← div_eq_mul_inv, div_eq_div_iff power divisor, quotient]

/-- A rational that is a whole number of its last places is written exactly. -/
theorem Exact.exists_fixedText {places : Nat} {value : ℚ} {whole : Int}
    (exact : value * 10 ^ places = whole) : ∃ numeral : Numeral, numeral.Writes places value ∧
      Scalar.fixedText places value = String.ofList (numeral.chars false 1) := by
  have divisor : (value.den : ℚ) ≠ 0 := by exact_mod_cast value.den_pos.ne'
  have quotient : (value.num / value.den : ℚ) = value := value.num_div_den
  have divided : value.num.natAbs * tenTo places = whole.natAbs * value.den := by
    have rationals : (value.num * tenTo places : ℚ) = whole * value.den := by
      rw [cast_tenTo, ← exact, ← div_eq_iff divisor, mul_div_right_comm, quotient]
    have integers : value.num * tenTo places = whole * value.den := by exact_mod_cast rationals
    simpa [Int.natAbs_mul] using congrArg Int.natAbs integers
  have magnitude := magnitude_fixedNumeral (decide (value < 0)) value.den_pos divided
  have absolute : (value.num.natAbs / value.den : ℚ) = |value| := by
    rw [Nat.cast_natAbs, Int.cast_abs, ← Nat.abs_cast value.den, ← abs_div, quotient]
  obtain ⟨negative, unraised, standard, fraction, _⟩ :=
    fixedNumeral_parts (decide (value < 0)) places value.num.natAbs value.den
  refine ⟨_, ⟨standard, fraction, unraised, ?_, ?_⟩, rfl⟩
  · rw [Numeral.value, magnitude, absolute, negative]
    rcases lt_or_ge value 0 with below | above
    · rw [if_pos (decide_eq_true below), abs_of_neg below, neg_neg]
    · rw [if_neg (by simpa using above), abs_of_nonneg above]
  · rw [negative, decide_eq_true_eq]

end TraceChart
