import TraceChart.Proofs.Number.Decimal

/-!
# Numerals read back

A style decides where the point of a numeral stands and whether it has an exponent. Neither changes
the value, so every finite number is read back from its numeral, the two zeros included.
-/

namespace TraceChart

/-! ### Digits -/

namespace Digit

private theorem foldl_digits (digits : List Digit) (total : Nat) :
    digits.foldl (fun total digit => 10 * total + digit.val) total =
      total * 10 ^ digits.length + value digits := by
  unfold value
  induction digits generalizing total with
  | nil => simp
  | cons digit digits ih =>
    rw [List.foldl_cons, List.foldl_cons, ih, ih (10 * 0 + digit.val), List.length_cons]
    ring

theorem value_append (front back : List Digit) :
    value (front ++ back) = value front * 10 ^ back.length + value back := by
  rw [value, List.foldl_append]
  exact foldl_digits back _

@[simp] theorem value_zeros (count : Nat) : value (List.replicate count zero) = 0 := by
  induction count with
  | zero => rfl
  | succ count ih =>
    rw [List.replicate_succ', value_append, ih]
    rfl

@[simp] theorem value_ofNat (number : Nat) : value (ofNat number) = number := by
  induction number using ofNat.induct with
  | case1 number small =>
    rw [ofNat, dif_pos small]
    simp [value]
  | case2 number large ih =>
    rw [ofNat, dif_neg large, value_append, ih]
    simp only [List.length_singleton, pow_one, value, List.foldl_cons, List.foldl_nil]
    omega

/-- Only zero is written with a leading zero. -/
theorem ofNat_front (number : Nat) :
    ∃ first rest, ofNat number = first :: rest ∧ (first = zero → rest = []) ∧
      (0 < number → first ≠ zero) := by
  induction number using ofNat.induct with
  | case1 number small =>
    refine ⟨⟨number, small⟩, [], by rw [ofNat, dif_pos small], fun _ => rfl, ?_⟩
    rintro positive equal
    exact positive.ne' (congrArg Fin.val equal)
  | case2 number large ih =>
    obtain ⟨first, rest, written, -, nonzero⟩ := ih
    have nonzero := nonzero (by omega)
    -- The first digit of the tens is the first digit of the number.
    refine ⟨first, rest ++ [⟨number % 10, Nat.mod_lt _ (by decide)⟩], ?_,
      fun equal => absurd equal nonzero, fun _ => nonzero⟩
    rw [ofNat, dif_neg large, written, List.cons_append]

end Digit

theorem Binary64.signed_natAbs (value : Int) :
    signed (value < 0) value.natAbs = value := by
  rcases Int.lt_or_le value 0 with negative | positive
  · rw [signed, if_pos (decide_eq_true negative), Int.ofNat_natAbs_of_nonpos negative.le,
      Int.neg_neg]
  · rw [signed, if_neg (by simpa using positive), Int.natAbs_of_nonneg positive]

/-! ### Values -/

namespace Numeral

/-- The value of a numeral but for its sign. -/
def magnitude (numeral : Numeral) : ℚ :=
  numeral.significand * 10 ^ numeral.scale

/-- Some whole digits, which begin with zero only where that is all of them. -/
def Standard (numeral : Numeral) : Prop :=
  ∃ first rest, numeral.whole = first :: rest ∧ (first = Digit.zero → rest = [])

theorem toBinary64_eq {numeral : Numeral} {decimal : Decimal}
    (same : numeral.magnitude = decimal.value) :
    numeral.toBinary64 = .ofDecimal numeral.negative decimal.digits decimal.scale :=
  Binary64.ofDecimal_congr numeral.negative same

end Numeral

namespace Style

theorem magnitude_place (negative : Bool) (digits : List Digit) (point : Int) (pointZero : Bool) :
    (place negative digits point pointZero).magnitude =
      Digit.value digits * 10 ^ (point - digits.length) := by
  unfold place
  split
  next before =>
    -- Zeros in front of the digits add places behind the point, but no value.
    have zeros : Digit.value ([Digit.zero] ++ (List.replicate point.natAbs Digit.zero ++ digits)) =
        Digit.value digits := by
      rw [Digit.value_append, Digit.value_append, Digit.value_zeros]
      simp [Digit.value, Digit.zero]
    have scaled : (0 : Int) - (List.replicate point.natAbs Digit.zero ++ digits).length =
        point - digits.length := by
      rw [List.length_append, List.length_replicate]
      omega
    simp only [Numeral.magnitude, Numeral.significand, Numeral.scale, Option.getD_none, zeros,
      scaled]
  next after =>
    obtain ⟨places, rfl⟩ : ∃ places : Nat, point = places := ⟨point.toNat, by omega⟩
    dsimp only
    rw [Int.toNat_natCast]
    rcases Nat.lt_or_ge places digits.length with inside | beyond
    · -- The point stands between two digits, and nothing is added.
      have some_left : digits.drop places ≠ [] := by
        simpa using inside
      have scaled : (0 : Int) - (digits.drop places).length = places - digits.length := by
        rw [List.length_drop]
        omega
      simp only [Numeral.magnitude, Numeral.significand, Numeral.scale, Option.getD_none,
        some_left, false_and, if_false, Nat.sub_eq_zero_of_le inside.le, List.replicate_zero,
        List.append_nil, List.take_append_drop, scaled]
    · -- Zeros fill the places up to the point, and perhaps one behind it.
      have shift : ((places : Int) - digits.length) = (places - digits.length : Nat) := by omega
      rw [List.take_of_length_le beyond, List.drop_eq_nil_of_le beyond, shift, zpow_natCast]
      cases pointZero with
      | false =>
        simp [Numeral.magnitude, Numeral.significand, Numeral.scale, Digit.value_append]
      | true =>
        have zero : Digit.value [Digit.zero] = 0 := rfl
        simp only [Numeral.magnitude, Numeral.significand, Numeral.scale, and_self, if_true,
          Digit.value_append, Digit.value_zeros, zero, List.length_replicate,
          List.length_singleton, Option.getD_none, zero_sub, Nat.cast_one, zpow_neg_one]
        push_cast
        ring

theorem negative_place (negative : Bool) (digits : List Digit) (point : Int) (pointZero : Bool) :
    (place negative digits point pointZero).negative = negative := by
  unfold place
  split <;> rfl

theorem negative_arrange (style : Style) (negative : Bool) (decimal : Decimal) :
    (style.arrange negative decimal).negative = negative := by
  unfold arrange
  dsimp only
  split
  · exact negative_place _ _ _ _
  · split
    · exact negative_place _ _ _ _
    · rfl

theorem magnitude_arrange (style : Style) (negative : Bool) (decimal : Decimal) :
    (style.arrange negative decimal).magnitude = decimal.value := by
  unfold arrange
  dsimp only
  split
  next zero =>
    rw [magnitude_place, Decimal.value, zero]
    simp [Digit.value, Digit.zero]
  next =>
    split
    · rw [magnitude_place, Digit.value_ofNat, Decimal.value]
      congr 2
      omega
    · have written := Digit.value_ofNat decimal.digits
      obtain ⟨first, rest, front, -⟩ := Digit.ofNat_front decimal.digits
      have scaled : decimal.scale + (first :: rest).length - 1 - rest.length = decimal.scale := by
        rw [List.length_cons]
        omega
      rw [front] at written ⊢
      simp only [Numeral.magnitude, Numeral.significand, Numeral.scale, Option.getD_some,
        List.take_succ_cons, List.take_zero, List.drop_succ_cons, List.drop_zero, scaled,
        List.singleton_append, written, Decimal.value]

theorem standard_place (negative : Bool) {first : Digit} {rest : List Digit} (point : Int)
    (pointZero : Bool) (leading : first = Digit.zero → rest = [] ∧ point ≤ 1) :
    (place negative (first :: rest) point pointZero).Standard := by
  unfold place
  split
  next => exact ⟨Digit.zero, [], rfl, fun _ => rfl⟩
  next after =>
    obtain ⟨places, rfl⟩ : ∃ places : Nat, point = (places + 1 : Nat) :=
      ⟨point.toNat - 1, by omega⟩
    refine ⟨first, rest.take places ++
      List.replicate (places + 1 - (first :: rest).length) Digit.zero, rfl, ?_⟩
    -- A leading zero is the only digit, and the point stands right behind it.
    rintro rfl
    obtain ⟨rfl, short⟩ := leading rfl
    have none_left : places = 0 := by omega
    simp [none_left]

theorem standard_arrange (style : Style) (negative : Bool) (decimal : Decimal) :
    (style.arrange negative decimal).Standard := by
  obtain ⟨first, rest, front, -, nonzero⟩ := Digit.ofNat_front decimal.digits
  unfold arrange
  dsimp only
  split
  · exact standard_place _ 1 _ fun _ => ⟨rfl, le_refl 1⟩
  next positive =>
    have nonzero := nonzero (Nat.pos_of_ne_zero positive)
    rw [front]
    split
    · exact standard_place _ _ _ fun zero => absurd zero nonzero
    · exact ⟨first, [], rfl, fun _ => rfl⟩

/-! ### Numbers -/

theorem standard_of_numeral? {style : Style} {number : Binary64} {numeral : Numeral}
    (written : style.numeral? number = some numeral) : numeral.Standard := by
  cases number with
  | finite negative significand exponent canonical =>
    cases written
    exact standard_arrange _ _ _
  | nan => cases written
  | infinite negative => cases written

/-- Every number is read back from its numeral. -/
theorem toBinary64_of_numeral? {style : Style} {number : Binary64} {numeral : Numeral}
    (written : style.numeral? number = some numeral) : numeral.toBinary64 = number := by
  cases number with
  | nan => cases written
  | infinite negative => cases written
  | finite negative significand exponent canonical =>
    cases written
    rw [Numeral.toBinary64_eq (magnitude_arrange _ _ _), negative_arrange]
    rcases Nat.eq_zero_or_pos significand with rfl | positive
    · -- A zero has one exponent only.
      obtain rfl : exponent = -1074 := canonical.2.2.2.resolve_left (by decide)
      rfl
    · have read := Decimal.toBinary64_shortest style.tie canonical positive
      rw [Decimal.toBinary64] at read
      rw [if_neg positive.ne']
      cases negative with
      | false => exact read
      | true => rw [Binary64.ofDecimal_true, read]; rfl

theorem exists_numeral? (style : Style) {number : Binary64} (finite : number.isFinite = true) :
    ∃ numeral, style.numeral? number = some numeral := by
  cases number with
  | finite negative significand exponent canonical => exact ⟨_, rfl⟩
  | nan => cases finite
  | infinite negative => cases finite

end Style

end TraceChart
