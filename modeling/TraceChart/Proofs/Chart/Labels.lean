import TraceChart.Proofs.Chart.Ticks
import TraceChart.Proofs.Number.Fixed

/-!
# Labels of exact rulers

The decade of a major step says how many decimal places its labels have. In exact arithmetic these
are just enough for every multiple of the step: no label is rounded, so labels of different ticks
differ, and the label of zero has no sign.
-/

namespace TraceChart.Ruler

open Exact

theorem magnitude_eq (value : Rat) : Scalar.magnitude value = |value| := by
  unfold Scalar.magnitude
  rw [zero_eq, lt_eq]
  split
  next below => rw [abs_of_neg (of_decide_eq_true below), zero_sub]
  next above => rw [abs_of_nonneg (by simpa using above)]

/-- A multiple of a step is shown as it is: only zero is near zero. -/
theorem label_of_tick {major : Rat} (positive : 0 < major) (tick : Int) :
    label (tick * major) major =
      .ok (Scalar.fixedText (-Int.log 10 major).toNat (tick * major) ++ "s") := by
  have takes (places : Nat) : Scalar.takesPlaces Rat places = true := rfl
  have shown : (if Scalar.lt (Scalar.magnitude (tick * major)) (major * 1e-6) then 0.0
      else tick * major : Rat) = tick * major := by
    rw [magnitude_eq, lt_eq, zero_eq]
    split
    next near =>
      have near := of_decide_eq_true near
      rcases eq_or_ne tick 0 with rfl | other
      · rw [Int.cast_zero, zero_mul]
      · -- Every other multiple is at least as far from zero as the step.
        have one : (1 : ℚ) ≤ |(tick : ℚ)| := by exact_mod_cast Int.one_le_abs other
        have far := mul_le_mul_of_nonneg_right one positive.le
        rw [abs_mul, abs_of_pos positive] at near
        norm_num at near
        linarith
    next => rfl
  simp only [label, labelPlaces?, decade_of_pos positive, takes, if_true, shown]

section Digit

variable {digit : Nat} (positive : 0 < digit) (single : digit < 10) (power : Int)

include positive

theorem major_pos : (0 : ℚ) < digit * 10 ^ power := by
  have digitPos : (0 : ℚ) < digit := by exact_mod_cast positive
  exact mul_pos digitPos (zpow_pos (by norm_num) power)

include single

/-- The label of a multiple of a digit at a power of ten says just that time. -/
theorem exists_label (tick : Int) :
    ∃ numeral : Numeral, numeral.Writes (-power).toNat (tick * (digit * 10 ^ power)) ∧
      label (tick * (digit * 10 ^ power) : ℚ) (digit * 10 ^ power) =
        .ok (String.ofList (numeral.chars false 1) ++ "s") := by
  have log : Int.log 10 (digit * 10 ^ power : ℚ) = power := by
    rw [log_mul_zpow (by exact_mod_cast positive), Int.log_natCast, Nat.log_of_lt single,
      Nat.cast_zero, zero_add]
  -- Either the power or the number of places is zero, and moving the point by it leaves an integer.
  have places : (10 : ℚ) ^ power * 10 ^ (-power).toNat = 10 ^ power.toNat := by
    rw [← zpow_natCast, ← zpow_natCast, ← zpow_add₀ (by norm_num)]
    congr 1
    omega
  have whole : (tick * (digit * 10 ^ power) : ℚ) * 10 ^ (-power).toNat =
      (tick * digit * 10 ^ power.toNat : Int) := by
    rw [mul_assoc, mul_assoc, places]
    push_cast
    ring
  obtain ⟨numeral, writes, text⟩ := exists_fixedText whole
  refine ⟨numeral, writes, ?_⟩
  rw [label_of_tick (major_pos positive power), log, text]

end Digit

/-- The labels of a step that is one, two or five times a power of ten have as many decimal places
as the power. Each label is the exact time of its tick, so different ticks have different labels,
and only those before zero have a sign. -/
theorem label_of_multiple {factor : ℚ} (factors : factor ∈ [1, 2, 5]) (power tick : Int) :
    let major := factor * 10 ^ power
    (∃ numeral : Numeral, numeral.Writes (-power).toNat (tick * major) ∧
      label (tick * major) major = .ok (String.ofList (numeral.chars false 1) ++ "s")) ∧
    (∀ other : Int, label (other * major) major = label (tick * major) major → other = tick) ∧
    ∀ text, label (tick * major) major = .ok text → (text.toList.head? = some '-' ↔ tick < 0) := by
  intro major
  obtain ⟨digit, digitPos, single, rfl⟩ :
      ∃ digit : Nat, 0 < digit ∧ digit < 10 ∧ (digit : ℚ) = factor := by
    simp only [List.mem_cons, List.not_mem_nil, or_false] at factors
    rcases factors with rfl | rfl | rfl
    · exact ⟨1, by decide, by decide, Nat.cast_one⟩
    · exact ⟨2, by decide, by decide, rfl⟩
    · exact ⟨5, by decide, by decide, rfl⟩
  have positive : 0 < major := major_pos digitPos power
  obtain ⟨numeral, writes, written⟩ := exists_label digitPos single power tick
  have whole := Style.whole_of_standard writes.standard
  refine ⟨⟨numeral, writes, written⟩, fun other same => ?_, fun text labelled => ?_⟩
  · obtain ⟨otherNumeral, otherWrites, otherWritten⟩ := exists_label digitPos single power other
    rw [written, otherWritten, Except.ok.injEq] at same
    have chars := congrArg String.toList same
    rw [String.toList_append, String.toList_append, List.append_cancel_right_eq,
      String.toList_ofList, String.toList_ofList] at chars
    have numerals := Numeral.chars_injective false 1 (Style.whole_of_standard otherWrites.standard)
      whole chars
    have times := otherWrites.valued.symm.trans (numerals ▸ writes.valued)
    exact_mod_cast mul_right_cancel₀ positive.ne' times
  · rw [written] at labelled
    cases labelled
    have sign := (Numeral.negative_iff_chars false 1 whole).symm.trans writes.signed
    have below : (tick * major : ℚ) < 0 ↔ tick < 0 := by
      rw [← zero_mul major, mul_lt_mul_iff_of_pos_right positive, Int.cast_lt_zero]
    rw [String.toList_append, String.toList_ofList, List.head?_append, ← below, ← sign]
    cases (numeral.chars false 1).head? <;> simp

/-- A tick before zero, where ticks are five thousandths of a second apart. -/
theorem label_of_five_thousandths :
    let factors : List ℚ := [1, 2, 5]
    5 ∈ factors ∧ label (-3 / 200 : ℚ) (1 / 200) = .ok "-0.015s" ∧
      (∃ numeral : Numeral, numeral.Writes 3 (-3 / 200) ∧ (.ok "-0.015s" : Except Fault String) =
        .ok (String.ofList (numeral.chars false 1) ++ "s")) ∧
      ∀ tick : Int, label (tick * (1 / 200) : ℚ) (1 / 200) = .ok "-0.015s" → tick = -3 := by
  have member : (5 : ℚ) ∈ [1, 2, 5] := by simp
  have step : (5 : ℚ) * 10 ^ (-3 : Int) = 1 / 200 := by norm_num
  have time : ((-3 : Int) : ℚ) * (1 / 200) = -3 / 200 := by norm_num
  have written : label (-3 / 200 : ℚ) (1 / 200) = .ok "-0.015s" := by decide +kernel
  obtain ⟨exact, distinct, _⟩ := label_of_multiple member (-3) (-3)
  rw [step, time, written] at exact distinct
  exact ⟨member, written, exact, distinct⟩

end TraceChart.Ruler
