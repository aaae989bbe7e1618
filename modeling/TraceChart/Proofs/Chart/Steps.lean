import TraceChart.Proofs.Chart.Drawing
import TraceChart.Proofs.Number.Decade
import TraceChart.Proofs.Number.Spacing

/-!
# Steps of rulers in binary64

As long as the share of a label is at least three times the least number, its power of ten is not
rounded down to zero: the parts of the step are longer than nothing, and its labels have few
decimal places. Below that the step itself is zero, and no label has decimal places enough. Ticks
are multiples of a part that are rounded; within 51 bits they stay apart, and all but the outermost
lie in the window.
-/

namespace TraceChart.Ruler

open Binary64

/-! ### Labels -/

theorem labelPlaces_of_pos {major : Binary64} (positive : (0.0 : Binary64).lt major = true) :
    ∃ places, labelPlaces? major = some places ∧ places ≤ 324 := by
  rcases pos_cases positive with rfl | ⟨isFinite, valuePos⟩
  · exact ⟨0, rfl, by decide⟩
  · obtain ⟨decade, found, least, _⟩ := Binary64.decade_of_pos isFinite valuePos
    have read : Scalar.decade major = .at decade := found
    exact ⟨(-decade).toNat, by rw [labelPlaces?, read], by omega⟩

theorem label_of_places {major : Binary64} {places : Nat}
    (found : labelPlaces? major = some places) (few : places ≤ mostPlaces) (time : Binary64) :
    ∃ text, label time major = .ok text := by
  have takes : Scalar.takesPlaces Binary64 places = true := decide_eq_true few
  simp only [label, found, takes, if_true]
  exact ⟨_, rfl⟩

/-! ### The share of a label -/

section Share

variable {duration width : Binary64}

theorem zero_lt_divisor (width : Binary64) :
    (0.0 : Binary64).lt (Scalar.larger (width / spacing) 2.0) = true := by
  have two : Scalar.le (2.0 : Binary64) (Scalar.larger (width / spacing) 2.0) = true :=
    Scalar.le_larger _ (by decide)
  exact Scalar.lt_of_lt_of_le (by decide : Scalar.lt (0.0 : Binary64) 2.0 = true) two

/-- A finite width leaves room for a finite number of labels. -/
theorem divisor_bounds (isFinite : width.isFinite = true)
    (wide : (0.0 : Binary64).lt width = true) :
    (Scalar.larger (width / spacing) 2.0).isFinite = true ∧
      (Scalar.larger (width / spacing) 2.0).value ≤ max width.value 2 := by
  have nonneg : (0.0 : Binary64).le width = true := Scalar.le_of_lt (α := Binary64) wide
  have narrower : (width / spacing).le width = true :=
    div_le_of_one_le isFinite nonneg (by decide)
  have quotientFinite : (width / spacing).isFinite = true :=
    isFinite_between rfl isFinite (zero_le_div isFinite nonneg (by decide)) narrower
  have values := (le_iff_value_le _ _ quotientFinite isFinite).mp narrower
  have two : (2.0 : Binary64).value = 2 := by
    exact_mod_cast (@literal_exact 2 (by decide) (by decide)).2
  refine ⟨Scalar.finite_larger (α := Binary64) quotientFinite (by decide), ?_⟩
  unfold Scalar.larger
  split
  · exact values.trans (le_max_left _ _)
  · rw [two]
    exact le_max_right _ _

/-- The share is a number, unless both the duration and the width are infinite. -/
theorem share_cases (lasting : (0.0 : Binary64).lt duration = true)
    (wide : (0.0 : Binary64).lt width = true) :
    (0.0 : Binary64).le (share duration width) = true ∨
      share duration width = nan ∧ duration = infinite false ∧ width = infinite false := by
  have durationNonneg : (0.0 : Binary64).le duration = true :=
    Scalar.le_of_lt (α := Binary64) lasting
  rcases pos_cases lasting with rfl | ⟨isFinite, _⟩
  · rcases pos_cases (zero_lt_divisor width) with divisor | ⟨divisorFinite, divisorPos⟩
    · rcases pos_cases wide with rfl | ⟨widthFinite, _⟩
      · exact .inr ⟨by rw [share, divisor]; rfl, rfl, rfl⟩
      · have divisorFinite := (divisor_bounds widthFinite wide).1
        rw [divisor] at divisorFinite
        cases divisorFinite
    · rw [share, infinite_div divisorFinite divisorPos]
      exact .inl rfl
  · exact .inl (zero_le_div isFinite durationNonneg (zero_lt_divisor width))

/-- A window with a share below a power of two is no longer than the width allows. -/
theorem duration_lt {start finish : Binary64} (startFinite : start.isFinite = true)
    (finishFinite : finish.isFinite = true) (lasting : (0.0 : Binary64).lt (finish - start) = true)
    (shareFinite : (share (finish - start) width).isFinite = true)
    (widthFinite : width.isFinite = true) (wide : (0.0 : Binary64).lt width = true)
    {bits : Nat} (positive : 1 ≤ bits) (narrow : width.value ≤ 2 ^ bits) {power : Int}
    (least : -1074 ≤ power) (near : (share (finish - start) width).value < 2 ^ power) :
    finish.value - start.value < 2 ^ (bits + power) := by
  obtain ⟨divisorFinite, most⟩ := divisor_bounds widthFinite wide
  have divisorPos : 0 < (Scalar.larger (width / spacing) 2.0).value := by
    have values := (lt_iff_value_lt rfl divisorFinite).mp (zero_lt_divisor width)
    rwa [value_zero] at values
  have room : (Scalar.larger (width / spacing) 2.0).value ≤ 2 ^ bits :=
    most.trans (max_le narrow (le_self_pow₀ (by norm_num) (by omega)))
  have length := two_zpow_pos power
  rcases pos_cases lasting with infinite | ⟨durationFinite, _⟩
  · rw [share, infinite, infinite_div divisorFinite divisorPos] at shareFinite
    cases shareFinite
  · -- Neither of the two roundings passes a power of two.
    have shared := (rounded_div durationFinite divisorFinite divisorPos.ne').lt_power shareFinite
      least near
    rw [div_lt_iff₀ divisorPos] at shared
    refine (rounded_sub finishFinite startFinite).lt_power durationFinite (by omega) ?_
    calc (finish - start).value
        < 2 ^ power * (Scalar.larger (width / spacing) 2.0).value := shared
      _ ≤ 2 ^ power * 2 ^ bits := mul_le_mul_of_nonneg_left room length.le
      _ = 2 ^ (bits + power) := by
        rw [mul_comm, ← zpow_natCast, ← zpow_add₀ (by norm_num)]

theorem candidate_bounds {factor : Binary64} {parts : Nat} (member : (factor, parts) ∈ candidates) :
    factor.isFinite = true ∧ 0 < factor.value ∧ 0 < parts ∧ parts ≤ 8 ∧
      parts ≤ factor.value * 2 := by
  have two : (2.0 : Binary64).value = 2 := by
    exact_mod_cast (@literal_exact 2 (by decide) (by decide)).2
  have five : (5.0 : Binary64).value = 5 := by
    exact_mod_cast (@literal_exact 5 (by decide) (by decide)).2
  have ten : (10.0 : Binary64).value = 10 := by
    exact_mod_cast (@literal_exact 10 (by decide) (by decide)).2
  simp only [candidates, List.mem_cons, Prod.mk.injEq, List.not_mem_nil, or_false] at member
  rcases member with ⟨rfl, rfl⟩ | ⟨rfl, rfl⟩ | ⟨rfl, rfl⟩ | ⟨rfl, rfl⟩ <;>
    refine ⟨by decide, ?_, by decide, by decide, ?_⟩ <;>
    norm_num [value_one, two, five, ten]

theorem parts_bounds {parts : Nat} (positive : 0 < parts) (few : parts ≤ 8) :
    (ofInt parts).isFinite = true ∧ (ofInt parts).value = parts ∧ 0 < (ofInt parts).value := by
  obtain ⟨isFinite, valued⟩ :=
    ofInt_natCast (show parts < significandLimit by simp only [significandLimit]; omega)
  refine ⟨isFinite, valued, ?_⟩
  rw [valued]
  exact_mod_cast positive

/-- The step and its parts are at least as long as a power of two that the share of a label is not
far above. -/
theorem chooseStep_atLeast (above : (share duration width).AtLeast (3 * 2 ^ (-1074 : Int))) :
    ∃ power : Int, -1074 ≤ power ∧ (chooseStep duration width).major.AtLeast (2 ^ power) ∧
      (chooseStep duration width).minor.AtLeast (2 ^ power) ∧
      ((share duration width).isFinite = true → (share duration width).value < 2 ^ (power + 9)) := by
  obtain ⟨power, least, most, unit, near⟩ := powerOfTen_decade above
  obtain ⟨factor, parts, member, chosen⟩ := exists_candidate duration width
  obtain ⟨isFinite, positive, partsPos, partsFew, bound⟩ := candidate_bounds member
  obtain ⟨divisorFinite, divisorValue, divisorPos⟩ := parts_bounds partsPos partsFew
  obtain ⟨many, manyFinite, manyValue⟩ :=
    @exists_finite_few parts power (by omega) least (by omega)
  obtain ⟨one, oneFinite, oneValue⟩ := exists_finite_power least (by omega)
  have length := two_zpow_pos power
  have partsLeast : (1 : ℚ) ≤ parts := by exact_mod_cast partsPos
  have major : (chooseStep duration width).major.AtLeast many.value := by
    rw [chosen]
    refine unit.mul isFinite positive manyFinite ?_
    rw [manyValue, ← mul_assoc]
    exact mul_le_mul_of_nonneg_right (by exact_mod_cast bound) length.le
  have minor : (chooseStep duration width).minor.AtLeast one.value := by
    have reached : one.value * (ofInt parts).value ≤ many.value := by
      rw [divisorValue, oneValue, manyValue, mul_comm, Int.cast_natCast]
    rw [chosen] at major ⊢
    exact major.div divisorFinite divisorPos oneFinite reached
  rw [oneValue] at minor
  refine ⟨power, least, major.mono ?_, minor, near⟩
  rw [manyValue]
  exact le_mul_of_one_le_left length.le (by exact_mod_cast partsLeast)

/-- The step and its parts are longer than nothing, and its labels have few decimal places. -/
theorem step_of_share (above : (share duration width).AtLeast (3 * 2 ^ (-1074 : Int))) :
    (0.0 : Binary64).lt (chooseStep duration width).minor = true ∧
      ∃ places, labelPlaces? (chooseStep duration width).major = some places ∧ places ≤ 324 := by
  obtain ⟨power, _, major, minor, _⟩ := chooseStep_atLeast above
  exact ⟨minor.pos (two_zpow_pos power), labelPlaces_of_pos (major.pos (two_zpow_pos power))⟩

theorem chooseStep_of_infinite (great : share duration width = infinite false) :
    (chooseStep duration width).minor = infinite false := by
  obtain ⟨factor, parts, member, chosen⟩ := exists_candidate duration width
  obtain ⟨isFinite, positive, partsPos, partsFew, _⟩ := candidate_bounds member
  obtain ⟨divisorFinite, _, divisorPos⟩ := parts_bounds partsPos partsFew
  have major : factor * Scalar.powerOfTen (Scalar.decade (share duration width)) =
      infinite false := by
    rw [great]
    exact mul_infinite_of_pos isFinite positive
  rw [chosen, major]
  exact infinite_div divisorFinite divisorPos

/-- A share that is no number leaves no step, which is labelled all the same. -/
theorem chooseStep_of_nan (none : share duration width = nan) :
    (chooseStep duration width).minor = nan ∧
      labelPlaces? (chooseStep duration width).major = some 0 := by
  obtain ⟨factor, parts, _, chosen⟩ := exists_candidate duration width
  have major : factor * Scalar.powerOfTen (Scalar.decade (share duration width)) = nan := by
    rw [none]
    cases factor <;> rfl
  rw [chosen, major]
  exact ⟨rfl, rfl⟩

/-- A share of less than three times the least number has a power of ten that is zero. -/
theorem chooseStep_of_few (nonneg : (0.0 : Binary64).le (share duration width) = true)
    (few : (share duration width).lt (leastTimes 3) = true) :
    chooseStep duration width = ⟨zero false, 2⟩ := by
  have small := few_cases nonneg few
  have parts : (chooseStep duration width).major = zero false ∧
      (chooseStep duration width).parts = 2 := by
    unfold chooseStep
    generalize share duration width = share at *
    simp only [List.mem_cons, List.not_mem_nil, or_false] at small
    rcases small with rfl | rfl | rfl | rfl <;> decide +kernel
  generalize chooseStep duration width = step at *
  obtain ⟨major, count⟩ := step
  obtain ⟨rfl, rfl⟩ := parts
  rfl

end Share

/-! ### Ticks -/

section Ticks

variable {start finish : Binary64} (startFinite : start.isFinite = true)
  (finishFinite : finish.isFinite = true)

/-- What times are divided by zero to. -/
theorem div_zero {number : Binary64} (isFinite : number.isFinite = true) :
    number / zero false = if number.value < 0 then infinite true
      else if 0 < number.value then infinite false else nan := by
  cases number with
  | nan => cases isFinite
  | infinite => cases isFinite
  | finite negative significand exponent canonical =>
    have quotient : finite negative significand exponent canonical / zero false =
        if significand = 0 then nan else infinite (negative ^^ false) := rfl
    rw [quotient]
    by_cases none : significand = 0
    · subst none
      simp [value, signed]
    · obtain ⟨positive, negated⟩ := @value_pos_iff negative _ _ canonical none
      cases negative <;> simp [positive, negated, none]

include startFinite finishFinite in
/-- With a step of zero the first tick is even, and is not missed. -/
theorem ticks_of_zero (nonpos : start.value ≤ 0) (less : start.value < finish.value) :
    firstTick (zero false) start ≤ lastTick (zero false) finish ∧
      firstTick (zero false) start % 2 = 0 := by
  have first : firstTick (zero false) start = if start.value < 0 then lowestTick else 0 := by
    rw [firstTick, div_zero startFinite, if_neg nonpos.not_gt]
    split <;> rfl
  have last : lastTick (zero false) finish = if finish.value < 0 then lowestTick
      else if 0 < finish.value then highestTick else 0 := by
    rw [lastTick, div_zero finishFinite]
    split
    · rfl
    · split <;> rfl
  rw [first, last]
  split_ifs <;> first | decide | (exfalso; linarith)

/-- A step of no finite length has at most the tick at zero. -/
theorem ticks_of_not_finite (isFinite : start.isFinite = true) {minor : Binary64}
    (notFinite : minor = infinite false ∨ minor = nan) :
    firstTick minor start = 0 ∧ lastTick minor start = 0 := by
  cases start with
  | nan => cases isFinite
  | infinite => cases isFinite
  | finite negative =>
    rcases notFinite with rfl | rfl
    · cases negative <;> exact ⟨rfl, rfl⟩
    · exact ⟨rfl, rfl⟩

variable {minor : Binary64} (minorFinite : minor.isFinite = true) (positive : 0 < minor.value)

include minorFinite positive

include startFinite in
/-- Whole multiples of the step that are not rounded stay on their side of the first tick. -/
theorem le_firstTick {whole : Int} (small : whole.natAbs < significandLimit)
    (after : whole * minor.value ≤ start.value) : whole ≤ firstTick minor start := by
  obtain ⟨bound, boundFinite, boundValue⟩ := exists_finite_int small
  have reached : bound.le (start / minor) = true := by
    refine (rounds_div startFinite minorFinite positive.ne').above bound boundFinite ?_
    rwa [boundValue, le_div_iff₀ positive]
  rcases le_cases reached with absurdity | above | ⟨_, quotientFinite⟩
  · rw [absurdity] at boundFinite
    cases boundFinite
  · rw [firstTick, above]
    change whole ≤ highestTick
    simp only [significandLimit, highestTick] at small ⊢
    omega
  · have values := (le_iff_value_le _ _ boundFinite quotientFinite).mp reached
    have ceiling : whole ≤ ⌈(start / minor).value⌉ := by
      exact_mod_cast (boundValue ▸ values).trans (Int.le_ceil _)
    have read : firstTick minor start =
        max lowestTick (min highestTick ⌈(start / minor).value⌉) :=
      congrArg (Extended.within lowestTick highestTick) (ceil_eq quotientFinite)
    simp only [significandLimit, lowestTick, highestTick] at small read
    omega

include finishFinite in
theorem lastTick_le {whole : Int} (small : whole.natAbs < significandLimit)
    (before : finish.value ≤ whole * minor.value) : lastTick minor finish ≤ whole := by
  obtain ⟨bound, boundFinite, boundValue⟩ := exists_finite_int small
  have reached : (finish / minor).le bound = true := by
    refine (rounds_div finishFinite minorFinite positive.ne').below bound boundFinite ?_
    rwa [boundValue, div_le_iff₀ positive]
  rcases le_cases reached with below | absurdity | ⟨quotientFinite, _⟩
  · rw [lastTick, below]
    change lowestTick ≤ whole
    simp only [significandLimit, lowestTick] at small ⊢
    omega
  · rw [absurdity] at boundFinite
    cases boundFinite
  · have values := (le_iff_value_le _ _ quotientFinite boundFinite).mp reached
    have floor : ⌊(finish / minor).value⌋ ≤ whole := by
      exact_mod_cast (Int.floor_le _).trans (boundValue ▸ values)
    have read : lastTick minor finish =
        max lowestTick (min highestTick ⌊(finish / minor).value⌋) :=
      congrArg (Extended.within lowestTick highestTick) (floor_eq quotientFinite)
    simp only [significandLimit, lowestTick, highestTick] at small read
    omega

include startFinite in
/-- The tick after the first does not lie before the window. -/
theorem start_le_second (lower : -2 ^ 51 ≤ firstTick minor start)
    (upper : firstTick minor start ≤ 2 ^ 51) :
    start.value ≤ (firstTick minor start + 1 : Int) * minor.value := by
  by_contra beyond
  have next := le_firstTick startFinite minorFinite positive
    (by simp only [significandLimit]; omega) (not_le.mp beyond).le
  omega

include finishFinite in
/-- The tick before the last does not lie behind the window. -/
theorem second_last_le_finish (lower : -2 ^ 51 ≤ lastTick minor finish)
    (upper : lastTick minor finish ≤ 2 ^ 51) :
    (lastTick minor finish - 1 : Int) * minor.value ≤ finish.value := by
  by_contra beyond
  have previous := lastTick_le finishFinite minorFinite positive
    (by simp only [significandLimit]; omega) (not_le.mp beyond).le
  omega

omit positive in
theorem rounded_tick {tick : Int} (small : tick.natAbs < significandLimit) :
    Rounded (ofInt tick * minor) (tick * minor.value) := by
  obtain ⟨isFinite, valued⟩ := ofInt_exact small
  rw [← valued]
  exact rounded_mul isFinite minorFinite

/-- Later ticks never stand before earlier ones. -/
theorem tick_le {tick later : Int} (small : tick.natAbs ≤ 2 ^ 64) (laterSmall : later.natAbs ≤ 2 ^ 64)
    (ordered : tick ≤ later) : (ofInt tick * minor).le (ofInt later * minor) = true := by
  have nonneg : (0.0 : Binary64).le minor = true := (zero_le_iff minorFinite).mpr positive.le
  have numbers : (ofInt tick).le (ofInt later) = true :=
    (rounded_ofInt tick).le (rounded_ofInt later) (by exact_mod_cast ordered)
  exact mul_le_mul nonneg numbers (rounds_mul (isFinite_ofInt small) minorFinite).number
    (rounds_mul (isFinite_ofInt laterSmall) minorFinite).number

section InOrder

variable {tick later : Int} (lower : -2 ^ 51 ≤ firstTick minor start)
  (upper : lastTick minor finish ≤ 2 ^ 51)

include startFinite finishFinite lower upper

/-- All ticks but the outermost lie in the window. -/
theorem tick_within (after : firstTick minor start < tick) (before : tick < lastTick minor finish) :
    start.le (ofInt tick * minor) = true ∧ (ofInt tick * minor).le finish = true := by
  have second := start_le_second startFinite minorFinite positive lower (by omega)
  have secondLast := second_last_le_finish finishFinite minorFinite positive (by omega) upper
  have rounds := (rounded_tick minorFinite
    (show tick.natAbs < significandLimit by simp only [significandLimit]; omega)).rounds
  have above : ((firstTick minor start + 1 : Int) : ℚ) ≤ tick := by exact_mod_cast after
  have below : (tick : ℚ) ≤ (lastTick minor finish - 1 : Int) := by
    exact_mod_cast (show tick ≤ lastTick minor finish - 1 by omega)
  exact ⟨rounds.above start startFinite
      (second.trans (mul_le_mul_of_nonneg_right above positive.le)),
    rounds.below finish finishFinite
      ((mul_le_mul_of_nonneg_right below positive.le).trans secondLast)⟩

/-- No two ticks stand at one time. -/
theorem tick_lt (after : firstTick minor start ≤ tick) (less : tick < later)
    (before : later ≤ lastTick minor finish) :
    (ofInt tick * minor).lt (ofInt later * minor) = true := by
  have second := start_le_second startFinite minorFinite positive lower (by omega)
  have secondLast := second_last_le_finish finishFinite minorFinite positive (by omega) upper
  have first := rounded_tick minorFinite
    (show tick.natAbs < significandLimit by simp only [significandLimit]; omega)
  have next := rounded_tick minorFinite
    (show later.natAbs < significandLimit by simp only [significandLimit]; omega)
  refine Rounded.lt_of_multiples minorFinite positive less (by omega) (by omega) first next ?_ ?_
  · -- Behind zero, the earlier tick lies between zero and the end of the window.
    intro nonneg
    have most := (abs_lt.mp (abs_value_lt finishFinite)).2
    have tickNonneg : (0 : ℚ) ≤ tick := by exact_mod_cast nonneg
    have below : (tick : ℚ) ≤ (lastTick minor finish - 1 : Int) := by
      exact_mod_cast (show tick ≤ lastTick minor finish - 1 by omega)
    have time : (tick : ℚ) * minor.value ≤ finish.value :=
      (mul_le_mul_of_nonneg_right below positive.le).trans secondLast
    rw [first.isFinite_iff, abs_of_nonneg (mul_nonneg tickNonneg positive.le)]
    exact time.trans_lt most
  · intro nonpos
    have least := (abs_lt.mp (abs_value_lt startFinite)).1
    have laterNonpos : (later : ℚ) ≤ 0 := by exact_mod_cast nonpos
    have above : ((firstTick minor start + 1 : Int) : ℚ) ≤ later := by
      exact_mod_cast (show firstTick minor start + 1 ≤ later by omega)
    have time : start.value ≤ later * minor.value :=
      second.trans (mul_le_mul_of_nonneg_right above positive.le)
    rw [next.isFinite_iff, abs_of_nonpos (mul_nonpos_of_nonpos_of_nonneg laterNonpos positive.le)]
    linarith

end InOrder

end Ticks

/-- The ticks of a window that reaches to zero take no more than nine bits more than the width. -/
theorem bounded_ticks {start finish width : Binary64} (startFinite : start.isFinite = true)
    (finishFinite : finish.isFinite = true) (nonpos : start.value ≤ 0) (nonneg : 0 ≤ finish.value)
    (lasting : (0.0 : Binary64).lt (finish - start) = true)
    (above : (share (finish - start) width).AtLeast (3 * 2 ^ (-1074 : Int)))
    (widthFinite : width.isFinite = true) (wide : (0.0 : Binary64).lt width = true) {bits : Nat}
    (positive : 1 ≤ bits) (most : bits ≤ 42) (narrow : width.value ≤ 2 ^ bits) :
    -2 ^ (bits + 9) ≤ firstTick (chooseStep (finish - start) width).minor start ∧
      lastTick (chooseStep (finish - start) width).minor finish ≤ 2 ^ (bits + 9) := by
  obtain ⟨power, least, _, minor, near⟩ := chooseStep_atLeast above
  have bound : 0 < (2 : Int) ^ (bits + 9) := by positivity
  have single (notFinite : (chooseStep (finish - start) width).minor = infinite false) :
      -2 ^ (bits + 9) ≤ firstTick (chooseStep (finish - start) width).minor start ∧
        lastTick (chooseStep (finish - start) width).minor finish ≤ 2 ^ (bits + 9) := by
    rw [(ticks_of_not_finite startFinite (.inl notFinite)).1,
      (ticks_of_not_finite finishFinite (.inl notFinite)).2]
    omega
  rcases above with great | ⟨shareFinite, _⟩
  · exact single (chooseStep_of_infinite great)
  rcases minor with notFinite | ⟨minorFinite, minorLeast⟩
  · exact single notFinite
  · have duration := duration_lt startFinite finishFinite lasting shareFinite widthFinite wide
      positive narrow (by omega) (near shareFinite)
    have factor : (0 : ℚ) ≤ ((2 ^ (bits + 9) : Int) : ℚ) := by positivity
    have limit : finish.value - start.value ≤
        ((2 ^ (bits + 9) : Int) : ℚ) * (chooseStep (finish - start) width).minor.value :=
      calc finish.value - start.value
          ≤ 2 ^ (bits + (power + 9)) := duration.le
        _ = ((2 ^ (bits + 9) : Int) : ℚ) * 2 ^ power := by
          push_cast
          rw [← zpow_natCast, ← zpow_add₀ (by norm_num)]
          congr 1
          push_cast
          ring
        _ ≤ _ := mul_le_mul_of_nonneg_left minorLeast factor
    have minorPos := (two_zpow_pos power).trans_le minorLeast
    have small : ((2 : Int) ^ (bits + 9)).natAbs < significandLimit := by
      have power : (2 : Int) ^ (bits + 9) ≤ 2 ^ 51 :=
        pow_le_pow_right₀ (by norm_num) (by omega)
      simp only [significandLimit]
      omega
    constructor
    · refine le_firstTick startFinite minorFinite minorPos (by rwa [Int.natAbs_neg]) ?_
      rw [Int.cast_neg, neg_mul]
      linarith
    · exact lastTick_le finishFinite minorFinite minorPos small (by linarith)

/-- Ticks that are in order. As long as whole numbers are not rounded, no two of them stand at one
time, and all but the outermost lie in the window. -/
structure InOrder (minor start finish : Binary64) : Prop where
  ordered : (ticks minor start finish).Pairwise fun tick later =>
    (ofInt tick * minor).le (ofInt later * minor) = true
  apart : -2 ^ 51 ≤ firstTick minor start → lastTick minor finish ≤ 2 ^ 51 →
    (ticks minor start finish).Pairwise fun tick later =>
      (ofInt tick * minor).lt (ofInt later * minor) = true
  within : -2 ^ 51 ≤ firstTick minor start → lastTick minor finish ≤ 2 ^ 51 →
    ∀ tick, firstTick minor start < tick → tick < lastTick minor finish →
      start.le (ofInt tick * minor) = true ∧ (ofInt tick * minor).le finish = true

theorem natAbs_tick {minor start finish : Binary64} {tick : Int}
    (member : tick ∈ ticks minor start finish) : tick.natAbs ≤ 2 ^ 64 := by
  obtain ⟨after, before⟩ := mem_ticks.mp member
  have least : lowestTick ≤ firstTick minor start := (Extended.within_bounds (by decide) (by decide) _).1
  have most : lastTick minor finish ≤ highestTick := (Extended.within_bounds (by decide) (by decide) _).2
  simp only [lowestTick, highestTick] at least most
  omega

theorem inOrder_of_minor {minor start finish : Binary64} (startFinite : start.isFinite = true)
    (finishFinite : finish.isFinite = true)
    (long : (0.0 : Binary64).lt minor = true ∨ minor = nan) : InOrder minor start finish := by
  have cases : minor.isFinite = true ∧ 0 < minor.value ∨ minor = infinite false ∨ minor = nan := by
    rcases long with positive | none
    · exact (pos_cases positive).symm.imp_right .inl
    · exact .inr (.inr none)
  have increasing : (ticks minor start finish).Pairwise (· < ·) := pairwise_ticksFrom _ _
  rcases cases with ⟨isFinite, positive⟩ | notFinite
  · refine ⟨?_, fun lower upper => ?_, fun lower upper tick after before => ?_⟩
    · exact increasing.imp_of_mem fun member laterMember less =>
        tick_le isFinite positive (natAbs_tick member) (natAbs_tick laterMember) less.le
    · exact increasing.imp_of_mem fun member laterMember less =>
        tick_lt startFinite finishFinite isFinite positive lower upper (mem_ticks.mp member).1 less
          (mem_ticks.mp laterMember).2
    · exact tick_within startFinite finishFinite isFinite positive lower upper after before
  · -- There is the tick at zero, and no other.
    obtain ⟨first, _⟩ := ticks_of_not_finite startFinite notFinite
    obtain ⟨_, last⟩ := ticks_of_not_finite finishFinite notFinite
    have only : ticks minor start finish = [0] := by
      rw [ticks, first, last]
      rfl
    refine ⟨?_, fun _ _ => ?_, fun _ _ tick after before => ?_⟩
    · rw [only]
      exact List.pairwise_singleton _ _
    · rw [only]
      exact List.pairwise_singleton _ _
    · omega

end TraceChart.Ruler
