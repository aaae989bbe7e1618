import TraceChart.Proofs.Chart.Ticks

/-!
# How close ticks stand

A major step is as long as the share of a label or longer, up to two and a half times as long. So
labels keep their distance from each other, and since a major step is cut in five parts at most, a
window has few ticks, wherever it begins and however long it lasts.
-/

namespace TraceChart.Ruler

open Exact

/-! ### The length of a step -/

section Step

variable {duration : Rat} (positive : 0 < duration) (width : Rat)

theorem share_eq : share duration width = duration / max (width / 80) 2 := by
  have aim : (spacing : ℚ) = 80 := by norm_num [spacing]
  have two : (2.0 : ℚ) = 2 := by norm_num
  rw [share, larger_eq, aim, two]

include positive

/-- One of the candidates is long enough, since the share is less than ten times the power of ten
below it. So the step is the first that is. -/
theorem exists_long_candidate :
    let share := share duration width
    let unit := (10 : ℚ) ^ Int.log 10 share
    ∃ candidate : ℚ × Nat,
      candidates.find? (fun candidate => share ≤ candidate.1 * unit) = some candidate ∧
        chooseStep duration width = ⟨candidate.1 * unit, candidate.2⟩ := by
  intro share unit
  have last : ((10.0, 2) : ℚ × Nat) ∈ candidates := by simp [candidates]
  have ten : (10.0 : ℚ) = 10 := by norm_num
  have long : share ≤ 10.0 * unit := by
    rw [ten]
    exact (log_bounds (share_pos positive width)).2.le
  have found : (candidates.find? fun candidate : ℚ × Nat =>
      decide (share ≤ candidate.1 * unit)).isSome := by
    rw [List.find?_isSome]
    exact ⟨_, last, decide_eq_true long⟩
  obtain ⟨candidate, first⟩ := Option.isSome_iff_exists.mp found
  refine ⟨candidate, first, ?_⟩
  unfold chooseStep
  dsimp only
  rw [powerOfTen_decade (share_pos positive width)]
  simp only [le_eq]
  rw [first]

/-- Ten times a power of ten is one times the next. -/
theorem exists_major_eq : ∃ factor ∈ ([1, 2, 5] : List ℚ), ∃ power : Int,
    (chooseStep duration width).major = factor * 10 ^ power := by
  rcases chooseStep_cases positive width with ⟨_, chosen⟩ | ⟨_, _, chosen⟩ | ⟨_, _, chosen⟩ |
    ⟨_, _, chosen⟩
  · exact ⟨1, by simp, _, by rw [chosen, one_mul]⟩
  · exact ⟨2, by simp, _, by rw [chosen]⟩
  · exact ⟨5, by simp, _, by rw [chosen]⟩
  · refine ⟨1, by simp, Int.log 10 (share duration width) + 1, ?_⟩
    rw [chosen, one_mul, zpow_add_one₀ (by norm_num), mul_comm]

theorem major_bounds :
    share duration width ≤ (chooseStep duration width).major ∧
      (chooseStep duration width).major ≤ 5 / 2 * share duration width ∧
      (chooseStep duration width).parts ≤ 5 := by
  have unitPos : (0 : ℚ) < 10 ^ Int.log 10 (share duration width) := zpow_pos (by norm_num) _
  rcases chooseStep_cases positive width with ⟨_, chosen⟩ | ⟨_, _, chosen⟩ | ⟨_, _, chosen⟩ |
    ⟨_, _, chosen⟩ <;>
  · rw [chosen]
    exact ⟨by linarith, by linarith, by norm_num⟩

/-- The window is not longer than so many minor steps. -/
theorem duration_div_minor_le :
    duration / (chooseStep duration width).minor ≤ 5 * max (width / 80) 2 := by
  obtain ⟨long, _, parts⟩ := major_bounds positive width
  have parts : ((chooseStep duration width).parts : ℚ) ≤ 5 := by exact_mod_cast parts
  have targets : (0 : ℚ) < max (width / 80) 2 := lt_max_of_lt_right two_pos
  have majorPos := chooseStep_pos positive width
  rw [share_eq, div_le_iff₀ targets] at long
  rw [Step.minor_eq, div_div_eq_mul_div, div_le_iff₀ majorPos]
  calc duration * (chooseStep duration width).parts
      ≤ duration * 5 := mul_le_mul_of_nonneg_left parts positive.le
    _ ≤ (chooseStep duration width).major * max (width / 80) 2 * 5 :=
      mul_le_mul_of_nonneg_right long (by norm_num)
    _ = 5 * max (width / 80) 2 * (chooseStep duration width).major := by ring

/-- Major ticks are at least so far apart on an area of this width. -/
theorem le_major_mul_scale (wide : 0 < width) :
    min 80 (width / 2) ≤ (chooseStep duration width).major * (width / duration) := by
  have targets : (0 : ℚ) < max (width / 80) 2 := lt_max_of_lt_right two_pos
  have long := (major_bounds positive width).1
  have scaled := mul_le_mul_of_nonneg_right long (div_pos wide positive).le
  refine le_trans ?_ scaled
  have spread :
      duration / max (width / 80) 2 * (width / duration) = width / max (width / 80) 2 := by
    field_simp
  rw [share_eq, spread, le_div_iff₀ targets]
  rcases le_total (width / 80) 2 with narrow | broad
  · rw [max_eq_right narrow, min_eq_right (by linarith)]
    linarith
  · rw [max_eq_left broad, min_eq_left (by linarith)]
    linarith

end Step

/-! ### The number of ticks -/

theorem length_ticksFrom (tick : Int) (count : Nat) : (ticksFrom tick count).length = count := by
  induction count generalizing tick with
  | zero => rfl
  | succ count ih => rw [ticksFrom, List.length_cons, ih]

/-- A window has at most one tick more than it has whole minor steps, also where words have no room
for the indices of its ticks. -/
theorem length_ticks_le {minor start finish : Rat} (positive : 0 < minor)
    (ordered : start ≤ finish) :
    ((ticks minor start finish).length : ℚ) ≤ (finish - start) / minor + 1 := by
  have first : firstTick minor start =
      max lowestTick (min highestTick (start / minor).ceil) := rfl
  have last : lastTick minor finish =
      max lowestTick (min highestTick (finish / minor).floor) := rfl
  have room : 0 ≤ (finish - start) / minor := div_nonneg (sub_nonneg.mpr ordered) positive.le
  rw [ticks, length_ticksFrom, first, last]
  have ceiling : start / minor ≤ ((start / minor).ceil : ℚ) := Rat.ceil_le_iff.mp le_rfl
  have floor : ((finish / minor).floor : ℚ) ≤ finish / minor := Rat.le_floor_iff.mp le_rfl
  have length : (finish - start) / minor = finish / minor - start / minor := sub_div _ _ _
  generalize (start / minor).ceil = low at *
  generalize (finish / minor).floor = high at *
  -- To bring both ends into the range of words never moves them apart.
  rcases le_total high low with crossed | apart
  · have count : (max lowestTick (min highestTick high) + 1 -
        max lowestTick (min highestTick low)).toNat ≤ 1 := by omega
    have count : (((max lowestTick (min highestTick high) + 1 -
        max lowestTick (min highestTick low)).toNat : Nat) : ℚ) ≤ 1 := by exact_mod_cast count
    linarith
  · have count : ((max lowestTick (min highestTick high) + 1 -
        max lowestTick (min highestTick low)).toNat : Int) ≤ high - low + 1 := by omega
    have count : (((max lowestTick (min highestTick high) + 1 -
        max lowestTick (min highestTick low)).toNat : Nat) : ℚ) ≤ high - low + 1 := by
      exact_mod_cast count
    linarith

/-! ### Where ticks and labels stand -/

section Marks

variable (area : Rect Rat) (start scale gridHeight : Rat) (step : Step Rat)

/-- Where a tick stands, and its label if it is a multiple of the major step. -/
def tickPlace (tick : Int) : Rat × Option String :=
  (area.x + (tick * step.minor - start) * scale,
    if tick % step.parts = 0 then (label (tick * step.minor) step.major).toOption else none)

theorem tickCommands_eq_place (positive : 0 < step.major) (tick : Int) :
    tickCommands area start scale gridHeight step tick =
      .ok (tickMark area gridHeight (tickPlace area start scale step tick).1
        (tickPlace area start scale step tick).2) := by
  obtain ⟨block, drawn⟩ := exists_tickCommands area start scale gridHeight
    (fun time => label_exact time positive) tick
  obtain ⟨shown, same, labelled, written⟩ := tickCommands_eq_mark area start scale gridHeight drawn
  have label : (tickPlace area start scale step tick).2 = shown := by
    unfold tickPlace
    dsimp only
    cases shown with
    | none =>
      rw [if_neg]
      exact fun major => absurd (labelled.mpr major) (by simp)
    | some text =>
      rw [if_pos (labelled.mp rfl)]
      exact congrArg Except.toOption (written text rfl)
  rw [drawn, same, label]
  rfl

/-- Labelled ticks are whole major steps apart. -/
theorem labelled_apart {step : Step Rat} (parts : 0 < step.parts) (positive : 0 < step.major)
    (scalePos : 0 < scale) {tick later : Int} (less : tick < later)
    (labelled : (tickPlace area start scale step tick).2.isSome = true)
    (labelledLater : (tickPlace area start scale step later).2.isSome = true) :
    step.major * scale ≤
      (tickPlace area start scale step later).1 - (tickPlace area start scale step tick).1 := by
  have multiple {tick : Int} (labelled : (tickPlace area start scale step tick).2.isSome = true) :
      (step.parts : Int) ∣ tick := by
    apply Int.dvd_of_emod_eq_zero
    by_contra minor
    rw [tickPlace, if_neg minor] at labelled
    cases labelled
  have partsPos : (0 : ℚ) < step.parts := by exact_mod_cast parts
  have minorPos : 0 < step.minor := by
    rw [Step.minor_eq]
    exact div_pos positive partsPos
  -- Two different multiples of a number are at least that number apart.
  have apart : (step.parts : Int) ≤ later - tick :=
    Int.le_of_dvd (sub_pos.mpr less) (dvd_sub (multiple labelledLater) (multiple labelled))
  have apart : (step.parts : ℚ) ≤ later - tick := by exact_mod_cast apart
  calc step.major * scale
      = step.parts * step.minor * scale := by rw [Step.minor_eq, mul_div_cancel₀ _ partsPos.ne']
    _ ≤ (later - tick) * step.minor * scale :=
      mul_le_mul_of_nonneg_right (mul_le_mul_of_nonneg_right apart minorPos.le) scalePos.le
    _ = _ := by
      unfold tickPlace
      ring

end Marks

/-- The ruler over an area: a mark at the place of each tick. -/
theorem commands_eq_places {area : Rect Rat} {start finish : Rat} (gridHeight : Rat)
    (wide : 0 < area.width) (lasting : start < finish) :
    let step := stepOf area start finish
    let places := (ticks step.minor start finish).map
      (tickPlace area start (area.width / (finish - start)) step)
    commands area start finish gridHeight = .ok (groundCommand area ::
      (places.map fun place => tickMark area gridHeight place.1 place.2).flatten) := by
  intro step places
  have positive : 0 < finish - start := sub_pos.mpr lasting
  have majorPos : 0 < step.major := chooseStep_pos positive area.width
  obtain ⟨blocks, drawn, visited⟩ := exists_drawn gridHeight (by simpa [zero_eq] using positive)
    (by simpa [zero_eq] using wide) fun time => label_exact time majorPos
  -- What is drawn at a tick is the mark at its place.
  have each : (ticks step.minor start finish).map (fun tick =>
      tickMark area gridHeight (tickPlace area start (area.width / (finish - start)) step tick).1
        (tickPlace area start (area.width / (finish - start)) step tick).2) = blocks := by
    rw [← List.forall₂_eq_eq_eq, List.forall₂_map_left_iff]
    refine visited.imp fun tick block made => ?_
    exact Except.ok.inj ((tickCommands_eq_place _ _ _ _ _ majorPos tick).symm.trans made)
  rw [drawn, List.map_map, ← each]
  rfl

/-- The major step is the first of the candidates that is not shorter than the share of a label. It
is one, two or five times a power of ten, and at most two and a half times the share. So whatever
the window, labels stand at least 80 pixels or half of the width apart, and the number of ticks is
bounded by the width alone. -/
theorem labels_apart {duration width : Rat} (positive : 0 < duration) (wide : 0 < width) :
    let raw := duration / max (width / 80) 2
    let unit := (10 : ℚ) ^ Int.log 10 raw
    let step := chooseStep duration width
    (∃ candidate : ℚ × Nat,
      candidates.find? (fun candidate => raw ≤ candidate.1 * unit) = some candidate ∧
        step = ⟨candidate.1 * unit, candidate.2⟩) ∧
    (∃ factor ∈ ([1, 2, 5] : List ℚ), ∃ power : Int, step.major = factor * 10 ^ power) ∧
    raw ≤ step.major ∧ step.major ≤ 5 / 2 * raw ∧
    ∀ (area : Rect Rat) (start gridHeight : Rat), area.width = width →
      ∃ marks : List (ℚ × Option String),
        commands area start (start + duration) gridHeight = .ok (groundCommand area ::
          (marks.map fun mark => tickMark area gridHeight mark.1 mark.2).flatten) ∧
        (marks.length : ℚ) ≤ 5 * max (width / 80) 2 + 1 ∧
        (marks.filter fun mark => mark.2.isSome).Pairwise fun mark later =>
          min 80 (width / 2) ≤ later.1 - mark.1 := by
  intro raw unit step
  obtain ⟨long, short, _⟩ := major_bounds positive width
  have chosen := exists_long_candidate positive width
  rw [share_eq] at long short chosen
  refine ⟨chosen, exists_major_eq positive width, long, short, fun area start gridHeight same => ?_⟩
  subst same
  have length : start + duration - start = duration := add_sub_cancel_left start duration
  have lasting : start < start + duration := lt_add_of_pos_right start positive
  have stepIs : stepOf area start (start + duration) = step := by rw [stepOf, length]
  have drawn := commands_eq_places gridHeight wide lasting
  simp only [stepIs, length] at drawn
  refine ⟨_, drawn, ?_, ?_⟩
  · have few := length_ticks_le (minor_bounds positive area.width).1 lasting.le
    rw [length] at few
    rw [List.length_map]
    exact few.trans (add_le_add_left (duration_div_minor_le positive area.width) 1)
  · have parts := parts_pos positive area.width
    have majorPos := chooseStep_pos positive area.width
    have apart := le_major_mul_scale positive area.width wide
    -- The ticks are visited in order, so of two labelled ones the later stands a step further.
    rw [List.pairwise_filter, List.pairwise_map]
    refine (pairwise_ticksFrom _ _).imp fun less labelled labelledLater => apart.trans ?_
    exact labelled_apart area start _ parts majorPos (div_pos wide positive) less labelled
      labelledLater

/-- Forty seconds on 800 pixels have a label every five seconds and a tick every second. -/
theorem labels_apart_of_forty_seconds :
    let area : Rect Rat := ⟨160, 0, 800, 24⟩
    (0 : ℚ) < 40 ∧ 0 < area.width ∧ (chooseStep 40 area.width).major = 5 ∧
      (chooseStep 40 area.width).parts = 5 ∧ ∃ marks : List (ℚ × Option String),
        commands area (-3) 37 48 = .ok (groundCommand area ::
          (marks.map fun mark => tickMark area 48 mark.1 mark.2).flatten) ∧
        marks.length ≤ 51 ∧
        (marks.filter fun mark => mark.2.isSome).Pairwise fun mark later =>
          80 ≤ later.1 - mark.1 := by
  intro area
  have positive : (0 : ℚ) < 40 := by norm_num
  have wide : (0 : ℚ) < 800 := by norm_num
  obtain ⟨_, _, _, _, drawn⟩ := labels_apart positive wide
  obtain ⟨marks, commands, few, apart⟩ := drawn area (-3) 48 rfl
  have finish : (-3 + 40 : ℚ) = 37 := by norm_num
  have most : (5 * max (800 / 80) 2 + 1 : ℚ) = 51 := by norm_num
  have least : (min 80 (800 / 2) : ℚ) = 80 := by norm_num
  rw [finish] at commands
  rw [most] at few
  rw [least] at apart
  exact ⟨positive, wide, by decide +kernel, by decide +kernel, marks, commands,
    by exact_mod_cast few, apart⟩

end TraceChart.Ruler
