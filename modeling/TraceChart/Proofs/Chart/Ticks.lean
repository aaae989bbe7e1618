import TraceChart.Proofs.Chart.Drawing

/-!
# Ticks of exact rulers

In exact arithmetic a minor step is never longer than the share of a label, which is at most half of
the window, so every window has ticks. They are the multiples of the minor step that lie in the
window, each drawn once and in order of time. The multiples of the major step among them have labels
and lines down the chart.
-/

namespace TraceChart.Ruler

open Exact

/-! ### The step -/

section Step

variable {duration : Rat} (positive : 0 < duration) (width : Rat)

include positive in
/-- However narrow the area, a window is shared by two labels. -/
theorem share_le_half : share duration width ≤ duration / 2 := by
  rw [share, larger_eq]
  apply div_le_div_of_nonneg_left positive.le (by norm_num)
  exact (by norm_num : (2 : ℚ) ≤ 2.0).trans (le_max_right _ _)

include positive in
/-- The candidates are tried in order. The last one is taken in any case. -/
theorem chooseStep_eq :
    let share := share duration width
    let unit := (10 : ℚ) ^ Int.log 10 share
    chooseStep duration width =
      if share ≤ unit then ⟨unit, 2⟩ else if share ≤ 2 * unit then ⟨2 * unit, 2⟩
        else if share ≤ 5 * unit then ⟨5 * unit, 5⟩ else ⟨10 * unit, 2⟩ := by
  have power := powerOfTen_decade (share_pos positive width)
  unfold chooseStep
  dsimp only
  rw [power]
  generalize share duration width = share
  generalize (10 : ℚ) ^ Int.log 10 share = unit
  have one : (1.0 : ℚ) = 1 := by norm_num
  have two : (2.0 : ℚ) = 2 := by norm_num
  have five : (5.0 : ℚ) = 5 := by norm_num
  have ten : (10.0 : ℚ) = 10 := by norm_num
  simp only [candidates, List.find?_cons, le_eq, one, two, five, ten, one_mul]
  by_cases first : share ≤ unit
  · simp [first]
  by_cases second : share ≤ 2 * unit
  · simp [first, second]
  by_cases third : share ≤ 5 * unit
  · simp [first, second, third]
  by_cases last : share ≤ 10 * unit <;> simp [first, second, third, last]

include positive in
/-- The step is the least of one, two, five and ten times a power of ten that is not less than the
share of a label, where the share is at least that power and less than ten times it. -/
theorem chooseStep_cases :
    let share := share duration width
    let unit := (10 : ℚ) ^ Int.log 10 share
    (share = unit ∧ chooseStep duration width = ⟨unit, 2⟩) ∨
      (unit < share ∧ share ≤ 2 * unit ∧ chooseStep duration width = ⟨2 * unit, 2⟩) ∨
      (2 * unit < share ∧ share ≤ 5 * unit ∧ chooseStep duration width = ⟨5 * unit, 5⟩) ∨
      (5 * unit < share ∧ share < 10 * unit ∧ chooseStep duration width = ⟨10 * unit, 2⟩) := by
  intro share unit
  obtain ⟨least, most⟩ : unit ≤ share ∧ share < 10 * unit := log_bounds (share_pos positive width)
  rw [chooseStep_eq positive width]
  split_ifs with first second third
  · exact .inl ⟨le_antisymm first least, rfl⟩
  · exact .inr (.inl ⟨not_le.mp first, second, rfl⟩)
  · exact .inr (.inr (.inl ⟨not_le.mp second, third, rfl⟩))
  · exact .inr (.inr (.inr ⟨not_le.mp third, most, rfl⟩))

theorem Step.minor_eq (step : Step Rat) : step.minor = step.major / step.parts := by
  rw [Step.minor, ← Int.cast_natCast step.parts]
  rfl

include positive in
/-- A minor step is longer than nothing and at most the share of a label. -/
theorem minor_bounds : 0 < (chooseStep duration width).minor ∧
    (chooseStep duration width).minor ≤ share duration width := by
  have unitPos : (0 : ℚ) < 10 ^ Int.log 10 (share duration width) := zpow_pos (by norm_num) _
  rw [Step.minor_eq]
  rcases chooseStep_cases positive width with ⟨_, chosen⟩ | ⟨_, _, chosen⟩ | ⟨_, _, chosen⟩ |
    ⟨_, _, chosen⟩ <;>
  · rw [chosen]
    constructor
    · positivity
    · push_cast
      linarith

include positive in
theorem parts_pos : 0 < (chooseStep duration width).parts := by
  rcases chooseStep_cases positive width with ⟨_, chosen⟩ | ⟨_, _, chosen⟩ | ⟨_, _, chosen⟩ |
    ⟨_, _, chosen⟩ <;>
  · rw [chosen]
    exact Nat.succ_pos _

end Step

/-! ### The multiples in a window -/

section Multiples

variable {minor start finish : Rat} (positive : 0 < minor)

include positive in
theorem ceil_le_iff (tick : Int) : (start / minor).ceil ≤ tick ↔ start ≤ tick * minor := by
  rw [Rat.ceil_le_iff, div_le_iff₀ positive]

include positive in
theorem le_floor_iff (tick : Int) : tick ≤ (finish / minor).floor ↔ tick * minor ≤ finish := by
  rw [Rat.le_floor_iff, le_div_iff₀ positive]

include positive in
/-- A window that is not shorter than a minor step holds a multiple of it. -/
theorem ceil_le_floor (room : minor ≤ finish - start) :
    (start / minor).ceil ≤ (finish / minor).floor := by
  rw [le_floor_iff positive]
  -- The multiple before the first one is not in the window.
  have before : ¬ start ≤ ((start / minor).ceil - 1 : Int) * minor := by
    rw [← ceil_le_iff positive]
    omega
  push_cast at before
  linarith

/-- The ticks of a window are all multiples of the minor step in it, provided that words have room
for their indices. -/
theorem mem_ticks_iff (positive : 0 < minor) (room : minor ≤ finish - start)
    (indexed : ∀ tick : Int, start ≤ tick * minor → tick * minor ≤ finish →
      lowestTick ≤ tick ∧ tick ≤ highestTick) (tick : Int) :
    tick ∈ ticks minor start finish ↔ start ≤ tick * minor ∧ tick * minor ≤ finish := by
  have ordered := ceil_le_floor positive room
  have firstIndexed := indexed (start / minor).ceil ((ceil_le_iff positive _).mp le_rfl)
    ((le_floor_iff positive _).mp ordered)
  have lastIndexed := indexed (finish / minor).floor ((ceil_le_iff positive _).mp ordered)
    ((le_floor_iff positive _).mp le_rfl)
  -- Hence neither end of the window is brought into the range of words.
  have first : firstTick minor start = (start / minor).ceil := by
    change max lowestTick (min highestTick _) = _
    rw [min_eq_right firstIndexed.2, max_eq_right firstIndexed.1]
  have last : lastTick minor finish = (finish / minor).floor := by
    change max lowestTick (min highestTick _) = _
    rw [min_eq_right lastIndexed.2, max_eq_right lastIndexed.1]
  rw [mem_ticks, first, last, ceil_le_iff positive, le_floor_iff positive]

include positive in
/-- Every so many minor ticks there is a major one. -/
theorem emod_parts_iff {major : Rat} {parts : Nat} (cut : major = parts * minor) (tick : Int) :
    tick % (parts : Int) = 0 ↔ ∃ whole : Int, (tick * minor : ℚ) = whole * major := by
  rw [← Int.dvd_iff_emod_eq_zero]
  constructor
  · rintro ⟨whole, rfl⟩
    refine ⟨whole, ?_⟩
    rw [cut]
    push_cast
    ring
  · rintro ⟨whole, same⟩
    refine ⟨whole, ?_⟩
    rw [cut, ← mul_assoc, mul_left_inj' positive.ne', mul_comm] at same
    exact_mod_cast same

end Multiples

/-! ### Exact rulers -/

/-- Where a time stands on the ruler over an area. -/
def position {α : Type} [Scalar α] (area : Rect α) (start finish time : α) : α :=
  area.x + (time - start) * (area.width / (finish - start))

variable {area : Rect Rat} {start finish : Rat}

/-- In exact arithmetic the ticks of a ruler are the multiples of its minor step in the window, each
drawn once, in order of time and from left to right within the area. A tick has a label if and only
if it is a multiple of the major step. -/
theorem ticks_of_window (gridHeight : Rat) (wide : 0 < area.width) (lasting : start < finish)
    (indexed : ∀ tick : Int, start ≤ tick * (stepOf area start finish).minor →
      tick * (stepOf area start finish).minor ≤ finish →
        lowestTick ≤ tick ∧ tick ≤ highestTick) :
    let step := stepOf area start finish
    0 < step.minor ∧ step.minor = step.major / step.parts ∧ ∃ times blocks,
      commands area start finish gridHeight = .ok (groundCommand area :: blocks.flatten) ∧
      times.Pairwise (· < ·) ∧
      (∀ time, time ∈ times ↔
        start ≤ time ∧ time ≤ finish ∧ ∃ whole : Int, time = whole * step.minor) ∧
      (times.map (position area start finish)).Pairwise (· < ·) ∧
      (∀ time ∈ times, area.x ≤ position area start finish time ∧
        position area start finish time ≤ area.x + area.width) ∧
      List.Forall₂ (fun time block => ∃ shown,
        block = tickMark area gridHeight (position area start finish time) shown ∧
        (shown.isSome = true ↔ ∃ whole : Int, time = whole * step.major) ∧
        ∀ text ∈ shown, label time step.major = .ok text) times blocks := by
  intro step
  have positive : 0 < finish - start := sub_pos.mpr lasting
  obtain ⟨minorPos, short⟩ := minor_bounds positive area.width
  have room : step.minor ≤ finish - start := by
    have half := share_le_half positive area.width
    have least : step.minor ≤ (finish - start) / 2 := short.trans half
    linarith
  have cut : step.major = step.parts * step.minor := by
    have parts : (0 : ℚ) < step.parts := by exact_mod_cast parts_pos positive area.width
    rw [Step.minor_eq, mul_div_cancel₀ _ parts.ne']
  have scalePos : 0 < area.width / (finish - start) := div_pos wide positive
  obtain ⟨blocks, drawn, visited⟩ := exists_drawn gridHeight (by simpa [zero_eq] using positive)
    (by simpa [zero_eq] using wide) fun time => label_exact time (chooseStep_pos positive area.width)
  have all := mem_ticks_iff minorPos room indexed
  -- Each tick is drawn at its own multiple of the minor step.
  let times := (ticks step.minor start finish).map fun tick : Int => (tick : ℚ) * step.minor
  have inOrder : times.Pairwise (· < ·) := by
    rw [List.pairwise_map]
    refine (pairwise_ticksFrom _ _).imp fun less => ?_
    exact mul_lt_mul_of_pos_right (by exact_mod_cast less) minorPos
  have member (time : Rat) : time ∈ times ↔
      start ≤ time ∧ time ≤ finish ∧ ∃ whole : Int, time = whole * step.minor := by
    rw [List.mem_map]
    constructor
    · rintro ⟨tick, found, rfl⟩
      obtain ⟨after, before⟩ := (all tick).mp found
      exact ⟨after, before, tick, rfl⟩
    · rintro ⟨after, before, tick, rfl⟩
      exact ⟨tick, (all tick).mpr ⟨after, before⟩, rfl⟩
  refine ⟨minorPos, Step.minor_eq step, times, blocks, drawn, inOrder, member, ?_, fun time listed => ?_, ?_⟩
  · rw [List.pairwise_map]
    refine inOrder.imp fun less => ?_
    exact add_lt_add_right (mul_lt_mul_of_pos_right (sub_lt_sub_right less start) scalePos) area.x
  · obtain ⟨after, before, _⟩ := (member time).mp listed
    constructor
    · exact le_add_of_nonneg_right (mul_nonneg (sub_nonneg.mpr after) scalePos.le)
    · have most := mul_le_mul_of_nonneg_right (sub_le_sub_right before start) scalePos.le
      rw [mul_div_cancel₀ _ positive.ne'] at most
      exact add_le_add_right most area.x
  · rw [List.forall₂_map_left_iff]
    refine visited.imp fun tick block made => ?_
    obtain ⟨shown, same, labelled, written⟩ := tickCommands_eq_mark area start _ gridHeight made
    exact ⟨shown, same, labelled.trans (emod_parts_iff minorPos cut tick), written⟩

/-- A window that begins before zero, with a label for every second tick. -/
theorem ticks_of_one_second :
    let area : Rect Rat := ⟨160, 0, 400, 24⟩
    ∃ times blocks,
      commands area (-3 / 10) (7 / 10) 48 = .ok (groundCommand area :: blocks.flatten) ∧
      times.Pairwise (· < ·) ∧ -3 / 10 ∈ times ∧ 7 / 10 ∈ times ∧ 1 / 4 ∉ times ∧
      List.Forall₂ (fun time block => ∃ shown,
        block = tickMark area 48 (position area (-3 / 10) (7 / 10) time) shown ∧
        (shown.isSome = true ↔ ∃ whole : Int, time = whole * (1 / 5))) times blocks := by
  intro area
  have major : (stepOf area (-3 / 10) (7 / 10)).major = 1 / 5 := by decide +kernel
  have minor : (stepOf area (-3 / 10) (7 / 10)).minor = 1 / 10 := by decide +kernel
  obtain ⟨_, _, times, blocks, drawn, inOrder, member, _, _, shown⟩ :=
    @ticks_of_window area (-3 / 10) (7 / 10) 48 (by norm_num) (by norm_num) (by
      rw [minor]
      intro tick after before
      have least : (-3 : ℚ) ≤ tick := by linarith
      have most : (tick : ℚ) ≤ 7 := by linarith
      have least : -3 ≤ tick := by exact_mod_cast least
      have most : tick ≤ 7 := by exact_mod_cast most
      simp only [lowestTick, highestTick]
      omega)
  rw [minor] at member
  rw [major] at shown
  refine ⟨times, blocks, drawn, inOrder, ?_, ?_, ?_, ?_⟩
  · exact (member _).mpr ⟨le_rfl, by norm_num, -3, by norm_num⟩
  · exact (member _).mpr ⟨by norm_num, le_rfl, 7, by norm_num⟩
  · intro listed
    obtain ⟨_, _, whole, same⟩ := (member _).mp listed
    have doubled : (5 : ℚ) = 2 * whole := by linarith
    have integral : (5 : Int) = 2 * whole := by exact_mod_cast doubled
    omega
  · refine shown.imp fun time block marked => ?_
    obtain ⟨text, same, labelled, _⟩ := marked
    exact ⟨text, same, labelled⟩

end TraceChart.Ruler
