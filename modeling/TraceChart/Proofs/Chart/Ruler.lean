import TraceChart.Proofs.Chart.Blocks
import TraceChart.Proofs.Chart.Steps
import TraceChart.Proofs.Chart.Window

/-!
# Drawings of every width

Whatever width is asked for, rows are drawn; only the ruler can fail. It does exactly where the
share of a label in the window is less than three times the least number, since the step is then
zero and its labels would need endlessly many decimal places. Everywhere else the ruler has a block
for each of its ticks, which are in order.
-/

namespace TraceChart

open Binary64

namespace Ruler

variable {area : Rect Binary64} {start finish : Binary64}

/-- A ruler that is drawn: a block for each tick, labels with few decimal places, and ticks in
order, at a distance that is not a number only if window and width are infinite. Where the window
reaches to zero, the ticks take no more than nine bits more than the width, so that up to `2 ^ 42`
pixels they are apart. -/
structure Regular (area : Rect Binary64) (start finish gridHeight : Binary64) : Prop where
  drawn : ∃ blocks, DrawnAs area start finish gridHeight blocks
  places : ∃ places, labelPlaces? (stepOf area start finish).major = some places ∧ places ≤ 324
  minor_pos : (0.0 : Binary64).lt (stepOf area start finish).minor = true ∨
    (stepOf area start finish).minor = nan ∧ finish - start = infinite false ∧
      area.width = infinite false
  inOrder : InOrder (stepOf area start finish).minor start finish
  bounded : 0 ≤ finish.value → area.width.isFinite = true → ∀ bits : Nat, 1 ≤ bits → bits ≤ 42 →
    area.width.value ≤ 2 ^ bits →
      -2 ^ (bits + 9) ≤ firstTick (stepOf area start finish).minor start ∧
        lastTick (stepOf area start finish).minor finish ≤ 2 ^ (bits + 9)

/-- A step of zero has no labels, so that its even ticks cannot be drawn. -/
theorem tickCommands_of_zero (area : Rect Binary64) (start scale gridHeight : Binary64) {tick : Int}
    (even : tick % 2 = 0) :
    tickCommands area start scale gridHeight ⟨zero false, 2⟩ tick = .error .tooManyPlaces :=
  if_pos even

/-- A share that is not too small is at least three times the least number. -/
theorem atLeast_of_not_few {share : Binary64} (nonneg : (0.0 : Binary64).le share = true)
    (large : share.lt (leastTimes 3) = false) : share.AtLeast (3 * 2 ^ (-1074 : Int)) := by
  obtain ⟨threeFinite, threeValue⟩ := leastTimes_eq (show 3 < significandLimit by decide)
  have ordered : (leastTimes 3).le share = true :=
    Scalar.le_of_not_lt (α := Binary64) (OrderedScalar.number_right nonneg) (by decide) large
  have above := AtLeast.of_le threeFinite ordered
  rwa [threeValue, Nat.cast_ofNat] at above

/-- A window that has a length ends after it begins. -/
theorem value_lt_of_lasting (startFinite : start.isFinite = true)
    (finishFinite : finish.isFinite = true)
    (lasting : (0.0 : Binary64).lt (finish - start) = true) : start.value < finish.value := by
  by_contra reversed
  have below := (rounds_sub finishFinite startFinite).below 0.0 rfl (by rw [value_zero]; linarith)
  rw [show (finish - start).le 0.0 = false from
    (OrderedScalar.lt_iff (α := Binary64).mp lasting).2.2] at below
  cases below

section Window

variable (lasting : (0.0 : Binary64).lt (finish - start) = true)
  (wide : (0.0 : Binary64).lt area.width = true) (gridHeight : Binary64)
  (startFinite : start.isFinite = true) (finishFinite : finish.isFinite = true)

include lasting wide startFinite finishFinite

theorem regular_of_share (nonpos : start.value ≤ 0)
    (large : (share (finish - start) area.width).lt (leastTimes 3) = false) :
    Regular area start finish gridHeight := by
  have durationAbove := (OrderedScalar.lt_iff (α := Binary64).mp lasting).2.2
  have widthAbove := (OrderedScalar.lt_iff (α := Binary64).mp wide).2.2
  rcases share_cases lasting wide with nonneg | ⟨none, durationInfinite, widthInfinite⟩
  · have above := atLeast_of_not_few nonneg large
    obtain ⟨positive, places, found, few⟩ := step_of_share above
    refine ⟨exists_drawn gridHeight durationAbove widthAbove
      (label_of_places found (few.trans (by decide))), ⟨places, found, few⟩, .inl positive,
      inOrder_of_minor startFinite finishFinite (.inl positive), ?_⟩
    intro reaches widthFinite bits one most narrow
    exact bounded_ticks startFinite finishFinite nonpos reaches lasting above widthFinite wide one most
      narrow
  · obtain ⟨minor, places⟩ := chooseStep_of_nan none
    refine ⟨exists_drawn gridHeight durationAbove widthAbove
      (label_of_places places (by decide)), ⟨0, places, by decide⟩,
      .inr ⟨minor, durationInfinite, widthInfinite⟩,
      inOrder_of_minor startFinite finishFinite (.inr minor), ?_⟩
    intro _ widthFinite
    rw [widthInfinite] at widthFinite
    cases widthFinite

omit startFinite finishFinite in
theorem step_of_few (few : (share (finish - start) area.width).lt (leastTimes 3) = true) :
    stepOf area start finish = ⟨zero false, 2⟩ := by
  rcases share_cases lasting wide with nonneg | ⟨none, _⟩
  · exact chooseStep_of_few nonneg few
  · rw [none] at few
    cases few

theorem commands_of_few (nonpos : start.value ≤ 0)
    (few : (share (finish - start) area.width).lt (leastTimes 3) = true) :
    commands area start finish gridHeight = .error .tooManyPlaces := by
  have durationAbove := (OrderedScalar.lt_iff (α := Binary64).mp lasting).2.2
  have widthAbove := (OrderedScalar.lt_iff (α := Binary64).mp wide).2.2
  have step := step_of_few lasting wide few
  have less := value_lt_of_lasting startFinite finishFinite lasting
  obtain ⟨visited, even⟩ := ticks_of_zero startFinite finishFinite nonpos less
  obtain ⟨rest, count⟩ : ∃ rest, (lastTick (zero false) finish + 1 -
      firstTick (zero false) start).toNat = rest + 1 :=
    ⟨(lastTick (zero false) finish - firstTick (zero false) start).toNat, by omega⟩
  have minor : (⟨zero false, 2⟩ : Step Binary64).minor = zero false := by decide
  rw [stepOf] at step
  rw [commands, durationAbove, widthAbove, step]
  simp only [Bool.or_self, Bool.false_eq_true, if_false, minor, count, tickCommandsFrom,
    tickCommands_of_zero _ _ _ _ even, error_bind]

end Window

/-- A ruler is left out where its window or its area is empty, fails where the share of a label is
too small, and is regular otherwise. -/
theorem commands_cases (widthNumber : Scalar.le area.width area.width = true)
    (startFinite : start.isFinite = true) (finishFinite : finish.isFinite = true)
    (nonpos : start.value ≤ 0) (gridHeight : Binary64) :
    let shown := (0.0 : Binary64).lt (finish - start) = true ∧ (0.0 : Binary64).lt area.width = true
    let few := (share (finish - start) area.width).lt (leastTimes 3) = true
    ¬ shown ∧ commands area start finish gridHeight = .ok [] ∨
      shown ∧ few ∧ stepOf area start finish = ⟨zero false, 2⟩ ∧
        commands area start finish gridHeight = .error .tooManyPlaces ∨
      shown ∧ ¬ few ∧ Regular area start finish gridHeight := by
  intro shown few
  by_cases full : shown
  · obtain ⟨lasting, wide⟩ := full
    by_cases small : few
    · have none := step_of_few lasting wide small
      exact .inr (.inl ⟨⟨lasting, wide⟩, small, none,
        commands_of_few lasting wide gridHeight startFinite finishFinite nonpos small⟩)
    · exact .inr (.inr ⟨⟨lasting, wide⟩, small, regular_of_share lasting wide gridHeight
        startFinite finishFinite nonpos (Bool.not_eq_true _ ▸ small)⟩)
  · have zero : Scalar.le (0.0 : Binary64) 0.0 = true := by decide
    have durationNumber : Scalar.le (finish - start) (finish - start) = true :=
      (le_self_iff _).mpr (rounds_sub finishFinite startFinite).number
    refine .inl ⟨full, if_pos ((Bool.or_eq_true _ _).mpr ?_)⟩
    rcases not_and_or.mp full with ended | narrow
    · exact .inl (Scalar.le_of_not_lt zero durationNumber (Bool.not_eq_true _ ▸ ended))
    · exact .inr (Scalar.le_of_not_lt zero widthNumber (Bool.not_eq_true _ ▸ narrow))

/-! ### Windows without labels -/

/-- A window over an area whose labels would have no end: the share of a label is less than three
times the least number. Where the window begins behind zero, no tick is left that has a label. -/
def Unlabelled (area : Rect Binary64) (start finish : Binary64) : Prop :=
  (0.0 : Binary64).lt (finish - start) = true ∧ (0.0 : Binary64).lt area.width = true ∧
    (share (finish - start) area.width).lt (leastTimes 3) = true ∧ start.le 0.0 = true

/-- A share of so little is a share of a window with finite ends. -/
theorem finite_of_few (lasting : (0.0 : Binary64).lt (finish - start) = true)
    {width : Binary64} (few : (share (finish - start) width).lt (leastTimes 3) = true) :
    start.isFinite = true ∧ finish.isFinite = true := by
  have isFinite : (finish - start).isFinite = true := by
    rcases pos_cases lasting with infinite | ⟨isFinite, _⟩
    · -- A share of a window without end has no end itself, or is no number.
      rw [infinite, share] at few
      rcases pos_cases (zero_lt_divisor width) with divisor | ⟨divisorFinite, divisorPos⟩
      · rw [divisor] at few
        cases few
      · rw [infinite_div divisorFinite divisorPos] at few
        exact absurd few (by decide)
    · exact isFinite
  obtain ⟨finishFinite, negated⟩ := @isFinite_of_add finish start.neg isFinite
  exact ⟨(isFinite_neg start).symm.trans negated, finishFinite⟩

/-- Divided by zero, a window behind zero has one tick, the last there is, which is odd. -/
theorem ticks_of_zero_behind (startFinite : start.isFinite = true)
    (finishFinite : finish.isFinite = true) (positive : 0 < start.value)
    (less : start.value < finish.value) :
    firstTick (zero false) start = highestTick ∧ lastTick (zero false) finish = highestTick := by
  constructor
  · rw [firstTick, div_zero startFinite, if_neg positive.not_gt, if_pos positive]
    rfl
  · have behind := positive.trans less
    rw [lastTick, div_zero finishFinite, if_neg behind.not_gt, if_pos behind]
    rfl

/-- Behind zero the one tick of a window needs no label. -/
theorem exists_drawn_behind (gridHeight : Binary64)
    (lasting : (0.0 : Binary64).lt (finish - start) = true)
    (wide : (0.0 : Binary64).lt area.width = true)
    (few : (share (finish - start) area.width).lt (leastTimes 3) = true)
    (positive : 0 < start.value) : ∃ blocks, DrawnAs area start finish gridHeight blocks := by
  obtain ⟨startFinite, finishFinite⟩ := finite_of_few lasting few
  obtain ⟨first, last⟩ := ticks_of_zero_behind startFinite finishFinite positive
    (value_lt_of_lasting startFinite finishFinite lasting)
  have minor : (⟨zero false, 2⟩ : Step Binary64).minor = zero false := by decide
  refine exists_drawn_of_ticks gridHeight (OrderedScalar.lt_iff (α := Binary64).mp lasting).2.2
    (OrderedScalar.lt_iff (α := Binary64).mp wide).2.2 fun tick member => ?_
  rw [step_of_few lasting wide few] at member ⊢
  rw [minor, mem_ticks, first, last] at member
  obtain rfl : tick = highestTick := le_antisymm member.2 member.1
  have odd : ¬ highestTick % (2 : Nat) = 0 := by decide
  rw [tickCommands]
  exact ⟨_, if_neg odd⟩

/-- A ruler is drawn for every window and area but those whose labels would have no end. -/
theorem exists_commands_iff (widthNumber : Scalar.le area.width area.width = true)
    (gridHeight : Binary64) :
    (∃ drawn, commands area start finish gridHeight = .ok drawn) ↔
      ¬ Unlabelled area start finish := by
  have zeroNumber : Scalar.le (0.0 : Binary64) 0.0 = true := by decide
  by_cases empty : (Scalar.le (finish - start) 0.0 || Scalar.le area.width 0.0) = true
  · -- Nothing is drawn where the window or the area is empty.
    refine iff_of_true ⟨[], if_pos empty⟩ fun unlabelled => ?_
    obtain ⟨lasting, wide, _⟩ := unlabelled
    have durationAbove := (OrderedScalar.lt_iff (α := Binary64).mp lasting).2.2
    have widthAbove := (OrderedScalar.lt_iff (α := Binary64).mp wide).2.2
    rw [durationAbove, widthAbove] at empty
    cases empty
  simp only [Bool.or_eq_true, not_or, Bool.not_eq_true] at empty
  obtain ⟨durationAbove, widthAbove⟩ := empty
  have wide : (0.0 : Binary64).lt area.width = true :=
    (OrderedScalar.lt_iff (α := Binary64)).mpr ⟨zeroNumber, widthNumber, widthAbove⟩
  have drawn_of_places {places : Nat}
      (found : labelPlaces? (stepOf area start finish).major = some places)
      (few : places ≤ mostPlaces) :
      ∃ drawn, commands area start finish gridHeight = .ok drawn := by
    obtain ⟨_, drawn, _⟩ :=
      exists_drawn gridHeight durationAbove widthAbove (label_of_places found few)
    exact ⟨_, drawn⟩
  cases number : (finish - start).isNaN with
  | true =>
    have missing : finish - start = nan := by
      cases same : finish - start <;> rw [same] at number <;> first | rfl | cases number
    have none : share (finish - start) area.width = nan := by
      rw [share, missing]
      cases Scalar.larger (area.width / spacing) 2.0 <;> rfl
    refine iff_of_true (drawn_of_places (chooseStep_of_nan none).2 (by decide)) fun unlabelled => ?_
    have lasting := unlabelled.1
    rw [missing] at lasting
    cases lasting
  | false =>
    have lasting : (0.0 : Binary64).lt (finish - start) = true :=
      (OrderedScalar.lt_iff (α := Binary64)).mpr
        ⟨zeroNumber, (le_self_iff _).mpr number, durationAbove⟩
    rcases share_cases lasting wide with nonneg | ⟨none, _⟩
    · by_cases few : (share (finish - start) area.width).lt (leastTimes 3) = true
      · obtain ⟨startFinite, finishFinite⟩ := finite_of_few lasting few
        have startNonpos : start.le 0.0 = true ↔ start.value ≤ 0 := by
          rw [le_iff_value_le _ _ startFinite rfl, value_zero]
        by_cases positive : 0 < start.value
        · obtain ⟨_, drawn, _⟩ := exists_drawn_behind gridHeight lasting wide few positive
          refine iff_of_true ⟨_, drawn⟩ fun unlabelled => ?_
          exact absurd positive (not_lt.mpr (startNonpos.mp unlabelled.2.2.2))
        · have nonpos := not_lt.mp positive
          have failing :=
            commands_of_few lasting wide gridHeight startFinite finishFinite nonpos few
          refine iff_of_false (fun returned => ?_)
            (not_not.mpr ⟨lasting, wide, few, startNonpos.mpr nonpos⟩)
          obtain ⟨_, drawn⟩ := returned
          rw [failing] at drawn
          cases drawn
      · have above := atLeast_of_not_few nonneg (Bool.not_eq_true _ ▸ few)
        obtain ⟨_, places, found, most⟩ := step_of_share above
        exact iff_of_true (drawn_of_places found (most.trans (by decide)))
          fun unlabelled => few unlabelled.2.2.1
    · refine iff_of_true (drawn_of_places (chooseStep_of_nan none).2 (by decide))
        fun unlabelled => ?_
      have few := unlabelled.2.2.1
      rw [none] at few
      cases few

end Ruler

/-- A cut label has as many characters as there is room for. -/
theorem Svg.length_cutLabel (label : String) (capacity : Nat) :
    (cutLabel label capacity).length =
      if capacity < label.length ∧ 2 < capacity then capacity else label.length := by
  unfold cutLabel
  split
  next cut =>
    have taken : min (capacity - 1) label.length = capacity - 1 := by omega
    simp only [String.length_ofList, List.length_append, List.length_take, String.length_toList,
      List.length_singleton, taken]
    omega
  next => rfl

/-- The plot of a chart of any width begins at the gutter, and does not end before it. -/
theorem Chart.left_le_right (count : Nat) (viewport : Viewport Binary64) (start finish : Binary64) :
    Scalar.le (Rows.Plot.ofArea (rowArea count viewport) gutter start finish).left
      (Rows.Plot.ofArea (rowArea count viewport) gutter start finish).right = true := by
  refine Rows.Plot.left_le_right ?_
  simp only [Rows.Plot.ofArea, rowArea, gutter]
  decide +kernel

namespace Timeline

/-- Rows are drawn whatever the width, and what becomes of a drawing is up to its ruler. -/
theorem svg_eq_ruler (timeline : Timeline Binary64) (theme : Svg.Theme) (width : Binary64) :
    let viewport : Viewport Binary64 := ⟨width, Chart.height timeline.series.length⟩
    let rows := Chart.rowArea timeline.series.length viewport
    ∃ drawn, Rows.commands timeline.series rows Chart.gutter timeline.window.1
        timeline.window.2 = .ok drawn ∧
      timeline.svg theme width = Ruler.commands (Chart.rulerArea viewport) timeline.window.1
        timeline.window.2 rows.height >>= fun ruler =>
          pure (Svg.document theme width viewport.height (drawn ++ ruler)) := by
  intro viewport rows
  have aligned : ∀ one ∈ timeline.series, one.isAligned = true := by
    intro one member
    obtain ⟨track, _, rfl⟩ := List.mem_map.mp member
    exact Series.isAligned_ofTrack track
  obtain ⟨blocks, drawn, _⟩ :=
    Rows.exists_blocks (Chart.left_le_right _ viewport timeline.window.1 timeline.window.2) aligned
  refine ⟨blocks.flatten, drawn, ?_⟩
  change (Chart.commands timeline.series viewport timeline.window.1 timeline.window.2 >>=
    fun commands => pure (Svg.document theme width viewport.height commands)) = _
  change ((Rows.commands timeline.series rows Chart.gutter timeline.window.1 timeline.window.2 >>=
    fun drawn => Ruler.commands (Chart.rulerArea viewport) timeline.window.1 timeline.window.2
      rows.height >>= fun ruler => pure (drawn ++ ruler)) >>=
        fun commands => pure (Svg.document theme width viewport.height commands)) = _
  rw [show Rows.commands timeline.series rows Chart.gutter timeline.window.1 timeline.window.2 =
    .ok blocks.flatten from drawn, ok_bind, bind_assoc]
  rfl

/-- A drawing of any width has all its rows, and labels that are cut to their room. It fails where
the ruler has a window and a width but a label's share of the window is less than three times the
least number, and nowhere else: there its step is zero, and everywhere else it is regular. -/
theorem svg_of_width (timeline : Timeline Binary64) (theme : Svg.Theme) (width : Binary64) :
    let count := timeline.series.length
    let viewport : Viewport Binary64 := ⟨width, Chart.height count⟩
    let rows := Chart.rowArea count viewport
    let area := Chart.rulerArea viewport
    let start := timeline.window.1
    let finish := timeline.window.2
    let plot := Rows.Plot.ofArea rows Chart.gutter start finish
    let shown := (0.0 : Binary64).lt (finish - start) = true ∧ (0.0 : Binary64).lt area.width = true
    let few := (Ruler.share (finish - start) area.width).lt (leastTimes 3) = true
    plot.left.le plot.right = true ∧
      (∃ drawn, Rows.commands timeline.series rows Chart.gutter start finish = .ok drawn) ∧
      (∀ label capacity, (Svg.cutLabel label capacity).length =
        if capacity < label.length ∧ 2 < capacity then capacity else label.length) ∧
      (timeline.svg theme width = .error .tooManyPlaces ↔ shown ∧ few) ∧
      (¬ (shown ∧ few) → ∃ text, timeline.svg theme width = .ok text) ∧
      (shown → few → Ruler.stepOf area start finish = ⟨zero false, 2⟩) ∧
      (shown → ¬ few → Ruler.Regular area start finish rows.height) := by
  intro count viewport rows area start finish plot shown few
  have startFinite := timeline.window_start_finite
  have finishFinite := timeline.window_ordered.1
  have nonpos := (le_iff_value_le _ _ startFinite rfl).mp timeline.window_start_nonpos
  rw [value_zero] at nonpos
  have widthNumber : Scalar.le area.width area.width = true :=
    OrderedScalar.number_right (Scalar.le_larger (width - Chart.gutter) (by decide))
  obtain ⟨drawn, rowsDrawn, whole⟩ := timeline.svg_eq_ruler theme width
  have cases := Ruler.commands_cases widthNumber startFinite finishFinite nonpos rows.height
  refine ⟨Chart.left_le_right _ _ _ _, ⟨drawn, rowsDrawn⟩, Svg.length_cutLabel, ?_⟩
  rw [whole]
  rcases cases with ⟨empty, ruler⟩ | ⟨full, small, step, ruler⟩ | ⟨full, large, regular⟩
  · -- Without a ruler there are the rows alone.
    rw [ruler]
    refine ⟨⟨fun error => ?_, fun failing => absurd failing.1 empty⟩, fun _ => ⟨_, rfl⟩,
      fun full => absurd full empty, fun full => absurd full empty⟩
    cases error
  · rw [ruler]
    exact ⟨⟨fun _ => ⟨full, small⟩, fun _ => rfl⟩, fun sound => absurd ⟨full, small⟩ sound,
      fun _ _ => step, fun _ large => absurd small large⟩
  · obtain ⟨blocks, ruler, _⟩ := regular.drawn
    rw [ruler]
    refine ⟨⟨fun error => ?_, fun failing => absurd failing.2 large⟩, fun _ => ⟨_, rfl⟩,
      fun _ small => absurd small large, fun _ _ => regular⟩
    cases error

/-- A counter with one interval between two times, and the timeline that is built from it. -/
def spanning (start finish : Binary64) : Counter Binary64 :=
  ⟨"SU", .schedulingUnit, [⟨start, 2⟩, ⟨finish, 1⟩]⟩

def spanned (start duration : Binary64) : Timeline Binary64 :=
  ⟨[⟨"SU", [⟨"SU", start, duration, "FETCH_DECODE_INSTRUCTION", "mediumblue"⟩]⟩]⟩

/-- A second on 400 pixels has ticks at tenths, with a label at every fifth. -/
theorem svg_of_one_second :
    ∃ timeline, ofCounters .standard [spanning 0.0 1.0] = .ok timeline ∧
      (∃ text, timeline.svg .light 400.0 = .ok text) ∧
      let area := Chart.rulerArea ⟨400.0, Chart.height timeline.series.length⟩
      let step := Ruler.stepOf area timeline.window.1 timeline.window.2
      let ticks := Ruler.ticks step.minor timeline.window.1 timeline.window.2
      step.major = 0.5 ∧ ticks = [0, 1, 2, 3, 4, 5, 6, 7, 8, 9, 10] ∧
      ticks.Pairwise fun tick later =>
        (ofInt tick * step.minor).lt (ofInt later * step.minor) = true := by
  obtain ⟨_, _, _, _, returned, _, regular⟩ := (spanned 0.0 1.0).svg_of_width .light 400.0
  have regular := regular (by decide +kernel) (by decide +kernel)
  have reaches : 0 ≤ (spanned 0.0 1.0).window.2.value :=
    (zero_le_iff (by decide +kernel)).mp (by decide +kernel)
  have narrow : (240.0 : Binary64).value ≤ 2 ^ 8 := by
    have exact : (240.0 : Binary64).value = 240 := by
      exact_mod_cast (@literal_exact 240 (by decide) (by decide)).2
    rw [exact]
    norm_num
  have width : (Chart.rulerArea ⟨(400.0 : Binary64),
      Chart.height (spanned 0.0 1.0).series.length⟩).width = 240.0 := by decide +kernel
  obtain ⟨lower, upper⟩ := regular.bounded reaches (by decide +kernel) 8 (by decide) (by decide)
    (width ▸ narrow)
  exact ⟨spanned 0.0 1.0, by decide +kernel, returned (by decide +kernel), by decide +kernel,
    by decide +kernel, regular.inOrder.apart (by omega) (by omega)⟩

/-- Too short a window or too great a width leaves a step of zero; ticks far from zero coincide; and
a width that is great but finite has ticks at all integers of a word. -/
theorem svg_of_unlabelled_windows :
    (∃ timeline, ofCounters .standard [spanning 0.0 1e-323] = .ok timeline ∧
      let area := Chart.rulerArea ⟨400.0, Chart.height timeline.series.length⟩
      (Ruler.stepOf area timeline.window.1 timeline.window.2).minor = 0.0 ∧
      timeline.svg .light 400.0 = .error .tooManyPlaces) ∧
    (∃ timeline, ofCounters .standard [spanning 0.0 1.0] = .ok timeline ∧
      timeline.svg .light (infinite false) = .error .tooManyPlaces) ∧
    (∃ timeline, ofCounters .standard [spanning (-1e17) (-99999999999999984.0)] = .ok timeline ∧
      let area := Chart.rulerArea ⟨400.0, Chart.height timeline.series.length⟩
      let minor := (Ruler.stepOf area timeline.window.1 timeline.window.2).minor
      let ticks := Ruler.ticks minor timeline.window.1 timeline.window.2
      ∃ tick ∈ ticks, ∃ later ∈ ticks, tick < later ∧ ofInt tick * minor = ofInt later * minor) ∧
    ∃ timeline, ofCounters .standard [spanning 0.0 1.0] = .ok timeline ∧
      let area := Chart.rulerArea ⟨1e300, Chart.height timeline.series.length⟩
      let minor := (Ruler.stepOf area timeline.window.1 timeline.window.2).minor
      Ruler.firstTick minor timeline.window.1 = 0 ∧
        Ruler.lastTick minor timeline.window.2 = Ruler.highestTick := by
  refine ⟨⟨spanned 0.0 1e-323, by decide +kernel, by decide +kernel⟩,
    ⟨spanned 0.0 1.0, by decide +kernel, by decide +kernel⟩,
    ⟨spanned (-1e17) 16.0, by decide +kernel, by decide +kernel⟩,
    ⟨spanned 0.0 1.0, by decide +kernel, by decide +kernel⟩⟩

end Timeline

end TraceChart
