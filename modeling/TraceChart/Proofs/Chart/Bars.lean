import TraceChart.Proofs.Chart.Blocks
import TraceChart.Proofs.Number.Monotone

/-!
# Bars in their plot

Bars are left out and cut in pixels, after times have been mapped onto the plot. The mapping keeps
the order of times, so a bar never leaves the plot and never has a negative width, however it is
rounded. With exact numbers to cut the image of a bar is to take the image of the part of it that
lies in the window.
-/

namespace TraceChart.Rows

open Scalar OrderedScalar MonotoneScalar

/-! ### Numbers that may be rounded -/

section Ordered

variable {α : Type} [Scalar α] [MonotoneScalar α] {plot : Plot α}

/-- A plot with finite edges, onto which time is mapped forwards. -/
structure Plot.Forward (plot : Plot α) : Prop where
  left_finite : isFinite plot.left = true
  right_finite : isFinite plot.right = true
  start_finite : isFinite plot.start = true
  scale_nonneg : le 0.0 plot.scale = true
  ordered : le plot.left plot.right = true

theorem Plot.forward_ofArea {area : Rect α} {gutter start finish : α}
    (left : isFinite (Plot.ofArea area gutter start finish).left = true)
    (width : isFinite (Plot.ofArea area gutter start finish).width = true)
    (right : isFinite (Plot.ofArea area gutter start finish).right = true)
    (finite : isFinite start = true) : (Plot.ofArea area gutter start finish).Forward where
  left_finite := left
  right_finite := right
  start_finite := finite
  scale_nonneg := by
    have zero := number_of_finite (finite_zero (α := α))
    simp only [ofArea] at width ⊢
    split
    next positive => exact zero_le_quotient width (le_larger _ zero) positive
    next => exact zero
  ordered := left_le_right left

/-- Of two times the later one has no lesser position, if both have one. -/
theorem Plot.Forward.position_le (forward : plot.Forward) {time later : α}
    (ordered : le time later = true) (number : le (plot.position time) (plot.position time) = true)
    (laterNumber : le (plot.position later) (plot.position later) = true) :
    le (plot.position time) (plot.position later) = true :=
  add_le_add forward.left_finite (mul_le_mul forward.scale_nonneg
    (sub_le_sub forward.start_finite ordered) (number_right_of_add number)
    (number_right_of_add laterNumber))

/-- A rectangle that lies within the plot from left to right. -/
structure Plot.Holds (plot : Plot α) (rect : Rect α) : Prop where
  left_le : le plot.left rect.x = true
  le_right : le rect.x plot.right = true
  nonneg : le 0.0 rect.width = true

theorem holds_of_barCommand (forward : plot.Forward) {top : α} {bar : Bar α}
    (spans : le bar.base bar.finish = true) {command : Command α}
    (drawn : barCommand? plot top bar = some command) :
    ∃ rect fill, command = .rect rect fill none (some bar.label) (some bar.hover) ∧
      plot.Holds rect := by
  unfold barCommand? at drawn
  dsimp only at drawn
  split at drawn
  next => cases drawn
  next inside =>
    simp only [Bool.or_eq_true, not_or, Bool.not_eq_true] at inside
    obtain ⟨notBefore, notBehind⟩ := inside
    have leftNumber := number_left forward.ordered
    have rightNumber := number_right forward.ordered
    let start := plot.position bar.base
    let finish := plot.position bar.finish
    -- The start is cut at the left edge and does not lie behind the right one.
    have after : le plot.left (larger start plot.left) = true := le_larger _ leftNumber
    have before : le (larger start plot.left) plot.right = true :=
      larger_le (fun number => le_of_not_lt rightNumber number notBehind) forward.ordered
    have ordered : le (larger start plot.left) (smaller finish plot.right) = true := by
      refine le_smaller (fun finishNumber => ?_) before
      exact larger_le (fun number => forward.position_le spans number finishNumber)
        (le_of_not_lt finishNumber leftNumber notBefore)
    have startFinite := finite_between forward.left_finite forward.right_finite after before
    have finishFinite := finite_between forward.left_finite forward.right_finite
      (le_trans after ordered) (smaller_le_right finish rightNumber)
    cases drawn
    exact ⟨_, _, rfl, after, before, zero_le_sub startFinite finishFinite ordered⟩

end Ordered

/-! ### Exact numbers -/

section Exact

open Exact

/-- The span of a bar, its ends included, and the window have a time in common. -/
def meets (start finish : Rat) (bar : Bar Rat) : Bool :=
  decide (start ≤ bar.finish) && decide (bar.base ≤ finish)

/-- The image of the part of a bar that lies in the window, as the plot maps time to its width. -/
def image (area : Rect Rat) (gutter start finish top : Rat) (bar : Bar Rat) : Rect Rat :=
  let scale := (area.width - gutter) / (finish - start)
  { x := area.x + gutter + (max bar.base start - start) * scale
    y := top + barInset
    width := (min bar.finish finish - max bar.base start) * scale
    height := rowHeight - 2.0 * barInset }

variable {area : Rect Rat} {gutter start finish : Rat}

theorem meets_iff (window : start < finish) {bar : Bar Rat} (spans : bar.base ≤ bar.finish) :
    meets start finish bar = true ↔
      (Set.Icc bar.base bar.finish ∩ Set.Icc start finish).Nonempty := by
  rw [Set.Icc_inter_Icc, Set.nonempty_Icc, sup_le_iff, le_inf_iff, le_inf_iff, meets,
    Bool.and_eq_true, decide_eq_true_eq, decide_eq_true_eq]
  constructor
  · rintro ⟨after, before⟩
    exact ⟨⟨spans, before⟩, after, window.le⟩
  · rintro ⟨⟨_, before⟩, after, _⟩
    exact ⟨after, before⟩

/-- The plot maps the window onto its width, and later times further to the right. -/
theorem position_exact (room : gutter < area.width) (window : start < finish) :
    let plot := Plot.ofArea area gutter start finish
    StrictMono plot.position ∧ plot.left = plot.position start ∧
      plot.right = plot.position finish ∧
      ∀ time, plot.position time =
        area.x + gutter + (time - start) * ((area.width - gutter) / (finish - start)) := by
  intro plot
  have width : 0 < area.width - gutter := sub_pos.mpr room
  have length : 0 < finish - start := sub_pos.mpr window
  have scale : plot.scale = (area.width - gutter) / (finish - start) := by
    simp [plot, Plot.ofArea, larger_eq, zero_eq, length, max_eq_left width.le]
  have position (time : Rat) : plot.position time =
      area.x + gutter + (time - start) * ((area.width - gutter) / (finish - start)) := by
    rw [← scale]
    rfl
  refine ⟨fun time later less => ?_, ?_, ?_, position⟩
  · have further := mul_lt_mul_of_pos_right (sub_lt_sub_right less start) (div_pos width length)
    rw [position, position]
    linarith
  · rw [position, sub_self, zero_mul, add_zero]
    rfl
  · rw [position, mul_div_cancel₀ _ length.ne']
    simp [plot, Plot.right, Plot.ofArea, larger_eq, zero_eq, max_eq_left width.le]

/-- To cut a bar at the edges of the plot is to take the image of what lies in the window. -/
theorem barCommand_exact (room : gutter < area.width) (window : start < finish) (top : Rat)
    (bar : Bar Rat) :
    barCommand? (Plot.ofArea area gutter start finish) top bar =
      if meets start finish bar then
        some (.rect (image area gutter start finish top bar)
          (bar.color.elim (.token .placeholder) .named) none (some bar.label) (some bar.hover))
      else none := by
  obtain ⟨strict, left, right, position⟩ := position_exact room window
  let plot := Plot.ofArea area gutter start finish
  have aside : (lt (plot.position bar.finish) plot.left || lt plot.right (plot.position bar.base)) =
      !meets start finish bar := by
    rw [left, right, Bool.eq_iff_iff]
    simp only [plot, lt_eq, strict.lt_iff_lt, meets, Bool.or_eq_true, Bool.not_and,
      Bool.not_eq_true', decide_eq_true_eq, decide_eq_false_iff_not, not_le]
  unfold barCommand?
  dsimp only
  rw [aside, larger_eq, smaller_eq, left, right, ← strict.monotone.map_max,
    ← strict.monotone.map_min]
  cases meets start finish bar with
  | false => rfl
  | true =>
    have width : plot.position (min bar.finish finish) - plot.position (max bar.base start) =
        (image area gutter start finish top bar).width := by
      rw [position, position, image]
      ring
    rw [Bool.not_true, if_neg Bool.false_ne_true, if_pos rfl, width, position]
    cases bar.color <;> rfl

/-- Where one bar ends before another begins, so do their images. -/
theorem image_apart (room : gutter < area.width) (window : start < finish) (top other : Rat)
    {bar later : Bar Rat} (apart : bar.finish ≤ later.base) :
    (image area gutter start finish top bar).x + (image area gutter start finish top bar).width ≤
      (image area gutter start finish other later).x := by
  have scale : 0 < (area.width - gutter) / (finish - start) :=
    div_pos (sub_pos.mpr room) (sub_pos.mpr window)
  have cut : min bar.finish finish ≤ max later.base start :=
    (min_le_left _ _).trans (apart.trans (le_max_left _ _))
  have images := mul_le_mul_of_nonneg_right cut scale.le
  simp only [image]
  linarith

end Exact

/-! ### The bars of all rows -/

/-- Aligned lists, with bars that start at a finite time and do not run backwards. -/
structure Regular {α : Type} [Scalar α] (series : Series α) : Prop where
  aligned : series.isAligned = true
  bars : ∀ bars, series.bars = .ok bars → ∀ bar ∈ bars,
    isFinite bar.base = true ∧ le 0.0 bar.duration = true

theorem holds_of_commands {α : Type} [Scalar α] [MonotoneScalar α] {series : List (Series α)}
    {area : Rect α} {gutter start finish : α} (regular : ∀ one ∈ series, Regular one)
    (forward : (Plot.ofArea area gutter start finish).Forward) :
    ∃ drawn, commands series area gutter start finish = .ok drawn ∧
      ∀ rect fill border label hover, .rect rect fill border label (some hover) ∈ drawn →
        (Plot.ofArea area gutter start finish).Holds rect := by
  obtain ⟨blocks, drawn, rows⟩ :=
    exists_blocks forward.ordered fun one member => (regular one member).aligned
  refine ⟨blocks.flatten, drawn, fun rect fill border label hover member => ?_⟩
  obtain ⟨block, listed, inside⟩ := List.mem_flatten.mp member
  obtain ⟨entry, shown, row⟩ := forall₂_exists rows.flip block listed
  have one := regular _ (mem_of_mem_shown shown)
  obtain ⟨bars, returned, same⟩ := filter_rowCommands forward.ordered one.aligned row
  have bar : .rect rect fill border label (some hover) ∈ block.filter isBar :=
    List.mem_filter.mpr ⟨inside, rfl⟩
  rw [same] at bar
  obtain ⟨source, included, placed⟩ := List.mem_filterMap.mp bar
  obtain ⟨base, duration⟩ := one.bars bars returned source included
  obtain ⟨found, _, command, holds⟩ := holds_of_barCommand forward (le_add base duration) placed
  cases command
  exact holds

/-- In binary64 every bar stays within the plot, from its left to its right edge, and has a width
that is not negative. With exact numbers the bars of a row are those that have a time in common with
the window, in order, each as the image of what it has in common; and bars that are apart in time
have images that are apart. -/
theorem bars_of_rows :
    (∀ (series : List (Series Binary64)) (area : Rect Binary64)
      (gutter start finish : Binary64), (∀ one ∈ series, Regular one) →
      (area.x + gutter).isFinite = true → (larger (area.width - gutter) 0.0).isFinite = true →
      (area.x + gutter + larger (area.width - gutter) 0.0).isFinite = true →
      start.isFinite = true →
        ∃ drawn, commands series area gutter start finish = .ok drawn ∧
          ∀ rect fill border label hover, .rect rect fill border label (some hover) ∈ drawn →
            (area.x + gutter).le rect.x = true ∧
            rect.x.le (area.x + gutter + larger (area.width - gutter) 0.0) = true ∧
            (0.0 : Binary64).le rect.width = true) ∧
    ∀ (series : List (Series Rat)) (area : Rect Rat) (gutter start finish : Rat),
      (∀ one ∈ series, Regular one) → gutter < area.width → start < finish →
        (∃ blocks, commands series area gutter start finish = .ok blocks.flatten ∧
          List.Forall₂ (fun entry block => ∃ bars, entry.1.bars = .ok bars ∧
            block.filter isBar = (bars.filter (meets start finish)).map (fun bar =>
              .rect (image area gutter start finish (top area entry.2) bar)
                (bar.color.elim (.token .placeholder) .named) none (some bar.label)
                (some bar.hover)) ∧
            ∀ bar ∈ bars, meets start finish bar = true ↔
              (Set.Icc bar.base bar.finish ∩ Set.Icc start finish).Nonempty)
            (shown area series) blocks) ∧
        ∀ (bar later : Bar Rat) (top other : Rat), bar.finish ≤ later.base →
          (image area gutter start finish top bar).x +
              (image area gutter start finish top bar).width ≤
            (image area gutter start finish other later).x := by
  constructor
  · intro series area gutter start finish regular left width right finite
    obtain ⟨drawn, returned, held⟩ :=
      holds_of_commands regular (Plot.forward_ofArea left width right finite)
    refine ⟨drawn, returned, fun rect fill border label hover member => ?_⟩
    obtain ⟨leftLe, leRight, nonneg⟩ := held rect fill border label hover member
    exact ⟨leftLe, leRight, nonneg⟩
  · intro series area gutter start finish regular room window
    obtain ⟨blocks, drawn, rows⟩ := exists_blocks (Plot.left_le_right rfl)
      fun one member => (regular one member).aligned
    refine ⟨⟨blocks, drawn, ?_⟩, fun bar later top other => image_apart room window top other⟩
    have each := (List.forall₂_and_left _ _).mpr
      ⟨fun entry shown => regular _ (mem_of_mem_shown shown), rows⟩
    refine each.imp fun entry block ⟨one, row⟩ => ?_
    obtain ⟨bars, returned, same⟩ := filter_rowCommands (Plot.left_le_right rfl) one.aligned row
    refine ⟨bars, returned, ?_, fun bar member => meets_iff window ?_⟩
    · rw [same, ← List.filterMap_eq_map, List.filterMap_filter]
      exact List.filterMap_congr fun bar _ => barCommand_exact room window _ bar
    · have duration := (one.bars bars returned bar member).2
      simp only [Exact.le_eq, Exact.zero_eq, decide_eq_true_eq] at duration
      rw [Bar.finish]
      linarith

/-- A bar from before the window, one that reaches beyond its end, and one behind it. -/
def cutSeries (α : Type) [Scalar α] : Series α :=
  ⟨"SU", [2.5, 2.0, 1.0], ["SU", "SU", "SU"], [0.0, 3.5, 9.0], ["a", "b", "c"], ["A", "B", "C"],
    [some "blue", none, some "red"], false⟩

theorem regular_cutSeries {α : Type} [Scalar α] {bars : List (Bar α)}
    (returned : (cutSeries α).bars = .ok bars)
    (regular : ∀ bar ∈ bars, isFinite bar.base = true ∧ le 0.0 bar.duration = true) :
    ∀ one ∈ [cutSeries α], Regular one := by
  refine List.forall_mem_singleton.mpr ⟨rfl, fun others same => ?_⟩
  obtain rfl := Except.ok.inj (same.symm.trans returned)
  exact regular

theorem bars_of_cut_series :
    (∃ drawn, commands [cutSeries Binary64] ⟨0.0, 24.0, 400.0, 24.0⟩ 160.0 1.0 5.0 = .ok drawn ∧
      ∀ rect fill border label hover, .rect rect fill border label (some hover) ∈ drawn →
        (160.0 : Binary64).le rect.x = true ∧ rect.x.le 400.0 = true ∧
          (0.0 : Binary64).le rect.width = true) ∧
    ∃ blocks : List (List (Command Rat)),
      commands [cutSeries Rat] ⟨0, 24, 400, 24⟩ 160 1 5 = .ok blocks.flatten ∧
      ∀ block ∈ blocks, block.filter isBar = [
        .rect ⟨160, 28, 90, 16⟩ (.named "blue") none (some "A") (some "a"),
        .rect ⟨310, 28, 90, 16⟩ (.token .placeholder) none (some "B") (some "b")] := by
  constructor
  · obtain ⟨drawn, returned, held⟩ :=
      bars_of_rows.1 [cutSeries Binary64] ⟨0.0, 24.0, 400.0, 24.0⟩ 160.0 1.0 5.0
        (regular_cutSeries rfl (by decide +kernel)) (by decide +kernel) (by decide +kernel)
        (by decide +kernel) (by decide +kernel)
    have left : (0.0 + 160.0 : Binary64) = 160.0 := by decide +kernel
    have right : (160.0 + larger (400.0 - 160.0) 0.0 : Binary64) = 400.0 := by decide +kernel
    simp only [left, right] at held
    exact ⟨drawn, returned, held⟩
  · obtain ⟨⟨blocks, drawn, rows⟩, _⟩ :=
      bars_of_rows.2 [cutSeries Rat] ⟨0, 24, 400, 24⟩ 160 1 5
        (regular_cutSeries rfl (by decide +kernel)) (by norm_num) (by norm_num)
    refine ⟨blocks, drawn, fun block member => ?_⟩
    obtain ⟨entry, listed, bars, returned, same, _⟩ := forall₂_exists rows.flip block member
    have one : shown (⟨0, 24, 400, 24⟩ : Rect Rat) [cutSeries Rat] = [(cutSeries Rat, 0)] := by
      decide +kernel
    rw [one, List.mem_singleton] at listed
    subst listed
    obtain rfl := Except.ok.inj returned
    rw [same]
    decide +kernel

end TraceChart.Rows
