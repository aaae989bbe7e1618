import TraceChart.Proofs.Chart.Blocks
import TraceChart.Proofs.Number.Share
import TraceChart.Proofs.Terminal.Frame
import TraceChart.Proofs.Terminal.Motion

/-!
# Where the cursor is drawn

However a user has come to a view, its cursor lies inside the window. Its column is as far into the
plot as the cursor is into the window, and it is drawn down all rows of the chart, over whatever
stands there. Only at the right end of the window there is no cursor to be seen: the whole of the
plot lies before it, and the column behind the plot is off the screen.
-/

namespace TraceChart.Terminal

open Scalar OrderedScalar Binary64

namespace View

/-- The part of the window that lies before the cursor. -/
def cursorPart {α : Type} [Scalar α] (view : View α) : α :=
  (view.cursor - view.start) / view.duration

/-! ### Cursors inside the window -/

/-- A cursor that lies inside the window, at a finite distance from its start. -/
structure Pointed (view : View Binary64) : Prop where
  start_le : view.start.le view.cursor = true
  le_finish : view.cursor.le view.finish = true
  zero_le : (0.0 : Binary64).le (view.cursor - view.start) = true
  finite : (view.cursor - view.start).isFinite = true

variable {start finish : Binary64} {view moved : View Binary64}

theorem InRange.pointed (range : FullRange start finish) (within : view.InRange start finish) :
    view.Pointed := by
  have startFinite : view.start.isFinite = true := within.finite_start range
  have cursorFinite : view.cursor.isFinite = true := within.toHeld.finite_cursor range
  have nonneg := Binary64.zero_le_sub _ _ startFinite cursorFinite within.window_le_cursor
  have first := (le_iff_value_le _ _ range.startFinite startFinite).mp within.start_le
  have last := (le_iff_value_le _ _ cursorFinite range.finishFinite).mp within.cursor_le_finish
  have distance : (view.cursor - view.start).le (finish - start) = true :=
    (rounded_sub cursorFinite startFinite).le (rounded_sub range.finishFinite range.startFinite)
      (by linarith)
  exact ⟨within.window_le_cursor, within.cursor_le_window, nonneg,
    isFinite_between rfl range.lengthFinite nonneg distance⟩

/-! ### Endless windows -/

/-- A view with a window of infinite length that starts at the start of its range, as the cursor
does. -/
structure Still (start finish : Binary64) (view : View Binary64) : Prop where
  fullStart : view.fullStart = start
  fullFinish : view.fullFinish = finish
  endless : view.duration = .infinite false
  start_le : start.le view.start = true
  le_start : view.start.le start = true
  start_le_cursor : start.le view.cursor = true
  cursor_le_start : view.cursor.le start = true

theorem Still.pointed (ends : FiniteEnds start finish) (still : view.Still start finish) :
    view.Pointed := by
  have startFinite := isFinite_between ends.startFinite ends.startFinite still.start_le
    still.le_start
  have cursorFinite := isFinite_between ends.startFinite ends.startFinite still.start_le_cursor
    still.cursor_le_start
  have before : view.start.le view.cursor = true := le_trans still.le_start still.start_le_cursor
  have behind : view.cursor.le view.start = true := le_trans still.cursor_le_start still.start_le
  -- Nothing is lost when a number is taken off one of the same value.
  have same : view.cursor.value - view.start.value = 0 := sub_eq_zero.mpr (le_antisymm
    ((le_iff_value_le _ _ cursorFinite startFinite).mp behind)
    ((le_iff_value_le _ _ startFinite cursorFinite).mp before))
  have rounds := rounds_sub cursorFinite startFinite
  rw [same] at rounds
  refine ⟨before, ?_, Binary64.zero_le_sub _ _ startFinite cursorFinite before,
    (@Rounds.exact _ (zero false) _ rounds rfl (zero_value false)).1⟩
  have window : view.finish = .infinite false := by
    rw [View.finish, still.endless, add_infinite startFinite]
  rw [window]
  exact le_infinite cursorFinite

theorem clamp_nan {low high result : Binary64} (clamped : clamp .nan low high = .ok result) :
    result = .nan := by
  obtain ⟨found, ordered⟩ := clamp_ok clamped
  have notAbove : Scalar.lt high .nan = false := by simp [Scalar.lt, Binary64.lt, isNaN]
  have notBelow : Scalar.lt .nan low = false := rfl
  simpa [clamp?, ordered, notAbove, notBelow, eq_comm] using found

/-- No time at all has passed when an endless window is moved by nothing, so it cannot be. -/
theorem pan_zero_ne_ok (apart : view.fullFinish - view.fullStart = .infinite false) :
    view.pan 0.0 ≠ .ok moved := by
  intro panned
  obtain ⟨brought, cursor, found, taken, _⟩ := pan_ok panned
  have lost : view.start + view.duration * 0.0 = .nan := by
    rw [duration, apart]
    cases view.zoom <;> cases view.start <;> rfl
  rw [lost] at found
  have number : brought.le brought = true := number_left (clamp_ok taken).2
  rw [clamp_nan found] at number
  cases number

@[simp] theorem fullStart_follow (view : View Binary64) :
    view.follow.fullStart = view.fullStart := by
  unfold follow
  split
  · rfl
  · split <;> rfl

@[simp] theorem fullFinish_follow (view : View Binary64) :
    view.follow.fullFinish = view.fullFinish := by
  unfold follow
  split
  · rfl
  · split <;> rfl

section Endless

variable (ends : FiniteEnds start finish) (apart : finish - start = .infinite false)

include ends

theorem Still.pan (still : view.Still start finish) {fraction : Binary64}
    (panned : view.pan fraction = .ok moved) : moved.Still start finish := by
  obtain rfl := still.fullStart
  obtain rfl := still.fullFinish
  obtain ⟨brought, cursor, found, taken, rfl⟩ := pan_ok panned
  have window := (clamp_ok taken).2
  obtain ⟨_, start_le, le_latest⟩ := within_of_clamp? (clamp_ok found).1 (number_left window)
  -- The latest start of the window lies before all numbers.
  have latest : Scalar.le (larger (view.fullFinish - view.duration) view.fullStart)
      view.fullStart = true := by
    refine larger_le (fun _ => ?_) (number_of_finite ends.startFinite)
    rw [still.endless]
    change (view.fullFinish + .infinite true).le view.fullStart = true
    rw [add_infinite ends.finishFinite]
    exact infinite_le ends.startFinite
  have le_start := OrderedScalar.le_trans le_latest latest
  obtain ⟨_, clamped, moved_le, _, bounded⟩ :=
    clamp?_of_number (number_left (α := Binary64) still.cursor_le_start) window
  obtain rfl := Option.some.inj ((clamp_ok taken).1.symm.trans clamped)
  exact {
    fullStart := rfl
    fullFinish := rfl
    endless := still.endless
    start_le := start_le
    le_start := le_start
    start_le_cursor := OrderedScalar.le_trans start_le moved_le
    cursor_le_start := bounded _ le_start still.cursor_le_start }

include apart

/-- An endless window can be moved, and that brings it back to where it is. Nothing else that
concerns the window returns. -/
theorem Still.perform (still : view.Still start finish) {action : Action Binary64}
    (performed : view.perform action = .ok moved) : moved.Still start finish := by
  have full : view.fullFinish - view.fullStart = .infinite false := by
    rw [still.fullStart, still.fullFinish, apart]
  cases action with
  | pan fraction => exact still.pan ends performed
  -- A change of zoom and a move of the cursor end with a move by nothing.
  | zoom factor => exact absurd performed (pan_zero_ne_ok full)
  | moveCursor fraction =>
    obtain ⟨cursor, _, panned⟩ := (bind_ok_iff _ _ _).mp performed
    exact absurd panned (pan_zero_ne_ok (by simpa using full))
  | select delta rows visible =>
    cases performed
    unfold View.select
    split
    · exact still
    · exact { still with }

theorem still_ofRange : (ofRange start finish).Still start finish := by
  have itself : start.le start = true := number_of_finite ends.startFinite
  refine ⟨rfl, rfl, ?_, itself, itself, itself, itself⟩
  change (finish - start) / 1.0 = .infinite false
  rw [apart]
  decide

end Endless

end View

/-! ### Runs -/

namespace Viewer

/-- What every action that an input can ask for keeps of a view is kept by a run. -/
theorem kept_of_takeAll {α : Type} [Scalar α] (Kept : View α → Prop) {height : Nat}
    (step : ∀ {viewer : Viewer α} {input : Input} {action : Action α} {next : View α},
      viewer.action? height input = some action → Kept viewer.view →
        viewer.view.perform action = .ok next → Kept next)
    {viewer last : Viewer α} {inputs : List Input} (kept : Kept viewer.view)
    (taken : viewer.takeAll height inputs = .ok last) :
    last.series = viewer.series ∧ Kept last.view := by
  induction inputs generalizing viewer with
  | nil =>
    cases taken
    exact ⟨rfl, kept⟩
  | cons input inputs ih =>
    unfold Viewer.takeAll Viewer.take at taken
    split at taken
    · cases taken
      exact ⟨rfl, kept⟩
    · split at taken
      next action asked =>
        -- A run that returns has returned from its first input.
        obtain ⟨next, first, rest⟩ := (bind_ok_iff _ _ _).mp taken
        obtain ⟨view, performed, returned⟩ := (bind_ok_iff _ _ _).mp first
        cases returned
        exact @ih { viewer with view := view } (step asked kept performed) rest
      next => exact ih kept taken

variable {start finish : Binary64} {series : List (Series Binary64)} {height : Nat}
  {inputs : List Input} {shown : Viewer Binary64}

/-- Whatever a user does to a viewer of a range with finite ends, the cursor lies inside the
window. -/
theorem pointed_of_takeAll (ends : FiniteEnds start finish)
    (taken : (ofSeries series start finish).takeAll height inputs = .ok shown) :
    shown.series = series ∧ shown.view.Pointed := by
  -- Differences of times stay finite in a range of finite length, and are zero in any other.
  by_cases finite : (finish - start).isFinite = true
  · have range : FullRange start finish :=
      ⟨ends.startFinite, ends.finishFinite, ends.ordered, finite⟩
    obtain ⟨same, within⟩ := kept_of_takeAll (View.InRange start finish)
      (fun asked within performed => by
        obtain ⟨_, returned, inside⟩ := within.perform range (action?_isFinite asked)
        cases performed.symm.trans returned
        exact inside)
      (View.inRange_ofRange range) taken
    exact ⟨same, within.pointed range⟩
  · have apart : finish - start = .infinite false := by
      have length := Binary64.zero_le_sub _ _ ends.startFinite ends.finishFinite ends.ordered
      rcases infinite_of_not_finite ((le_iff _ _).mp length).2.1 finite with below | above
      · rw [below] at length
        cases length
      · exact above
    obtain ⟨same, still⟩ := kept_of_takeAll (View.Still start finish)
      (fun _ still performed => still.perform ends apart performed)
      (View.still_ofRange ends apart) taken
    exact ⟨same, still.pointed ends⟩

/-! ### Columns -/

/-- The cursor stands behind the names and as many columns of the plot as it has passed. -/
theorem cursorColumn?_of_truncate {α : Type} [Scalar α] {viewer : Viewer α} {width passed : Nat}
    (inside : (Scalar.le 0.0 viewer.view.cursorPart && Scalar.le viewer.view.cursorPart 1.0) = true)
    (counted : Scalar.truncate (viewer.view.cursorPart * Scalar.ofNat (width - labelColumns)) =
      .at passed) (narrow : passed ≤ 65535) :
    viewer.cursorColumn? width =
      if labelColumns + passed < width then some (labelColumns + passed) else none := by
  unfold View.cursorPart at inside counted
  simp only [cursorColumn?, inside, if_true, counted, cells_at narrow]

section Columns

variable {viewer : Viewer Binary64} {width : Nat} (pointed : viewer.view.Pointed)
  (positive : (0.0 : Binary64).lt viewer.view.duration = true)

/-- The column of the cursor, where the cursor is drawn. -/
def cursorColumn (viewer : Viewer Binary64) (width : Nat) : Nat :=
  labelColumns + ⌊(viewer.view.cursorPart * Scalar.ofNat (width - labelColumns)).value⌋₊

include pointed positive

theorem zero_le_cursorPart : (0.0 : Binary64).le viewer.view.cursorPart = true :=
  Binary64.zero_le_div pointed.finite pointed.zero_le positive

theorem cursorPart_lt_one_iff : viewer.view.cursorPart.lt 1.0 = true ↔
    (viewer.view.cursor - viewer.view.start).lt viewer.view.duration = true :=
  div_lt_one_iff pointed.finite pointed.zero_le positive

theorem cursorColumn?_of_lt (wide : labelColumns < width) (narrow : width ≤ 65535)
    (before : viewer.view.cursorPart.lt 1.0 = true) :
    viewer.cursorColumn? width = some (viewer.cursorColumn width) ∧
      viewer.cursorColumn width < width := by
  have nonneg := zero_le_cursorPart pointed positive
  obtain ⟨finite, above, below⟩ := share_lt nonneg before (Nat.sub_pos_of_lt wide)
    (show width - labelColumns < significandLimit by simp only [significandLimit]; omega)
  have passed : ⌊(viewer.view.cursorPart * ofInt (width - labelColumns : Nat)).value⌋₊ <
      width - labelColumns := (Nat.floor_lt above).mpr below
  have inside : viewer.cursorColumn width < width := by
    have column : viewer.cursorColumn width = labelColumns +
      ⌊(viewer.view.cursorPart * ofInt (width - labelColumns : Nat)).value⌋₊ := rfl
    omega
  have counted := truncate_of_nonneg finite above
  rw [← Int.natCast_floor_eq_floor above] at counted
  refine ⟨?_, inside⟩
  rw [cursorColumn?_of_truncate (Bool.and_eq_true_iff.mpr
    ⟨nonneg, Scalar.le_of_lt (α := Binary64) before⟩) counted (by omega)]
  exact if_pos inside

/-- At the right end of the window the column would be the one behind the plot. -/
theorem cursorColumn?_of_not_lt (narrow : width ≤ 65535)
    (reached : ¬ viewer.view.cursorPart.lt 1.0 = true) : viewer.cursorColumn? width = none := by
  have nonneg := zero_le_cursorPart pointed positive
  by_cases below : viewer.view.cursorPart.le 1.0 = true
  · have oneFinite : (1.0 : Binary64).isFinite = true := by decide
    have finite := isFinite_between rfl oneFinite nonneg below
    -- A part that is neither below one nor above it is one, and so takes all columns exactly.
    have whole : viewer.view.cursorPart.value = 1 := by
      rw [← value_one]
      refine le_antisymm ((le_iff_value_le _ _ finite oneFinite).mp below) ?_
      rw [lt_iff_value_lt finite oneFinite] at reached
      exact not_lt.mp reached
    obtain ⟨countFinite, countValue⟩ := @ofInt_natCast (width - labelColumns) (by
      simp only [significandLimit]
      omega)
    have rounds := rounds_mul finite countFinite
    rw [whole, one_mul, countValue] at rounds
    obtain ⟨productFinite, product⟩ := rounds.exact countFinite countValue
    have counted := truncate_of_nonneg productFinite (product ▸ Nat.cast_nonneg _)
    rw [product, Int.floor_natCast] at counted
    rw [cursorColumn?_of_truncate (Bool.and_eq_true_iff.mpr ⟨nonneg, below⟩) counted (by omega)]
    exact if_neg (by omega)
  · unfold View.cursorPart at below
    unfold cursorColumn?
    exact if_neg fun inside => below (Bool.and_eq_true_iff.mp inside).2

end Columns

/-- In exact arithmetic the cursor is drawn unless it stands at the right end of the window. -/
theorem cursorColumn?_exact {start finish : Rat} (ordered : start < finish) {viewer : Viewer Rat}
    (contained : viewer.view.Contained start finish) {width : Nat} (wide : labelColumns < width)
    (narrow : width ≤ 65535) :
    viewer.cursorColumn? width =
      if viewer.view.cursor = viewer.view.finish then none
      else some (labelColumns + ⌊viewer.view.cursorPart * (width - labelColumns : Nat)⌋₊) := by
  have positive := contained.toScaled.zero_lt_duration ordered
  have behind := contained.cursor_le_finish
  rw [View.finish_eq] at behind
  have nonneg : 0 ≤ viewer.view.cursorPart :=
    div_nonneg (sub_nonneg.mpr contained.start_le_cursor) positive.le
  have inside : (Scalar.le 0.0 viewer.view.cursorPart && Scalar.le viewer.view.cursorPart 1.0) =
      true := by
    simp only [Exact.le_eq, Exact.zero_eq, Exact.one_eq, Bool.and_eq_true, decide_eq_true_eq]
    refine ⟨nonneg, (div_le_one positive).mpr ?_⟩
    linarith
  have productNonneg : 0 ≤ viewer.view.cursorPart * (width - labelColumns : Nat) := by positivity
  have counted : Scalar.truncate (viewer.view.cursorPart * Scalar.ofNat (width - labelColumns)) =
      .at ⌊viewer.view.cursorPart * (width - labelColumns : Nat)⌋₊ := by
    rw [Int.natCast_floor_eq_floor productNonneg]
    exact congrArg Extended.at (if_neg (not_lt.mpr productNonneg))
  split
  next atEnd =>
    have whole : viewer.view.cursorPart = 1 := by
      rw [View.cursorPart, atEnd, View.finish_eq, add_sub_cancel_left, div_self positive.ne']
    have product : viewer.view.cursorPart * (width - labelColumns : Nat) =
        (width - labelColumns : Nat) := by rw [whole, one_mul]
    rw [product, Nat.floor_natCast] at counted
    rw [cursorColumn?_of_truncate inside counted (by omega)]
    exact if_neg (by omega)
  next before =>
    have part : viewer.view.cursorPart < 1 := by
      rw [View.finish_eq] at before
      rw [View.cursorPart, div_lt_one positive]
      linarith [lt_of_le_of_ne behind before]
    have columns : (0 : ℚ) < (width - labelColumns : Nat) := by
      exact_mod_cast Nat.sub_pos_of_lt wide
    have passed : ⌊viewer.view.cursorPart * (width - labelColumns : Nat)⌋₊ <
        width - labelColumns := by
      rw [Nat.floor_lt productNonneg]
      exact mul_lt_of_lt_one_left columns part
    rw [cursorColumn?_of_truncate inside counted (by omega)]
    exact if_pos (by omega)

/-! ### Frames -/

/-- The cursor stands in a column of a screen, down all rows of the chart. -/
def CursorAt (screen : Screen) (height column : Nat) : Prop :=
  ∀ row < visibleRows height, ∃ cell,
    screen.cell? column (1 + row) = some cell ∧ cell.text = ['│']

theorem cursorStrokes_eq {α : Type} [Scalar α] {viewer : Viewer α} (area : Area) {column : Nat}
    (found : viewer.cursorColumn? area.width = some column) :
    viewer.cursorStrokes area =
      (⟨area.left + column, area.top, 1, area.height⟩ : Area).fill { text := some ['│'] } := by
  unfold cursorStrokes
  rw [found]
  simp [Area.fill, Area.stroke, List.map_eq_flatMap]

theorem cursorStrokes_eq_nil {α : Type} [Scalar α] {viewer : Viewer α} (area : Area)
    (missed : viewer.cursorColumn? area.width = none) : viewer.cursorStrokes area = [] := by
  unfold cursorStrokes
  rw [missed]

section Frames

variable {viewer : Viewer Binary64} {width height : Nat}

/-- The cursor is drawn over whatever stands in its column. -/
theorem cursorAt_layers {column : Nat} (found : viewer.cursorColumn? width = some column)
    (inside : column < width) (chart : List Stroke) (footer : String) :
    CursorAt ((Screen.blank width height).draw (viewer.layers width height chart footer)) height
      column := by
  intro row below
  -- Of the parts that come after the cursor there is only the footer, and that is on another line.
  have low : 1 + row < height - 1 := by
    simp only [visibleRows] at below
    omega
  have cursor : changesAt (viewer.cursorStrokes (contentArea width height)) column (1 + row) =
      [{ text := some ['│'] }] := by
    rw [cursorStrokes_eq (contentArea width height) found, changesAt_fill]
    refine if_pos ?_
    simp only [Area.contains, contentArea]
    omega
  have last : changesAt (lineStrokes width (height - 1) footer) column (1 + row) = [] :=
    changesAt_of_elsewhere fun stroke member _ => by
      rw [lineStrokes_row _ _ _ stroke member]
      omega
  have blank : (Screen.blank width height).cell? column (1 + row) = some .blank :=
    cell?_blank inside (by omega)
  rw [cell?_draw, blank, Option.map_some]
  refine ⟨_, rfl, ?_⟩
  rw [layers, changesAt_append, changesAt_append, cursor, last, List.append_nil, Cell.afterAll,
    List.foldl_append]
  rfl

/-- Where all series are aligned, a frame has all its parts. -/
theorem exists_layers (aligned : ∀ one ∈ viewer.series, one.isAligned = true)
    (width height : Nat) :
    ∃ chart footer, viewer.frame width height =
      .ok ((Screen.blank width height).draw (viewer.layers width height chart footer)) := by
  have left := left_chartArea width (viewer.visibleSeries height).length viewer.view.start
    viewer.view.finish
  have leftFinite : Scalar.isFinite plotLeft = true := plotLeft_exact.1
  rw [← left] at leftFinite
  obtain ⟨blocks, drawn, _⟩ := Rows.exists_blocks (Rows.Plot.left_le_right leftFinite)
    (fun one member => aligned one (List.mem_of_mem_drop (List.mem_of_mem_take member)) :
      ∀ one ∈ viewer.visibleSeries height, one.isAligned = true)
  have chart : viewer.chartCommands width height = .ok blocks.flatten := drawn
  obtain ⟨footer, written⟩ : ∃ footer, viewer.footerText = .ok footer := by
    unfold footerText
    split
    next series listed =>
      obtain ⟨bars, returned⟩ := Series.exists_bars (aligned series (List.mem_of_getElem? listed))
      rw [Series.hoverAt, Series.hoverFrom_of_bars _ _ _ _ returned]
      exact ⟨_, rfl⟩
    next => exact ⟨_, rfl⟩
  refine ⟨strokes width (contentArea width height) blocks.flatten, footer, ?_⟩
  simp only [frame, frameStrokes, chart, written, ok_bind]
  rfl

end Frames

/-- Whatever a user does to a viewer, the cursor lies inside the window, and as long as the window
has a length every frame shows it: in its column, down all rows of the chart. Only where the cursor
is as far from the start of the window as the window is long, there is no stroke of it. In exact
arithmetic that is at the right end of the window, and nowhere else. -/
theorem cursor_of_inputs {start finish : Binary64} (ends : FiniteEnds start finish)
    {series : List (Series Binary64)} (aligned : ∀ one ∈ series, one.isAligned = true) {width : Nat}
    (wide : labelColumns < width) (narrow : width ≤ 65535) (height : Nat) (inputs : List Input) :
    let opened := ofSeries series start finish
    ((finish - start).isFinite = true → ∃ shown, opened.takeAll height inputs = .ok shown) ∧
    (∀ shown, opened.takeAll height inputs = .ok shown →
      Scalar.lt 0.0 shown.view.duration = true →
        Scalar.le shown.view.start shown.view.cursor = true ∧
        Scalar.le shown.view.cursor shown.view.finish = true ∧
        Scalar.le 0.0 shown.view.cursorPart = true ∧
        ∃ screen, shown.frame width height = .ok screen ∧
          if Scalar.lt (shown.view.cursor - shown.view.start) shown.view.duration then
            shown.cursorColumn width < width ∧ CursorAt screen height (shown.cursorColumn width)
          else shown.cursorStrokes (contentArea width height) = []) ∧
    ∀ (first last : Rat) (series : List (Series Rat)) (shown : Viewer Rat), first < last →
      (ofSeries series first last).takeAll height inputs = .ok shown →
        shown.cursorColumn? width =
          if shown.view.cursor = shown.view.finish then none
          else some (labelColumns + ⌊shown.view.cursorPart * (width - labelColumns : Nat)⌋₊) := by
  intro opened
  refine ⟨fun finite => ?_, fun shown taken positive => ?_, fun first last series shown ordered
    taken => ?_⟩
  · have range : FullRange start finish :=
      ⟨ends.startFinite, ends.finishFinite, ends.ordered, finite⟩
    exact takeAll_of_fullRange range (View.inRange_ofRange range) height inputs
  · obtain ⟨same, pointed⟩ := pointed_of_takeAll ends taken
    obtain ⟨chart, footer, framed⟩ := exists_layers (same ▸ aligned) width height
    refine ⟨pointed.start_le, pointed.le_finish, zero_le_cursorPart pointed positive, _, framed, ?_⟩
    have decides := cursorPart_lt_one_iff pointed positive
    split
    next before =>
      obtain ⟨found, inside⟩ :=
        cursorColumn?_of_lt pointed positive wide narrow (decides.mpr before)
      exact ⟨inside, cursorAt_layers found inside chart footer⟩
    next reached =>
      exact cursorStrokes_eq_nil (contentArea width height)
        (cursorColumn?_of_not_lt pointed positive narrow (mt decides.mp reached))
  · obtain ⟨_, contained⟩ := kept_of_takeAll (View.Contained first last)
      (fun _ contained performed => contained.perform ordered performed)
      (View.contained_ofRange ordered) taken
    exact cursorColumn?_exact ordered contained wide narrow

/-- A cursor that has been moved into a bar, in a window that has been moved under it. -/
theorem cursor_of_inputs_in_bar :
    let series : List (Series Binary64) :=
      [.ofTrack ⟨"SU", [⟨"SU", 0.0, 1.0, "FETCH_DECODE_INSTRUCTION", "mediumblue"⟩]⟩]
    let inputs := List.replicate 15 (.char ']') ++
      [.char '+', .char '+', .right, .left, .left, .left]
    FiniteEnds (0.0 : Binary64) 1.0 ∧ (∀ one ∈ series, one.isAligned = true) ∧
      labelColumns < 24 ∧ 24 ≤ 65535 ∧
      (∃ shown screen, (ofSeries series 0.0 1.0).takeAll 4 inputs = .ok shown ∧
        Scalar.lt 0.0 shown.view.duration = true ∧ shown.frame 24 4 = .ok screen ∧
        CursorAt screen 4 20) ∧
      (0 : Rat) < 1 ∧ ∃ shown : Viewer Rat, (ofSeries [] 0 1).takeAll 4 inputs = .ok shown ∧
        shown.cursorColumn? 24 = some 20 := by
  intro series inputs
  have ends : FiniteEnds (0.0 : Binary64) 1.0 := ⟨rfl, by decide, by decide⟩
  have aligned : ∀ one ∈ series, one.isAligned = true := by
    simp [series, Series.isAligned_ofTrack]
  have wide : labelColumns < 24 := by decide
  have narrow : 24 ≤ 65535 := by decide
  obtain ⟨runs, shows, exact⟩ := cursor_of_inputs ends aligned wide narrow 4 inputs
  obtain ⟨shown, ran⟩ := runs (by decide +kernel)
  have reached : (match (ofSeries series 0.0 1.0).takeAll 4 inputs with
    | .ok shown => Scalar.lt 0.0 shown.view.duration &&
        Scalar.lt (shown.view.cursor - shown.view.start) shown.view.duration &&
        decide (shown.cursorColumn 24 = 20)
    | .error _ => false) = true := by
    decide +kernel
  simp only [ran, Bool.and_eq_true, decide_eq_true_eq] at reached
  obtain ⟨⟨positive, before⟩, column⟩ := reached
  obtain ⟨_, _, _, screen, framed, drawn⟩ := shows shown ran positive
  rw [if_pos before, column] at drawn
  have exactly : (match (ofSeries ([] : List (Series Rat)) 0 1).takeAll 4 inputs with
    | .ok shown => decide (shown.view.cursor ≠ shown.view.finish ∧
        ⌊shown.view.cursorPart * (24 - labelColumns : Nat)⌋₊ = 4)
    | .error _ => false) = true := by
    decide +kernel
  cases taken : (ofSeries ([] : List (Series Rat)) 0 1).takeAll 4 inputs with
  | error fault => simp [taken] at exactly
  | ok same =>
    simp only [taken, decide_eq_true_eq] at exactly
    refine ⟨ends, aligned, wide, narrow, ⟨shown, screen, ran, positive, framed, drawn.2⟩,
      by norm_num, same, rfl, ?_⟩
    rw [exact 0 1 [] same (by norm_num) taken, if_neg exactly.1, exactly.2]
    rfl

/-- After a cursor has been moved all the way, the window has a length and the cursor is inside,
but no row of the chart has the mark of the cursor. -/
theorem cursor_of_right_end :
    let series : List (Series Binary64) :=
      [.ofTrack ⟨"SU", [⟨"SU", 0.0, 1.0, "FETCH_DECODE_INSTRUCTION", "mediumblue"⟩]⟩]
    let shown : Viewer Binary64 := ⟨series, ⟨0.0, 1.0, 0.0, 1.0, 1.0, 0, 0⟩⟩
    (ofSeries series 0.0 1.0).takeAll 4 (List.replicate 51 (.char ']')) = .ok shown ∧
      Scalar.lt 0.0 shown.view.duration = true ∧
      Scalar.le shown.view.start shown.view.cursor = true ∧
      Scalar.le shown.view.cursor shown.view.finish = true ∧
      ∃ screen, shown.frame 24 4 = .ok screen ∧
        ∀ row < visibleRows 4, '│' ∉ screen.readLine (1 + row) 24 := by
  intro series shown
  have framed : (match shown.frame 24 4 with
    | .ok screen => decide (∀ row < visibleRows 4, '│' ∉ screen.readLine (1 + row) 24)
    | .error _ => false) = true := by
    decide +kernel
  refine ⟨by decide +kernel, by decide +kernel, by decide +kernel, by decide +kernel, ?_⟩
  generalize shown.frame 24 4 = drawn at framed ⊢
  cases drawn with
  | error fault => cases framed
  | ok screen => exact ⟨screen, rfl, of_decide_eq_true framed⟩

end Viewer

end TraceChart.Terminal
