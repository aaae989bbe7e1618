import TraceChart.Proofs.Chart.Window
import TraceChart.Proofs.Terminal.Actions
import TraceChart.Terminal.Viewer

/-!
# Viewers keep the selection in sight

After every input the selected row is among the rows that are shown, and the window starts at a
finite time. This holds even where the ends of the full range are so far apart that its length is no
finite number: an action may fail there, but one that returns has brought the start into the full
range. What a viewer asks for is about a list and a screen, so it is the same in machine words.
-/

namespace TraceChart.Terminal

open Scalar OrderedScalar

variable {α : Type}

/-! ### The window of time -/

variable [Scalar α]

/-- Finite ends of a full range, in order, however far apart. -/
structure FiniteEnds (start finish : α) : Prop where
  startFinite : isFinite start = true
  finishFinite : isFinite finish = true
  ordered : le start finish = true

namespace View

/-- What every part of an action keeps. -/
structure Partway (start finish : α) (rows visible : Nat) (view : View α) : Prop where
  fullStart : view.fullStart = start
  fullFinish : view.fullFinish = finish
  zoomed : le 1.0 view.zoom = true
  inSight : view.InSight rows visible

/-- What holds before and after every action. -/
structure Settled (start finish : α) (rows visible : Nat) (view : View α) : Prop
    extends Partway start finish rows visible view where
  start_le : le start view.start = true
  start_le_finish : le view.start finish = true

theorem clamp_ok {value low high result : α} (clamped : clamp value low high = .ok result) :
    clamp? value low high = some result ∧ le low high = true := by
  unfold clamp at clamped
  split at clamped
  next found =>
    cases clamped
    refine ⟨found, ?_⟩
    by_contra unordered
    simp [clamp?, unordered] at found
  next => cases clamped

theorem Settled.select {start finish : α} {rows visible : Nat} {view : View α}
    (settled : view.Settled start finish rows visible) (delta : Int) :
    (view.select delta rows visible).Settled start finish rows visible := by
  have inSight := settled.inSight.select delta
  unfold View.select at *
  split at inSight
  next empty => simpa only [if_pos empty] using settled
  next filled =>
    rw [if_neg filled]
    exact { settled with inSight := inSight }

variable [OrderedScalar α] {start finish : α} {rows visible : Nat} {view moved : View α}

/-- A move that returns puts any window right, whatever its start. -/
theorem Partway.pan (ends : FiniteEnds start finish) (held : view.Partway start finish rows visible)
    {fraction : α} (panned : view.pan fraction = .ok moved) :
    moved.Settled start finish rows visible := by
  obtain rfl := held.fullStart
  obtain rfl := held.fullFinish
  obtain ⟨brought, cursor, found, taken, rfl⟩ := pan_ok panned
  -- The cursor has been brought into the window, so the window has a start.
  have number : le brought brought = true := number_left (clamp_ok taken).2
  obtain ⟨_, start_le, le_latest⟩ := within_of_clamp? (clamp_ok found).1 number
  have latest : le (larger (view.fullFinish - view.duration) view.fullStart) view.fullFinish =
      true := by
    apply larger_le _ ends.ordered
    intro number
    have length := zero_le_sub ends.startFinite ends.finishFinite ends.ordered
    have nonneg := zero_le_duration held.zoomed length (number_right_of_sub number)
    exact sub_le ends.finishFinite nonneg
  exact { held with
    inSight := ⟨held.inSight.selected_lt, held.inSight.scroll_le, held.inSight.lt_scroll⟩
    start_le := start_le
    start_le_finish := le_trans le_latest latest }

theorem Partway.zoomBy (ends : FiniteEnds start finish)
    (held : view.Partway start finish rows visible) {factor : α}
    (zoomed : view.zoomBy factor = .ok moved) : moved.Settled start finish rows visible := by
  let zoomedView : View α := { view with zoom := larger (view.zoom * factor) 1.0 }
  let centred : View α :=
    { zoomedView with start := view.cursor - zoomedView.duration / 2.0 }
  have kept : centred.Partway start finish rows visible := { held with
    zoomed := le_larger _ (number_left (one_le_two (α := α)))
    inSight := ⟨held.inSight.selected_lt, held.inSight.scroll_le, held.inSight.lt_scroll⟩ }
  exact kept.pan ends zoomed

omit [OrderedScalar α] in
theorem Partway.follow (held : view.Partway start finish rows visible) :
    view.follow.Partway start finish rows visible := by
  obtain ⟨fullStart, fullFinish, zoomed, selected_lt, scroll_le, lt_scroll⟩ := held
  unfold View.follow
  split
  · exact ⟨fullStart, fullFinish, zoomed, selected_lt, scroll_le, lt_scroll⟩
  · split <;> exact ⟨fullStart, fullFinish, zoomed, selected_lt, scroll_le, lt_scroll⟩

theorem Partway.moveCursor (ends : FiniteEnds start finish)
    (held : view.Partway start finish rows visible) {fraction : α}
    (moves : view.moveCursor fraction = .ok moved) : moved.Settled start finish rows visible := by
  obtain ⟨cursor, _, panned⟩ := (bind_ok_iff _ _ _).mp moves
  have pointed : { view with cursor := cursor }.Partway start finish rows visible := { held with
    inSight := ⟨held.inSight.selected_lt, held.inSight.scroll_le, held.inSight.lt_scroll⟩ }
  exact pointed.follow.pan ends panned

end View

/-! ### Runs -/

/-- An action that moves the selection, if at all, among so many rows, of which some are visible. -/
def Action.SelectsAmong (rows visible : Nat) : Action α → Prop
  | .select _ all shown => all = rows ∧ shown = visible
  | _ => True

omit [Scalar α] in
theorem Action.SelectsAmong.isSized {rows visible : Nat} {action : Action α}
    (among : action.SelectsAmong rows visible) (few : rows < 2 ^ 63) (shown : visible < 2 ^ 63) :
    action.IsSized := by
  cases action with
  | select delta all window =>
    obtain ⟨rfl, rfl⟩ := among
    exact ⟨few, shown⟩
  | _ => exact trivial

namespace Viewer

/-- A viewer of a full range on a screen of some height, before and after every input. -/
def Settled (start finish : α) (height : Nat) (viewer : Viewer α) : Prop :=
  viewer.view.Settled start finish viewer.series.length (visibleRows height)

theorem action?_selectsAmong {viewer : Viewer α} {height : Nat} {input : Input} {action : Action α}
    (asked : viewer.action? height input = some action) :
    action.SelectsAmong viewer.series.length (visibleRows height) := by
  unfold action? at asked
  split at asked <;> cases asked <;>
    first | exact trivial | exact ⟨rfl, rfl⟩

/-- No input makes the end of the window over the rows too large for a word. -/
theorem Settled.performInWords_eq {start finish : α} {viewer : Viewer α} {height : Nat}
    (settled : viewer.Settled start finish height) (few : viewer.series.length < 2 ^ 63)
    (low : height < 2 ^ 63) {input : Input} {action : Action α}
    (asked : viewer.action? height input = some action) :
    viewer.view.performInWords action = viewer.view.perform action := by
  have shown : visibleRows height < 2 ^ 63 := Nat.lt_of_le_of_lt (Nat.sub_le _ _) low
  have sized := (action?_selectsAmong asked).isSized few shown
  have scrolled : viewer.view.scroll < 2 ^ 63 :=
    (settled.inSight.scroll_le.trans_lt settled.inSight.selected_lt).trans few
  exact View.performInWords_of_not_overflows sized.inWords (sized.not_overflows scrolled)

variable [OrderedScalar α] {start finish : α} {height : Nat} {viewer next : Viewer α}

theorem Settled.take (ends : FiniteEnds start finish) (settled : viewer.Settled start finish height)
    {input : Input} (taken : viewer.take height input = .ok next) :
    next.series = viewer.series ∧ next.Settled start finish height := by
  unfold Viewer.take at taken
  split at taken
  next action asked =>
    have among := action?_selectsAmong asked
    obtain ⟨view, performed, returned⟩ := (bind_ok_iff _ _ _).mp taken
    cases returned
    refine ⟨rfl, ?_⟩
    cases action with
    | pan fraction => exact settled.toPartway.pan ends performed
    | zoom factor => exact settled.toPartway.zoomBy ends performed
    | moveCursor fraction => exact settled.toPartway.moveCursor ends performed
    | select delta rows visible =>
      obtain ⟨rfl, rfl⟩ := among
      cases performed
      exact settled.select delta
  next =>
    cases taken
    exact ⟨rfl, settled⟩

theorem Settled.takeAll (ends : FiniteEnds start finish)
    (settled : viewer.Settled start finish height) {inputs : List Input}
    (taken : viewer.takeAll height inputs = .ok next) :
    next.series = viewer.series ∧ next.Settled start finish height := by
  induction inputs generalizing viewer with
  | nil =>
    cases taken
    exact ⟨rfl, settled⟩
  | cons input inputs ih =>
    unfold Viewer.takeAll at taken
    split at taken
    · cases taken
      exact ⟨rfl, settled⟩
    -- A run that returns has returned from its first input.
    · obtain ⟨between, first, rest⟩ := (bind_ok_iff _ _ _).mp taken
      obtain ⟨same, settles⟩ := settled.take ends first
      obtain ⟨still, ended⟩ := ih settles rest
      exact ⟨still.trans same, ended⟩

theorem settled_ofSeries (ends : FiniteEnds start finish) {series : List (Series α)}
    (filled : series ≠ []) (tall : 3 ≤ height) :
    (ofSeries series start finish).Settled start finish height := by
  have rows : 0 < series.length := List.length_pos_iff.mpr filled
  exact {
    fullStart := rfl
    fullFinish := rfl
    zoomed := number_left (one_le_two (α := α))
    inSight := ⟨rows, Nat.le_refl 0, by simp only [ofSeries, View.ofRange, visibleRows]; omega⟩
    start_le := number_of_finite ends.startFinite
    start_le_finish := ends.ordered }

end Viewer

/-! ### Viewers of timelines -/

/-- Whatever the intervals, a window has finite ends in order. -/
theorem finiteEnds_window (timeline : Timeline Binary64) :
    FiniteEnds timeline.window.1 timeline.window.2 where
  startFinite := timeline.window_start_finite
  finishFinite := timeline.window_ordered.1
  ordered := timeline.window_ordered.2

namespace Viewer

theorem action?_isFinite {viewer : Viewer Binary64} {height : Nat} {input : Input}
    {action : Action Binary64} (asked : viewer.action? height input = some action) :
    action.IsFinite := by
  unfold action? at asked
  split at asked <;> cases asked <;>
    first | exact trivial | (simp only [Action.IsFinite]; decide +kernel)

/-- Where the full range has a finite length, every input is taken. -/
theorem takeAll_of_fullRange {start finish : Binary64} (range : FullRange start finish)
    {viewer : Viewer Binary64} (within : viewer.view.InRange start finish) (height : Nat)
    (inputs : List Input) : ∃ last, viewer.takeAll height inputs = .ok last := by
  induction inputs generalizing viewer with
  | nil => exact ⟨viewer, rfl⟩
  | cons input inputs ih =>
    unfold Viewer.takeAll Viewer.take
    split
    · exact ⟨viewer, rfl⟩
    · split
      next action asked =>
        obtain ⟨view, performed, inside⟩ := within.perform range (action?_isFinite asked)
        obtain ⟨last, rest⟩ := @ih { viewer with view := view } inside
        exact ⟨last, by rw [performed]; exact rest⟩
      next => exact ih within

end Viewer

end TraceChart.Terminal
