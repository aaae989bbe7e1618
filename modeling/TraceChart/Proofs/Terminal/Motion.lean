import Mathlib
import TraceChart.Proofs.Terminal.View

/-!
# What actions do to the window

In exact arithmetic the window never reaches out of the full range, and every action can be told in
one line. An action sets what it is about and leaves the rest to a move of the window, which brings
its start into the full range and takes the cursor along. Where the cursor lies inside the window
that results, that move takes nothing back: a change of zoom keeps the time at the cursor, and a
cursor that is moved stays where it was put.
-/

namespace TraceChart.Terminal

open Exact

theorem clamp_exact (value : Rat) {low high : Rat} (ordered : low ≤ high) :
    clamp value low high = .ok (max low (min value high)) := by
  simp only [clamp, Scalar.clamp?, le_eq, lt_eq, decide_eq_true_eq, if_pos ordered]
  split
  next below => rw [min_eq_left (by linarith), max_eq_left below.le]
  next above =>
    rw [not_lt] at above
    split
    next beyond => rw [min_eq_right beyond.le, max_eq_right ordered]
    next within => rw [min_eq_left (not_lt.mp within), max_eq_right above]

namespace View

/-- A view that actions lead to from the view of a full range. -/
def Reachable {α : Type} [Scalar α] (start finish : α) (view : View α) : Prop :=
  ∃ actions : List (Action α), actions.foldlM View.perform (.ofRange start finish) = .ok view

/-- A view of a full range that is zoomed into, not out of, whatever its window and cursor. -/
structure Scaled (start finish : Rat) (view : View Rat) : Prop where
  fullStart : view.fullStart = start
  fullFinish : view.fullFinish = finish
  zoomed : 1 ≤ view.zoom

/-- A window inside the full range, and a cursor inside the window. -/
structure Contained (start finish : Rat) (view : View Rat) : Prop
    extends Scaled start finish view where
  start_le : start ≤ view.start
  finish_le : view.finish ≤ finish
  start_le_cursor : view.start ≤ view.cursor
  cursor_le_finish : view.cursor ≤ view.finish

/-- The view with a window that starts as near to some time as the full range allows. The cursor is
taken along where it would be left behind. -/
def brought (view : View Rat) (target : Rat) : View Rat :=
  let start := max view.fullStart (min target (view.fullFinish - view.duration))
  { view with start := start, cursor := max start (min view.cursor (start + view.duration)) }

variable {start finish : Rat} {view : View Rat}

@[simp] theorem duration_brought (view : View Rat) (target : Rat) :
    (view.brought target).duration = view.duration := rfl

theorem cursor_brought (view : View Rat) (target : Rat) :
    (view.brought target).cursor =
      max (view.brought target).start
        (min view.cursor ((view.brought target).start + view.duration)) := rfl

theorem finish_eq (view : View Rat) : view.finish = view.start + view.duration := rfl

theorem Scaled.duration_eq (scaled : view.Scaled start finish) :
    view.duration = (finish - start) / view.zoom := by
  rw [duration, scaled.fullStart, scaled.fullFinish]

theorem Scaled.start_brought (scaled : view.Scaled start finish) (target : Rat) :
    (view.brought target).start = max start (min target (finish - view.duration)) := by
  rw [brought, scaled.fullStart, scaled.fullFinish]

/-- A window inside the full range with the cursor inside it is where it is to be. -/
theorem Contained.brought_eq (contained : view.Contained start finish) :
    view.brought view.start = view := by
  obtain rfl := contained.fullStart
  obtain rfl := contained.fullFinish
  have latest := contained.finish_le
  have ends := contained.cursor_le_finish
  rw [finish_eq] at latest ends
  simp only [brought, min_eq_left (show view.start ≤ view.fullFinish - view.duration by linarith),
    max_eq_right contained.start_le, min_eq_left ends, max_eq_right contained.start_le_cursor]

/-- A window that has the cursor inside is not shifted. -/
theorem start_of_within {cursor : Rat} (before : view.start ≤ cursor)
    (behind : cursor ≤ view.finish) :
    max (cursor - view.duration) (min view.start cursor) = view.start := by
  rw [finish_eq] at behind
  rw [min_eq_left before, max_eq_right (by linarith)]

/-- No other start of a window of the same length with the cursor inside is nearer. -/
theorem shift_le {cursor other : Rat} (positive : 0 < view.duration) (before : other ≤ cursor)
    (behind : cursor ≤ other + view.duration) :
    |max (cursor - view.duration) (min view.start cursor) - view.start| ≤ |other - view.start| := by
  rcases le_total view.start cursor with after | early
  · rw [min_eq_left after]
    rcases le_total (cursor - view.duration) view.start with within | late
    · rw [max_eq_right within, sub_self, abs_zero]
      exact abs_nonneg _
    · rw [max_eq_left late, abs_of_nonneg (by linarith)]
      exact (show cursor - view.duration - view.start ≤ other - view.start by linarith).trans
        (le_abs_self _)
  · rw [min_eq_right early, max_eq_right (by linarith), abs_sub_comm, abs_of_nonneg (by linarith),
      abs_sub_comm]
    exact (show view.start - cursor ≤ view.start - other by linarith).trans (le_abs_self _)

/-- What a change of zoom makes of a view before the window is moved. -/
def rescaled (view : View Rat) (factor : Rat) : View Rat :=
  { view with zoom := max (view.zoom * factor) 1 }

theorem Scaled.rescaled (scaled : view.Scaled start finish) (factor : Rat) :
    (view.rescaled factor).Scaled start finish :=
  { scaled with zoomed := le_max_right _ _ }

/-- A cursor outside the window takes the nearer end of it along. -/
theorem follow_eq (positive : 0 < view.duration) :
    view.follow =
      { view with start := max (view.cursor - view.duration) (min view.start view.cursor) } := by
  simp only [follow, lt_eq, decide_eq_true_eq, finish_eq]
  split
  next before => rw [min_eq_right before.le, max_eq_right (by linarith)]
  next notBefore =>
    rw [not_lt] at notBefore
    rw [min_eq_left notBefore]
    split
    next behind => rw [max_eq_left (by linarith)]
    next within => rw [max_eq_right (by linarith)]

theorem Contained.select (contained : view.Contained start finish) (delta : Int)
    (rows visible : Nat) : (view.select delta rows visible).Contained start finish := by
  unfold View.select
  split
  · exact contained
  · exact ⟨⟨contained.fullStart, contained.fullFinish, contained.zoomed⟩, contained.start_le,
      contained.finish_le, contained.start_le_cursor, contained.cursor_le_finish⟩

section Ordered

variable (ordered : start < finish)

include ordered

theorem Scaled.zero_lt_duration (scaled : view.Scaled start finish) : 0 < view.duration := by
  rw [scaled.duration_eq]
  exact div_pos (by linarith) (by linarith [scaled.zoomed])

theorem Scaled.duration_le (scaled : view.Scaled start finish) :
    view.duration ≤ finish - start := by
  rw [scaled.duration_eq]
  exact div_le_self (by linarith) scaled.zoomed

/-! ### Moves of the window -/

theorem Scaled.pan_eq (scaled : view.Scaled start finish) (fraction : Rat) :
    view.pan fraction = .ok (view.brought (view.start + view.duration * fraction)) := by
  have length := scaled.duration_le ordered
  have positive := scaled.zero_lt_duration ordered
  obtain rfl := scaled.fullStart
  obtain rfl := scaled.fullFinish
  have room : view.fullStart ≤ view.fullFinish - view.duration := by linarith
  have brings := clamp_exact (view.start + view.duration * fraction) room
  unfold brought
  simp only [pan, larger_eq, max_eq_left room, brings, ok_bind]
  generalize max view.fullStart (min _ _) = moved
  have takes := clamp_exact view.cursor (show moved ≤ moved + view.duration by linarith)
  have window : ({ view with start := moved } : View Rat).finish = moved + view.duration := rfl
  rw [window, takes]
  rfl

/-- A move by nothing brings the window into the full range. -/
theorem Scaled.pan_zero_eq (scaled : view.Scaled start finish) :
    view.pan 0.0 = .ok (view.brought view.start) := by
  rw [scaled.pan_eq ordered, zero_eq, mul_zero, add_zero]

theorem Scaled.brought (scaled : view.Scaled start finish) (target : Rat) :
    (view.brought target).Contained start finish := by
  have length := scaled.duration_le ordered
  have positive := scaled.zero_lt_duration ordered
  have begins := scaled.start_brought target
  exact {
    fullStart := scaled.fullStart
    fullFinish := scaled.fullFinish
    zoomed := scaled.zoomed
    start_le := begins ▸ le_max_left _ _
    finish_le := by
      have latest : (view.brought target).start ≤ finish - view.duration :=
        begins ▸ max_le (by linarith) (min_le_right _ _)
      rw [finish_eq, duration_brought]
      linarith
    start_le_cursor := le_max_left _ _
    cursor_le_finish := by
      rw [finish_eq, duration_brought, cursor_brought]
      exact max_le (by linarith) (min_le_right _ _) }

/-- Where the cursor lies inside the full range, and the window is to start half of its length
before it, the window has the cursor and need not take it along. -/
theorem Scaled.cursor_centred (scaled : view.Scaled start finish)
    (start_le_cursor : start ≤ view.cursor) (cursor_le_finish : view.cursor ≤ finish) :
    (view.brought (view.cursor - view.duration / 2)).cursor = view.cursor := by
  have positive := scaled.zero_lt_duration ordered
  have begins := scaled.start_brought (view.cursor - view.duration / 2)
  have before : (view.brought (view.cursor - view.duration / 2)).start ≤ view.cursor := by
    rw [begins]
    exact max_le start_le_cursor ((min_le_left _ _).trans (by linarith))
  have after : view.cursor ≤
      (view.brought (view.cursor - view.duration / 2)).start + view.duration := by
    rw [begins, ← sub_le_iff_le_add]
    exact le_max_of_le_right (le_min (by linarith) (by linarith))
  rw [cursor_brought, min_eq_left after, max_eq_right before]

/-! ### Actions -/

/-- The window does not become longer than the full range. -/
theorem Scaled.duration_rescaled (scaled : view.Scaled start finish)
    {factor : Rat} (positive : 0 < factor) :
    (view.rescaled factor).duration = min (finish - start) (view.duration / factor) := by
  have zoom : 0 < view.zoom * factor := mul_pos (by linarith [scaled.zoomed]) positive
  have length : 0 < finish - start := by linarith
  rw [(scaled.rescaled factor).duration_eq, scaled.duration_eq, div_div]
  change (finish - start) / max (view.zoom * factor) 1 = _
  rcases le_total (view.zoom * factor) 1 with out | into
  · rw [max_eq_right out, div_one, min_eq_left]
    rw [le_div_iff₀ zoom]
    exact mul_le_of_le_one_right length.le out
  · rw [max_eq_left into, min_eq_right]
    exact div_le_self length.le into

/-- A change of zoom puts the cursor into the middle of the window, as far as the full range allows,
and does not move it. -/
theorem Contained.zoomBy_eq (contained : view.Contained start finish) (factor : Rat) :
    ∃ zoomed, view.zoomBy factor = .ok zoomed ∧ zoomed.Contained start finish ∧
      zoomed.cursor = view.cursor ∧ zoomed.duration = (view.rescaled factor).duration := by
  have scaled := contained.toScaled.rescaled factor
  let centred : View Rat :=
    { view.rescaled factor with start := view.cursor - (view.rescaled factor).duration / 2 }
  have kept : centred.Scaled start finish := { scaled with }
  have zooms : view.zoomBy factor = centred.pan 0.0 := by
    have two : (2.0 : Rat) = 2 := by norm_num
    rw [zoomBy, larger_eq, one_eq, two]
    rfl
  have start_le_cursor := contained.start_le.trans contained.start_le_cursor
  have cursor_le_finish := contained.cursor_le_finish.trans contained.finish_le
  refine ⟨centred.brought centred.start, ?_, kept.brought ordered _, ?_, rfl⟩
  · rw [zooms, kept.pan_zero_eq ordered]
  · exact kept.cursor_centred ordered start_le_cursor cursor_le_finish

/-- A cursor is moved within the full range and stays where it was put. The window follows it. -/
theorem Contained.moveCursor_eq (contained : view.Contained start finish) (fraction : Rat) :
    let cursor := max start (min (view.cursor + view.duration * fraction) finish)
    let moved : View Rat := { view with
      start := max (cursor - view.duration) (min view.start cursor)
      cursor := cursor }
    view.moveCursor fraction = .ok moved ∧ moved.Contained start finish := by
  intro cursor moved
  have positive := contained.toScaled.zero_lt_duration ordered
  have latest := contained.finish_le
  rw [finish_eq] at latest
  have start_le_cursor : start ≤ cursor := le_max_left _ _
  have cursor_le_finish : cursor ≤ finish := max_le ordered.le (min_le_right _ _)
  have inside : moved.Contained start finish := {
    fullStart := contained.fullStart
    fullFinish := contained.fullFinish
    zoomed := contained.zoomed
    start_le := le_max_of_le_right (le_min contained.start_le start_le_cursor)
    finish_le := by
      have room : moved.start ≤ finish - view.duration :=
        max_le (by linarith) ((min_le_left _ _).trans (by linarith))
      have window : moved.finish = moved.start + view.duration := rfl
      linarith
    start_le_cursor := max_le (by linarith) (min_le_right _ _)
    cursor_le_finish := by
      have reach : cursor - view.duration ≤ moved.start := le_max_left _ _
      have window : moved.finish = moved.start + view.duration := rfl
      rw [window]
      linarith }
  refine ⟨?_, inside⟩
  have placed : clamp (view.cursor + view.duration * fraction) view.fullStart view.fullFinish =
      .ok cursor := by
    rw [contained.fullStart, contained.fullFinish]
    exact clamp_exact _ ordered.le
  have follows : ({ view with cursor := cursor } : View Rat).follow = moved :=
    @follow_eq { view with cursor := cursor } positive
  rw [moveCursor, placed, ok_bind, follows, inside.toScaled.pan_zero_eq ordered,
    inside.brought_eq]

/-! ### Runs -/

theorem Contained.perform (contained : view.Contained start finish) {action : Action Rat}
    {next : View Rat} (performed : view.perform action = .ok next) :
    next.Contained start finish := by
  cases action with
  | pan fraction =>
    rw [View.perform, contained.toScaled.pan_eq ordered] at performed
    cases performed
    exact contained.toScaled.brought ordered _
  | zoom factor =>
    obtain ⟨zoomed, zooms, inside, _⟩ := contained.zoomBy_eq ordered factor
    rw [View.perform, zooms] at performed
    cases performed
    exact inside
  | moveCursor fraction =>
    obtain ⟨moves, inside⟩ := contained.moveCursor_eq ordered fraction
    rw [View.perform, moves] at performed
    cases performed
    exact inside
  | select delta rows visible =>
    cases performed
    exact contained.select delta rows visible

theorem contained_ofRange : (ofRange start finish).Contained start finish := by
  have window : (ofRange start finish).finish = finish := by
    rw [finish_eq, duration]
    change start + (finish - start) / 1.0 = finish
    rw [one_eq]
    ring
  exact {
    fullStart := rfl
    fullFinish := rfl
    zoomed := one_eq.ge
    start_le := le_rfl
    finish_le := window.le
    start_le_cursor := le_rfl
    cursor_le_finish := ordered.le.trans window.ge }

theorem Contained.performAll (contained : view.Contained start finish)
    {actions : List (Action Rat)} {last : View Rat}
    (performed : actions.foldlM View.perform view = .ok last) : last.Contained start finish := by
  induction actions generalizing view with
  | nil =>
    cases performed
    exact contained
  | cons action actions ih =>
    rw [List.foldlM_cons] at performed
    obtain ⟨next, first, rest⟩ := (bind_ok_iff _ _ _).mp performed
    exact ih (contained.perform ordered first) rest

theorem Reachable.contained (reached : view.Reachable start finish) :
    view.Contained start finish := by
  obtain ⟨actions, performed⟩ := reached
  exact (contained_ofRange ordered).performAll ordered performed

/-- Whatever has been done to the view of a full range, the window lies inside it. A change of zoom
keeps the time at the cursor and makes the window shorter by the factor, or as long as the full
range. A move of the cursor puts it as far as the full range allows, and shifts the window by the
least amount that brings the cursor in, if it is outside. A move of the window keeps its length and
goes as far as the full range allows. -/
theorem moves_of_reachable (reached : view.Reachable start finish) :
    view.finish ≤ finish ∧
    (∀ factor, 0 < factor → ∃ zoomed, view.zoomBy factor = .ok zoomed ∧
      zoomed.cursor = view.cursor ∧
      zoomed.duration = min (finish - start) (view.duration / factor)) ∧
    (∀ fraction, ∃ moved, view.moveCursor fraction = .ok moved ∧
      moved.cursor = max start (min (view.cursor + fraction * view.duration) finish) ∧
      moved.duration = view.duration ∧
      (view.start ≤ moved.cursor → moved.cursor ≤ view.finish → moved.start = view.start) ∧
      moved.start ≤ moved.cursor ∧ moved.cursor ≤ moved.finish ∧
      ∀ other, other ≤ moved.cursor → moved.cursor ≤ other + view.duration →
        |moved.start - view.start| ≤ |other - view.start|) ∧
    ∀ fraction, ∃ panned, view.pan fraction = .ok panned ∧
      panned.duration = view.duration ∧
      panned.start =
        max start (min (view.start + fraction * view.duration) (finish - view.duration)) := by
  have contained := reached.contained ordered
  refine ⟨contained.finish_le, ?_, ?_, ?_⟩
  · intro factor positive
    obtain ⟨zoomed, zooms, _, cursor, duration⟩ := contained.zoomBy_eq ordered factor
    exact ⟨zoomed, zooms, cursor,
      duration.trans (contained.toScaled.duration_rescaled ordered positive)⟩
  · intro fraction
    obtain ⟨moves, inside⟩ := contained.moveCursor_eq ordered fraction
    refine ⟨_, moves, by rw [mul_comm], rfl, ?_, inside.start_le_cursor, inside.cursor_le_finish,
      fun other before behind => ?_⟩
    · exact start_of_within
    · exact shift_le (contained.toScaled.zero_lt_duration ordered) before behind
  · intro fraction
    refine ⟨_, contained.toScaled.pan_eq ordered fraction, rfl, ?_⟩
    rw [contained.toScaled.start_brought, mul_comm]

end Ordered

/-- A window at the end of its range with the cursor on the end: a change of zoom keeps the cursor
there, and a move of the cursor by two windows takes the window along. -/
theorem moves_of_reachable_at_finish :
    let view : View Rat := ⟨0, 10, 15 / 2, 4, 10, 0, 0⟩
    (0 : Rat) < 10 ∧ view.Reachable 0 10 ∧
      (∃ zoomed, view.zoomBy 2 = .ok zoomed ∧ zoomed.cursor = 10 ∧ zoomed.duration = 5 / 4) ∧
      ∃ moved, view.moveCursor (-2) = .ok moved ∧ moved.cursor = 5 ∧ moved.start ≤ 5 ∧
        5 ≤ moved.finish := by
  intro view
  have reached : view.Reachable 0 10 := ⟨[.moveCursor 1, .zoom 4], by decide +kernel⟩
  have length : view.duration = 5 / 2 := by decide +kernel
  obtain ⟨_, zooms, moves, _⟩ := moves_of_reachable (by norm_num) reached
  obtain ⟨zoomed, changed, kept, duration⟩ := zooms 2 (by norm_num)
  obtain ⟨moved, ran, cursor, _, _, before, behind, _⟩ := moves (-2)
  have five : moved.cursor = 5 := by
    rw [cursor, length]
    norm_num [view]
  refine ⟨by norm_num, reached, ⟨zoomed, changed, kept, ?_⟩, moved, ran, five, five ▸ before,
    five ▸ behind⟩
  rw [duration, length]
  norm_num

end View

end TraceChart.Terminal
