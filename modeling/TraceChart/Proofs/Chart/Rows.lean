import TraceChart.Chart.Rows
import TraceChart.Proofs.Chart.Series
import TraceChart.Proofs.Number.Order

/-!
# Rows keep out of the gutter

Whatever the window, nothing that stands for an interval begins to the left of the plot. A bar takes
the left edge where its start lies before it, or is no number at all. A placeholder is brought into
the plot, which needs that its position is a number.
-/

namespace TraceChart.Rows

open Scalar OrderedScalar

variable {α : Type} [Scalar α]

/-- A rectangle that begins at some place or to the right of it. -/
def BeginsAfter (left : α) : Command α → Prop
  | .rect rect _ _ _ _ => le left rect.x = true
  | _ => False

variable [OrderedScalar α]

theorem Plot.left_le_right {area : Rect α} {gutter start finish : α}
    (finite : isFinite (Plot.ofArea area gutter start finish).left = true) :
    le (Plot.ofArea area gutter start finish).left
      (Plot.ofArea area gutter start finish).right = true :=
  le_add finite (le_larger _ (number_of_finite finite_zero))

/-- Time zero has a place where seconds have a finite length. -/
theorem Plot.number_zero {plot : Plot α} (left : isFinite plot.left = true)
    (start : isFinite plot.start = true) (scale : isFinite plot.scale = true) :
    le (plot.position 0.0) (plot.position 0.0) = true :=
  number_add left (number_mul (finite_zero_sub start) scale)

theorem placeholderCommand_of_number {plot : Plot α} (ordered : le plot.left plot.right = true)
    (number : le (plot.position 0.0) (plot.position 0.0) = true) (top : α) :
    ∃ rect, placeholderCommand plot top = .ok (.rect rect (.token .placeholder) none none none) ∧
      le plot.left rect.x = true := by
  obtain ⟨x, clamped, after, _⟩ := clamp?_of_number number ordered
  exact ⟨⟨x, top + barInset, 0.0, rowHeight - 2.0 * barInset⟩,
    by simp [placeholderCommand, clamped], after⟩

theorem beginsAfter_of_barCommand {plot : Plot α} (number : le plot.left plot.left = true) {top : α}
    {bar : Bar α} {command : Command α} (drawn : barCommand? plot top bar = some command) :
    BeginsAfter plot.left command := by
  unfold barCommand? at drawn
  dsimp only at drawn
  split at drawn
  · cases drawn
  · cases drawn
    exact le_larger _ number

/-- A row is the lane and the name of its track, and then marks that begin in the plot. -/
theorem rowCommands_ofTrack {plot : Plot α} (ordered : le plot.left plot.right = true)
    (number : le (plot.position 0.0) (plot.position 0.0) = true) (area : Rect α) (top : α)
    (track : Track α) : ∃ marks, rowCommands plot area top (.ofTrack track) =
        .ok (.beginGroup s!"track-{track.name}" (some track.name) ::
          laneCommands area top track.name ++ marks ++ [.endGroup]) ∧
      ∀ command ∈ marks, BeginsAfter plot.left command := by
  obtain ⟨rect, placed, after⟩ := placeholderCommand_of_number ordered number top
  let bars := (track.intervals.map Interval.bar).filterMap (barCommand? plot top)
  have drawn : ∀ command ∈ bars, BeginsAfter plot.left command := by
    intro command member
    obtain ⟨bar, _, found⟩ := List.mem_filterMap.mp member
    exact beginsAfter_of_barCommand (number_left ordered) found
  simp only [rowCommands, Series.placeholder_ofTrack, Series.track_ofTrack, Series.bars_ofTrack,
    placed, ok_bind, pure_eq_ok]
  cases track.intervals.isEmpty with
  | true =>
    refine ⟨.rect rect (.token .placeholder) none none none :: bars, ?_, ?_⟩
    · simp [bars]
    · exact List.forall_mem_cons.mpr ⟨after, drawn⟩
  | false => exact ⟨bars, by simp [bars], drawn⟩

end TraceChart.Rows
