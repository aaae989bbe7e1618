import TraceChart.Chart.Drawing
import TraceChart.Chart.Series

/-!
The rows of a chart: one for each series from the top down, as long as they begin above the bottom
of their area. The gutter at the left holds the name of the track; the rest of the width is the
plot, onto which the window of time is mapped. Bars outside the window are left out, and bars that
reach out of it are cut.
-/

namespace TraceChart.Rows

variable {α : Type} [Scalar α]

def rowHeight : α := 24.0
def barInset : α := 4.0
def labelPadding : α := 6.0
def fontSize : α := 11.0

def height (count : Nat) : α :=
  Scalar.ofNat count * rowHeight

/-- A window of time laid over the width of a plot. -/
structure Plot (α : Type) where
  left : α
  width : α
  start : α
  /-- Pixels for each second; none where the window is empty. -/
  scale : α

namespace Plot

def ofArea (area : Rect α) (gutter start finish : α) : Plot α :=
  let width := Scalar.larger (area.width - gutter) 0.0
  let duration := finish - start
  { left := area.x + gutter
    width := width
    start := start
    scale := if Scalar.lt 0.0 duration then width / duration else 0.0 }

def right (plot : Plot α) : α :=
  plot.left + plot.width

def position (plot : Plot α) (time : α) : α :=
  plot.left + (time - plot.start) * plot.scale

end Plot

/-- The rectangle of a bar, unless the bar lies wholly to one side of the plot. -/
def barCommand? (plot : Plot α) (top : α) (bar : Bar α) : Option (Command α) :=
  let start := plot.position bar.base
  let finish := plot.position bar.finish
  if Scalar.lt finish plot.left || Scalar.lt plot.right start then none
  else
    -- An end that is no number lies to neither side, and takes the edge of the plot.
    let start := Scalar.larger start plot.left
    let finish := Scalar.smaller finish plot.right
    let fill := match bar.color with
      | some color => Paint.named color
      | none => Paint.token .placeholder
    some (.rect ⟨start, top + barInset, finish - start, rowHeight - 2.0 * barInset⟩ fill none
      (some bar.label) (some bar.hover))

/-- The mark of a placeholder, at time zero or at the nearer end of the plot. -/
def placeholderCommand (plot : Plot α) (top : α) : Except Fault (Command α) :=
  match Scalar.clamp? (plot.position 0.0) plot.left plot.right with
  | some x =>
    .ok (.rect ⟨x, top + barInset, 0.0, rowHeight - 2.0 * barInset⟩ (.token .placeholder) none
      none none)
  | none => .error .unorderedRange

/-- What stands at the front of every row: the lane and the name of the track. -/
def laneCommands (area : Rect α) (top : α) (name : String) : List (Command α) :=
  [.rect ⟨area.x, top, area.width, rowHeight⟩ (.token .laneBackground) (some .laneBorder) none
      none,
    .text ⟨area.x + labelPadding, top + rowHeight * 0.65⟩ name (.token .laneHeaderText) fontSize
      .left]

def rowCommands (plot : Plot α) (area : Rect α) (top : α) (series : Series α) :
    Except Fault (List (Command α)) := do
  let placeholder ←
    if series.placeholder then do
      let command ← placeholderCommand plot top
      pure [command]
    else pure []
  let bars ← series.bars
  pure (.beginGroup s!"track-{series.track}" (some series.track) ::
    laneCommands area top series.track ++ placeholder ++
      bars.filterMap (barCommand? plot top) ++ [.endGroup])

def top (area : Rect α) (row : Nat) : α :=
  area.y + Scalar.ofNat row * rowHeight

/-- The rows from an index on, up to the first that would begin at or below the bottom. -/
def commandsFrom (plot : Plot α) (area : Rect α) (row : Nat) :
    List (Series α) → Except Fault (List (Command α))
  | [] => pure []
  | series :: rest =>
    if Scalar.le area.bottom (top area row) then pure []
    else do
      let first ← rowCommands plot area (top area row) series
      let others ← commandsFrom plot area (row + 1) rest
      pure (first ++ others)

def commands (series : List (Series α)) (area : Rect α) (gutter start finish : α) :
    Except Fault (List (Command α)) :=
  commandsFrom (Plot.ofArea area gutter start finish) area 0 series

end TraceChart.Rows
