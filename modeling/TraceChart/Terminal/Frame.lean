import TraceChart.Terminal.Canvas
import TraceChart.Terminal.Viewer

/-!
Frames: what a viewer shows on a screen. The first line is a header, the last one a footer about
the selected track, and the rows of the chart stand between them. Later parts are drawn over
earlier ones.
-/

namespace TraceChart.Terminal

def barChange : Change :=
  { ink := some .white, ground := some .darkGray }

/-- A line of text across a screen, cut at the right. A cluster that is wider than the screen is
left out. Covered cells stay as they are. -/
def lineStrokes (width row : Nat) (text : String) : List Stroke :=
  let area : Area := ⟨0, row, width, 1⟩
  let shown := (clusters (firstLine text.toList)).filter fun cluster => cluster.columns ≤ width
  area.fill barChange ++ area.write 0 none {} 0 (fitting width shown)

/-- The part of a screen that rows are drawn in. -/
def contentArea (width height : Nat) : Area :=
  ⟨0, 1, width, visibleRows height⟩

namespace Viewer

variable {α : Type}

/-- The series that a screen has room for. -/
def visibleSeries (viewer : Viewer α) (height : Nat) : List (Series α) :=
  (viewer.series.drop viewer.view.scroll).take (visibleRows height)

/-- The name of the selected track in another color, where its row is in sight. -/
def highlightStrokes (viewer : Viewer α) (area : Area) : List Stroke :=
  let row := viewer.view.selected - viewer.view.scroll
  if viewer.view.scroll ≤ viewer.view.selected ∧ row < area.height then
    (List.range (min labelColumns area.width)).map fun column =>
      area.stroke column row { ink := some (Color.ofToken .selectionHighlight) }
  else []

variable [Scalar α]

def timeText (time : α) : String :=
  Scalar.fixedText 6 time ++ "s"

def headerText (viewer : Viewer α) : String :=
  s!" traceplot — {viewer.series.length} tracks | {timeText viewer.view.start} – " ++
    s!"{timeText viewer.view.finish} | ←→ pan  [ ] cursor  ↑↓ track  +/- zoom  q quit "

/-- The selected track, the time of the cursor, and what the track does at that time. -/
def footerText (viewer : Viewer α) : Except Fault String :=
  match viewer.series[viewer.view.selected]? with
  | some series => do
    let hover ← series.hoverAt viewer.view.cursor
    let shown := hover.getD "-"
    pure s!" {series.track} @ {timeText viewer.view.cursor}  {shown}"
  | none => .ok " no tracks"

/-- The rows of the chart, laid out as if cells were made of pixels. -/
def chartCommands (viewer : Viewer α) (width height : Nat) :
    Except Fault (List (Command α)) :=
  let visible := viewer.visibleSeries height
  let area : Rect α := ⟨0.0, 0.0, Scalar.ofNat width * cellWidth, Rows.height visible.length⟩
  Rows.commands visible area (Scalar.ofNat labelColumns * cellWidth) viewer.view.start
    viewer.view.finish

/-- The column of the cursor, where it falls onto the screen. -/
def cursorColumn? (viewer : Viewer α) (width : Nat) : Option Nat :=
  let part := (viewer.view.cursor - viewer.view.start) / viewer.view.duration
  -- The part is no number where the window has no length, and then the cursor is not shown.
  if Scalar.le 0.0 part && Scalar.le part 1.0 then
    let plot : α := Scalar.ofNat (width - labelColumns)
    let column := labelColumns + cells (Scalar.truncate (part * plot))
    if column < width then some column else none
  else none

def cursorStrokes (viewer : Viewer α) (area : Area) : List Stroke :=
  match viewer.cursorColumn? area.width with
  | some column =>
    (List.range area.height).map fun row => area.stroke column row { text := some ['│'] }
  | none => []

/-- All strokes of a frame, in the order in which they are drawn. -/
def frameStrokes (viewer : Viewer α) (width height : Nat) : Except Fault (List Stroke) := do
  let area := contentArea width height
  let commands ← viewer.chartCommands width height
  let footer ← viewer.footerText
  pure (lineStrokes width 0 viewer.headerText ++ area.fill { ground := some .black } ++
    strokes width area commands ++ viewer.highlightStrokes area ++ viewer.cursorStrokes area ++
    lineStrokes width (height - 1) footer)

def frame (viewer : Viewer α) (width height : Nat) : Except Fault Screen := do
  let strokes ← viewer.frameStrokes width height
  pure ((Screen.blank width height).draw strokes)

end Viewer

end TraceChart.Terminal
