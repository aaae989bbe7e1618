import TraceChart.Chart.Rows
import TraceChart.Terminal.Screen
import TraceChart.Text.Line

/-!
Drawings on cells. A cell stands for a fixed number of pixels each way; a command takes the cell
that its corner falls into, and rounding never makes a bar vanish. Lanes, lines and groups leave no
trace, for the rows of a screen need no frame.
-/

namespace TraceChart.Terminal

variable {α : Type} [Scalar α]

def cellWidth : α := 8.0

/-- The height of a cell, which is that of a row of the chart. -/
def cellHeight : α := Rows.rowHeight

/-- The columns that names of tracks stand in, the last of which stays free. -/
def labelColumns : Nat := 16

/-- The most cells that are counted. -/
def mostCells : Int := 65535

/-- A count of cells. What is below zero or no number counts as zero. -/
def cells (count : Extended) : Nat :=
  (count.within 0 mostCells).toNat

def columnAt (x : α) : Nat :=
  cells (Scalar.truncate (x / cellWidth))

def rowAt (y : α) : Nat :=
  cells (Scalar.truncate (y / cellHeight))

/-- How many columns a width takes, at least one. -/
def columnsOf (width : α) : Nat :=
  max 1 (cells (Scalar.nearest (width / cellWidth)))

/-- The mark of a placeholder, on whatever ground there is. -/
def placeholderMark : Change :=
  { text := some ['·'], ink := some (Color.ofToken .placeholder) }

/-- What a bar shows of its label: all of it or nothing. A label needs a column for each byte and
one to spare. -/
def shownLabel (label : String) (width : Nat) : List Char :=
  if label.utf8ByteSize < width then label.toList else []

/-- A bar from a column on, cut at the right edge of the area. -/
def barStrokes (area : Area) (column row columns : Nat) (ground : Color) (label : String) :
    List Stroke :=
  let width := min columns (area.width - column)
  let shown := shownLabel label width
  (List.range width).map fun offset =>
    area.stroke (column + offset) row
      { text := some [shown.getD offset ' '], ink := some .white, ground := some ground }

def rectStrokes (area : Area) (rect : Rect α) (fill : Paint) (label : Option String) :
    List Stroke :=
  let column := columnAt rect.x
  let row := rowAt rect.y
  -- Lanes leave the ground to the screen.
  if fill = .token .laneBackground ∨ area.height ≤ row ∨ area.width ≤ column then []
  else if fill = .token .placeholder then [area.stroke column row placeholderMark]
  else barStrokes area column row (columnsOf rect.width) (.ofPaint fill) (label.getD "")

/-- A text stands at the left edge of its row, whatever its position across. The area bounds its
characters, and the right edge of the screen its columns. Covered cells are blank. -/
def textStrokes (edge : Nat) (area : Area) (position : Point α) (text : String) (color : Paint) :
    List Stroke :=
  let row := rowAt position.y
  if area.height ≤ row then []
  else
    let shown := text.toList.take (min (labelColumns - 1) area.width)
    area.write row (some (.ofPaint color)) .clear 0
      (fitting (edge - area.left) (printable (clusters shown)))

def commandStrokes (edge : Nat) (area : Area) : Command α → List Stroke
  | .rect rect fill _ label _ => rectStrokes area rect fill label
  | .text position text color _ _ => textStrokes edge area position text color
  | _ => []

/-- The strokes of a drawing on an area of a screen that ends at some column. -/
def strokes (edge : Nat) (area : Area) (commands : List (Command α)) : List Stroke :=
  commands.flatMap (commandStrokes edge area)

end TraceChart.Terminal
