import TraceChart.Chart.Rows
import TraceChart.Chart.Ruler

/-!
The layout of a whole chart: a ruler along the top and a row for each series below it. Rows that
the viewport has no room for are left out.
-/

namespace TraceChart.Chart

variable {α : Type} [Scalar α]

/-- The width of the column of track names. -/
def gutter : α := 160.0

def height (count : Nat) : α :=
  Ruler.height + Rows.height count

def rowArea (count : Nat) (viewport : Viewport α) : Rect α :=
  { x := 0.0
    y := Ruler.height
    width := viewport.width
    height := Scalar.smaller (Rows.height count)
      (Scalar.larger (viewport.height - Ruler.height) 0.0) }

def rulerArea (viewport : Viewport α) : Rect α :=
  ⟨gutter, 0.0, Scalar.larger (viewport.width - gutter) 0.0, Ruler.height⟩

def commands (series : List (Series α)) (viewport : Viewport α) (start finish : α) :
    Except Fault (List (Command α)) := do
  let area := rowArea series.length viewport
  let rows ← Rows.commands series area gutter start finish
  let ruler ← Ruler.commands (rulerArea viewport) start finish area.height
  pure (rows ++ ruler)

end TraceChart.Chart
