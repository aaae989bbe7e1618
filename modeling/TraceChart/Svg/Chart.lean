import TraceChart.Chart.Layout
import TraceChart.Chart.Timeline
import TraceChart.Svg.Document

/-!
Charts as SVG documents.
-/

namespace TraceChart

variable {α : Type} [Scalar α]

/-- What is drawn of a timeline on a viewport of some width, as high as the tracks need. -/
def Timeline.drawing (timeline : Timeline α) (width : α) : Except Fault (List (Command α)) :=
  let series := timeline.series
  let (start, finish) := timeline.window
  Chart.commands series ⟨width, Chart.height series.length⟩ start finish

def Timeline.svg (timeline : Timeline α) (theme : Svg.Theme) (width : α) :
    Except Fault String := do
  let commands ← timeline.drawing width
  pure (Svg.document theme width (Chart.height timeline.series.length) commands)

end TraceChart
