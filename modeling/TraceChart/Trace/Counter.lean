import TraceChart.Registry.Category

/-!
Counters and their events, as a trace records them.
-/

namespace TraceChart

/-- A transition of a counter, in seconds since the start of the trace. -/
structure Event (α : Type) where
  time : α
  /-- An index into the markers of the counter's category. -/
  code : Int
deriving DecidableEq, Repr

/-- A named source of events. The order of the events is the order of time. -/
structure Counter (α : Type) where
  name : String
  category : Category
  events : List (Event α)
deriving DecidableEq, Repr

end TraceChart
