import TraceChart.Number.Scalar
import TraceChart.Registry.Palette
import TraceChart.Trace.Counter
import TraceChart.Trace.Problem

/-!
Intervals of work, and how the events of a counter give rise to them.

Events are points of transition: each but the last opens the span up to the next one. The span is
an interval unless the event is a boundary marker. A counter is checked as a whole before any of
its intervals is formed.
-/

namespace TraceChart

/-- A span of work on a track. -/
structure Interval (α : Type) where
  track : String
  start : α
  duration : α
  /-- The name of the marker that opened the interval. -/
  label : String
  color : String
deriving DecidableEq, Repr

variable {α : Type}

/-- The marker that an event code stands for in a category. -/
def Category.resolve (category : Category) (code : Int) : Except (Problem α) Marker :=
  match category.marker? code with
  | some marker => .ok marker
  | none => .error (.unknownEvent category code)

def Palette.resolve (palette : Palette) (name : String) : Except (Problem α) String :=
  match palette.color? name with
  | some color => .ok color
  | none => .error (.unknownColor name)

variable [Scalar α]

namespace Interval

def finish (interval : Interval α) : α :=
  interval.start + interval.duration

/-- The label with the duration in seconds. -/
def caption (interval : Interval α) : String :=
  s!"{interval.label} [{Scalar.durationText interval.duration} s]"

end Interval

namespace Counter

/-- Check one event: its code, then its time, then its time against the event before it. -/
def checkEvent (counter : Counter α) (index : Nat) (previous : Option α) (event : Event α) :
    Except (Problem α) Unit := do
  let _ ← counter.category.resolve event.code
  if !Scalar.isFinite event.time then
    throw (.nonFiniteTime counter.name index)
  match previous with
  | some previous =>
    if Scalar.lt event.time previous then
      throw (.decreasingTime counter.name index previous event.time)
  | none => pure ()

/-- Check events in order, the first of which has this index. -/
def checkFrom (counter : Counter α) (index : Nat) (previous : Option α) :
    List (Event α) → Except (Problem α) Unit
  | [] => pure ()
  | event :: events => do
    counter.checkEvent index previous event
    counter.checkFrom (index + 1) (some event.time) events

/-- Every code has a marker, every time is finite, and times never decrease. -/
def check (counter : Counter α) : Except (Problem α) Unit :=
  counter.checkFrom 0 none counter.events

/-- The interval that an event opens up to the next one, if it marks work. -/
def opened (counter : Counter α) (palette : Palette) (event next : Event α) :
    Except (Problem α) (Option (Interval α)) := do
  let marker ← counter.category.resolve event.code
  if marker.boundary then
    pure none
  else
    let color ← palette.resolve marker.name
    pure (some
      { track := counter.name
        start := event.time
        duration := next.time - event.time
        label := marker.name
        color := color })

/-- The intervals between neighbouring events. -/
def intervalsOf (counter : Counter α) (palette : Palette) :
    List (Event α) → Except (Problem α) (List (Interval α))
  | event :: next :: events => do
    let first ← counter.opened palette event next
    let rest ← counter.intervalsOf palette (next :: events)
    pure (first.toList ++ rest)
  | _ => pure []

/-- The intervals of a counter that passes its check. -/
def intervals (counter : Counter α) (palette : Palette) :
    Except (Problem α) (List (Interval α)) := do
  counter.check
  counter.intervalsOf palette counter.events

end Counter

end TraceChart
