import TraceChart.Chart.Series

/-!
Timelines: the tracks of a whole trace, ready to be drawn. All tracks are registered, then all
counters are read, and only then are intervals attached, so there is a complete timeline or none.
-/

namespace TraceChart

structure Timeline (α : Type) where
  tracks : List (Track α)
deriving DecidableEq, Repr

variable {α : Type}

def Tracks.attachCounters (tracks : Tracks α) (read : List (Counter α × List (Interval α))) :
    Except (Problem α) (Tracks α) :=
  read.foldlM (fun tracks (counter, intervals) => tracks.attachAll counter.name intervals) tracks

namespace Timeline

def intervals (timeline : Timeline α) : List (Interval α) :=
  timeline.tracks.flatMap Track.intervals

def intervalCount (timeline : Timeline α) : Nat :=
  timeline.intervals.length

variable [Scalar α]

/-- The timeline of some counters, its tracks in their order. -/
def ofCounters (palette : Palette) (counters : List (Counter α)) :
    Except (Problem α) (Timeline α) := do
  -- A repeated name counts before anything that is wrong with events.
  let registered ← counters.foldlM
    (fun tracks counter => Tracks.register tracks counter.name) Tracks.empty
  let read ← counters.mapM fun counter => do
    let intervals ← counter.intervals palette
    pure (counter, intervals)
  let attached ← registered.attachCounters read
  pure ⟨attached.toList⟩

def finiteOrZero (value : α) : α :=
  if Scalar.isFinite value then value else 0.0

/-- The least start of an interval, or zero where there is no finite one. -/
def startTime (timeline : Timeline α) : α :=
  match Series.reduce Scalar.smaller (timeline.intervals.map Interval.start) with
  | some start => finiteOrZero start
  | none => 0.0

/-- The greatest end of an interval, or zero where there is no finite one. -/
def endTime (timeline : Timeline α) : α :=
  match Series.reduce Scalar.larger (timeline.intervals.map Interval.finish) with
  | some finish => finiteOrZero finish
  | none => 0.0

def series (timeline : Timeline α) : List (Series α) :=
  timeline.tracks.map Series.ofTrack

/-- The window that is shown at first: from zero, or the earliest interval before it, to the
latest end, and of length one where that would be no window. -/
def window (timeline : Timeline α) : α × α :=
  let start := Scalar.smaller timeline.startTime 0.0
  let finish := timeline.endTime
  if Scalar.lt start finish then (start, finish) else (start, start + 1.0)

end Timeline

end TraceChart
