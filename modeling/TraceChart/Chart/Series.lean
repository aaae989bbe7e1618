import TraceChart.Fault
import TraceChart.Trace.Tracks

/-!
Bar series: the intervals of one track as lists with a common index, which is the form in which
charts take them. A track without intervals is a placeholder, a single bar of no length that no
longer counts as a bar.
-/

namespace TraceChart

/-- The bars of a track, an entry of each list for each bar. -/
structure Series (α : Type) where
  track : String
  durations : List α
  rows : List String
  bases : List α
  hover : List String
  labels : List String
  colors : List (Option String)
  placeholder : Bool
deriving DecidableEq, Repr

structure Bar (α : Type) where
  base : α
  duration : α
  hover : String
  label : String
  color : Option String
deriving DecidableEq, Repr

def Bar.finish {α : Type} [Add α] (bar : Bar α) : α :=
  bar.base + bar.duration

namespace Series

variable {α : Type}

/-- The number of entries; a placeholder has one. -/
def size (series : Series α) : Nat :=
  series.durations.length

def isEmpty (series : Series α) : Bool :=
  series.durations.isEmpty

def isAligned (series : Series α) : Bool :=
  series.rows.length == series.size && series.bases.length == series.size &&
    series.hover.length == series.size && series.labels.length == series.size &&
    series.colors.length == series.size

/-- The bar at an index, which needs an entry in every list. -/
def bar? (series : Series α) (index : Nat) : Option (Bar α) := do
  let base ← series.bases[index]?
  let duration ← series.durations[index]?
  let hover ← series.hover[index]?
  let label ← series.labels[index]?
  let color ← series.colors[index]?
  pure ⟨base, duration, hover, label, color⟩

def bar (series : Series α) (index : Nat) : Except Fault (Bar α) :=
  match series.bar? index with
  | some bar => .ok bar
  | none => .error .raggedSeries

/-- The indices of the bars, of which a placeholder has none. -/
def barIndices (series : Series α) : List Nat :=
  if series.placeholder then [] else List.range series.size

def bars (series : Series α) : Except Fault (List (Bar α)) :=
  series.barIndices.mapM series.bar

def reduce (combine : α → α → α) : List α → Option α
  | [] => none
  | first :: rest => some (rest.foldl combine first)

variable [Scalar α]

def ofEmptyTrack (name : String) : Series α where
  track := name
  durations := [0.0]
  rows := [name]
  bases := [0.0]
  hover := [""]
  labels := [""]
  colors := [none]
  placeholder := true

def ofTrack (track : Track α) : Series α :=
  if track.intervals.isEmpty then ofEmptyTrack track.name
  else
    { track := track.name
      durations := track.intervals.map Interval.duration
      rows := track.intervals.map fun _ => track.name
      bases := track.intervals.map Interval.start
      hover := track.intervals.map Interval.caption
      labels := track.intervals.map Interval.label
      colors := track.intervals.map fun interval => some interval.color
      placeholder := false }

/-- The caption of the first bar that covers a time. Bars after it are not looked at. -/
def hoverFrom (series : Series α) (time : α) : List Nat → Except Fault (Option String)
  | [] => .ok none
  | index :: indices => do
    let bar ← series.bar index
    if Scalar.le bar.base time && Scalar.lt time bar.finish then pure (some bar.hover)
    else series.hoverFrom time indices

def hoverAt (series : Series α) (time : α) : Except Fault (Option String) :=
  series.hoverFrom time series.barIndices

def startTime (series : Series α) : Except Fault (Option α) := do
  let bars ← series.bars
  pure (reduce Scalar.smaller (bars.map Bar.base))

def endTime (series : Series α) : Except Fault (Option α) := do
  let bars ← series.bars
  pure (reduce Scalar.larger (bars.map Bar.finish))

end Series

end TraceChart
