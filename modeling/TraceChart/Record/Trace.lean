import TraceChart.Chart.Timeline
import TraceChart.Record.Codec

/-!
The serialized forms of counters, intervals, tracks, timelines and bar series.
-/

namespace TraceChart

open Codec

def Category.serialName : Category → String
  | .system => "System"
  | .schedulingUnit => "SchedulingUnit"
  | .memoryUnit => "MemoryUnit"
  | .computeUnit => "ComputeUnit"

instance : Codec Category where
  encode category := .ofString category.serialName
  decode? _ := choose? (Category.all.map fun category => (category.serialName, category))

instance : Codec (Event Binary64) where
  encode event := members [("timestamp", encode event.time), ("type_id", encode event.code)]
  decode? convert value := do
    match ← value.fields? ["timestamp", "type_id"] with
    | [time, code] => do
      let time ← required? convert time
      let code ← required? convert code
      pure ⟨time, code⟩
    | _ => none

instance : Codec (Counter Binary64) where
  encode counter := members [("name", encode counter.name), ("category", encode counter.category),
    ("events", encode counter.events)]
  decode? convert value := do
    match ← value.fields? ["name", "category", "events"] with
    | [name, category, events] => do
      let name ← required? convert name
      let category ← required? convert category
      let events ← required? convert events
      pure ⟨name, category, events⟩
    | _ => none

instance : Codec (Interval Binary64) where
  encode interval := members [("track", encode interval.track), ("start", encode interval.start),
    ("duration", encode interval.duration), ("label", encode interval.label),
    ("color", encode interval.color)]
  decode? convert value := do
    match ← value.fields? ["track", "start", "duration", "label", "color"] with
    | [track, start, duration, label, color] => do
      let track ← required? convert track
      let start ← required? convert start
      let duration ← required? convert duration
      let label ← required? convert label
      let color ← required? convert color
      pure ⟨track, start, duration, label, color⟩
    | _ => none

instance : Codec (Track Binary64) where
  encode track := members [("track", encode track.name), ("intervals", encode track.intervals)]
  decode? convert value := do
    match ← value.fields? ["track", "intervals"] with
    | [name, intervals] => do
      let name ← required? convert name
      let intervals ← required? convert intervals
      pure ⟨name, intervals⟩
    | _ => none

instance : Codec (Timeline Binary64) where
  encode timeline := members [("tracks", encode timeline.tracks)]
  decode? convert value := do
    match ← value.fields? ["tracks"] with
    | [tracks] => do
      let tracks ← required? convert tracks
      pure ⟨tracks⟩
    | _ => none

instance : Codec (Series Binary64) where
  encode series := members [("track", encode series.track),
    ("durations", encode series.durations), ("rows", encode series.rows),
    ("bases", encode series.bases), ("hover", encode series.hover),
    ("labels", encode series.labels), ("colors", encode series.colors),
    ("placeholder", encode series.placeholder)]
  decode? convert value := do
    match ← value.fields? ["track", "durations", "rows", "bases", "hover", "labels", "colors",
        "placeholder"] with
    | [track, durations, rows, bases, hover, labels, colors, placeholder] => do
      let track ← required? convert track
      let durations ← required? convert durations
      let rows ← required? convert rows
      let bases ← required? convert bases
      let hover ← required? convert hover
      let labels ← required? convert labels
      let colors ← required? convert colors
      let placeholder ← required? convert placeholder
      pure ⟨track, durations, rows, bases, hover, labels, colors, placeholder⟩
    | _ => none

end TraceChart
