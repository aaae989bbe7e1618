import TraceChart.Trace.Interval

/-!
Tracks in the order in which they were registered. A track is registered once, under its name,
before intervals are attached to it; an operation that fails changes nothing.
-/

namespace TraceChart

/-- A row of the chart with the intervals on it, possibly none. -/
structure Track (α : Type) where
  name : String
  intervals : List (Interval α)
deriving DecidableEq, Repr

/-- Tracks with distinct names. -/
structure Tracks (α : Type) where
  toList : List (Track α)
  distinct : (toList.map Track.name).Nodup

namespace Tracks

variable {α : Type}

def empty : Tracks α :=
  ⟨[], List.nodup_nil⟩

def names (tracks : Tracks α) : List String :=
  tracks.toList.map Track.name

def contains (tracks : Tracks α) (name : String) : Bool :=
  tracks.names.contains name

def size (tracks : Tracks α) : Nat :=
  tracks.toList.length

def isEmpty (tracks : Tracks α) : Bool :=
  tracks.toList.isEmpty

def register (tracks : Tracks α) (name : String) : Except (Problem α) (Tracks α) :=
  if known : name ∈ tracks.toList.map Track.name then .error (.duplicateTrack name)
  else .ok
    { toList := tracks.toList ++ [⟨name, []⟩]
      distinct := by
        rw [List.map_append, List.nodup_append]
        refine ⟨tracks.distinct, by simp, fun left member right other same => ?_⟩
        simp only [List.map_cons, List.map_nil, List.mem_singleton] at other
        subst other same
        exact known member }

/-- Intervals appended to the track of a name. -/
def append (name : String) (intervals : List (Interval α)) (track : Track α) : Track α :=
  if track.name = name then { track with intervals := track.intervals ++ intervals } else track

@[simp] theorem name_append (name : String) (intervals : List (Interval α)) (track : Track α) :
    (append name intervals track).name = track.name := by
  unfold append
  split <;> rfl

def attachAll (tracks : Tracks α) (name : String) (intervals : List (Interval α)) :
    Except (Problem α) (Tracks α) :=
  if name ∈ tracks.toList.map Track.name then
    .ok
      { toList := tracks.toList.map (append name intervals)
        distinct := by
          have same : Track.name ∘ append name intervals = Track.name :=
            funext (name_append name intervals)
          rw [List.map_map, same]
          exact tracks.distinct }
  else .error (.unknownTrack name)

def attach (tracks : Tracks α) (name : String) (interval : Interval α) :
    Except (Problem α) (Tracks α) :=
  tracks.attachAll name [interval]

end Tracks

end TraceChart
