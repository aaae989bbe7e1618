import TraceChart.Number.Scalar
import TraceChart.Registry.Category
import TraceChart.Text.Quoted

/-!
What can be wrong with a trace that is otherwise well formed. Each of these stops a run before
anything is drawn.
-/

namespace TraceChart

inductive Problem (α : Type) where
  | unknownCategory (code : Int)
  | unknownEvent (category : Category) (code : Int)
  | unknownColor (name : String)
  | decreasingTime (counter : String) (index : Nat) (previous time : α)
  | nonFiniteTime (counter : String) (index : Nat)
  | duplicateTrack (name : String)
  | unknownTrack (name : String)
deriving DecidableEq, Repr

def Problem.message {α : Type} [Scalar α] : Problem α → String
  | .unknownCategory code => s!"unknown counter category code {code}"
  | .unknownEvent category code =>
    s!"event type {code} is not defined for {category.name} counters"
  | .unknownColor name => s!"no color configured for event {name}"
  | .decreasingTime counter index previous time =>
    s!"counter {quoted counter}: event {index} at {Scalar.plainText time} s precedes " ++
      s!"the previous event at {Scalar.plainText previous} s"
  | .nonFiniteTime counter index =>
    s!"counter {quoted counter}: event {index} has a non-finite timestamp"
  | .duplicateTrack name => s!"track {quoted name} registered twice"
  | .unknownTrack name => s!"track {quoted name} was never registered"

end TraceChart
