/-!
Sets of characters given as closed ranges of code points.
-/

namespace TraceChart

/-- Whether a code point lies in one of some closed ranges. -/
def inRanges (ranges : List (Nat × Nat)) (code : Nat) : Bool :=
  ranges.any fun (low, high) => decide (low ≤ code ∧ code ≤ high)

end TraceChart
