/-!
Breaches of what an operation asks of its caller, kept apart from the problems of a trace. Of a trace
that passed its checks only the ruler can commit one, where its step comes out as zero.
-/

namespace TraceChart

inductive Fault where
  /-- A list of a series ends before its list of durations does. -/
  | raggedSeries
  /-- A range has ends that are out of order or no numbers. -/
  | unorderedRange
  /-- A number is asked for more decimal places than can be written. -/
  | tooManyPlaces
  /-- A number of rows is formed that is too large for a machine word. -/
  | wordOverflow
deriving DecidableEq, Repr

def Fault.message : Fault → String
  | .raggedSeries => "a series has lists of different lengths"
  | .unorderedRange => "a range has no order"
  | .tooManyPlaces => "a label needs too many decimal places"
  | .wordOverflow => "a number of rows does not fit into a word"

end TraceChart
