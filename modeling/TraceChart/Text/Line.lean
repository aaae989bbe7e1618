import TraceChart.Text.Columns

/-!
Text on a single line of a terminal.
-/

namespace TraceChart

/-- The code points of the category Cc. -/
def isControl (char : Char) : Bool :=
  decide (char.toNat < 0x20 ∨ 0x7F ≤ char.toNat ∧ char.toNat ≤ 0x9F)

def printable (text : List Cluster) : List Cluster :=
  text.filter fun cluster => !cluster.any isControl

/-- The clusters that find room, up to the first that does not. Those that take no column are left
out. -/
def fitting (room : Nat) : List Cluster → List Cluster
  | [] => []
  | cluster :: rest =>
    if cluster.columns = 0 then fitting room rest
    else if cluster.columns ≤ room then cluster :: fitting (room - cluster.columns) rest
    else []

/-- The text before the first line break, which may be a carriage return with a line feed. -/
def firstLine : List Char → List Char
  | [] => []
  | '\n' :: _ => []
  | '\r' :: '\n' :: _ => []
  | char :: text => char :: firstLine text

end TraceChart
