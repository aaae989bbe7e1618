/-!
Rosters: tables that keep the order in which their keys first came.
-/

namespace TraceChart

abbrev Roster (κ δ : Type) := List (κ × δ)

/-- Give a key a value: in its place if it has one, else at the end. -/
def Roster.put {κ δ : Type} [DecidableEq κ] (key : κ) (value : δ) : Roster κ δ → Roster κ δ
  | [] => [(key, value)]
  | entry :: entries =>
    if entry.1 = key then (key, value) :: entries else entry :: Roster.put key value entries

end TraceChart
