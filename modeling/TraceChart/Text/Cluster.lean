import TraceChart.Text.Conjunct

/-!
Clusters: the characters of a text that a reader takes for one, such as a letter with its marks.
A text is cut where none of the rules of Unicode for extended clusters joins two neighbours, and
the clusters hold its characters in their order.
-/

namespace TraceChart

abbrev Cluster := List Char

/-- What stands before a place in a text. -/
structure ClusterContext where
  /-- The class of the last character. -/
  last : Joining
  /-- An odd number of regional letters ends here. -/
  halfRegion : Bool
  /-- A pictograph ends here, with nothing behind it but marks and then perhaps a joiner. -/
  pictograph : Bool
  conjunct : Conjunct
deriving DecidableEq, Repr

namespace ClusterContext

def start : ClusterContext :=
  ⟨.other, false, false, .none⟩

/-- The same behind one more character. -/
def next (before : ClusterContext) (char : Char) : ClusterContext :=
  let joining := Joining.of char
  { last := joining
    halfRegion := joining = .regional && !before.halfRegion
    pictograph := joining = .pictograph || before.pictograph && before.last ≠ .joiner &&
      (joining = .extend || joining = .joiner)
    conjunct := before.conjunct.next char }

/-- Whether a character belongs to the cluster before it. -/
def joins (before : ClusterContext) (char : Char) : Bool :=
  match before.last, Joining.of char with
  | .carriageReturn, .lineFeed => true
  | .carriageReturn, _ => false
  | .lineFeed, _ => false
  | .control, _ => false
  | _, .carriageReturn => false
  | _, .lineFeed => false
  | _, .control => false
  | .leading, .leading => true
  | .leading, .vowel => true
  | .leading, .openSyllable => true
  | .leading, .closedSyllable => true
  | .openSyllable, .vowel => true
  | .openSyllable, .trailing => true
  | .vowel, .vowel => true
  | .vowel, .trailing => true
  | .closedSyllable, .trailing => true
  | .trailing, .trailing => true
  | _, .extend => true
  | _, .joiner => true
  | _, .spacing => true
  | .ahead, _ => true
  | .joiner, .pictograph => before.pictograph
  | .regional, .regional => before.halfRegion
  | _, _ => decide (before.conjunct = .linked) && Conjunct.isConsonant char

/-- What is left of the cluster before a text, and the clusters behind it. -/
def divide (before : ClusterContext) : List Char → Cluster × List Cluster
  | [] => ([], [])
  | char :: chars =>
    let (rest, clusters) := (before.next char).divide chars
    if before.joins char then (char :: rest, clusters) else ([], (char :: rest) :: clusters)

end ClusterContext

def clusters : List Char → List Cluster
  | [] => []
  | char :: chars =>
    let (rest, clusters) := (ClusterContext.start.next char).divide chars
    (char :: rest) :: clusters

/-- Division loses nothing and moves nothing. -/
theorem ClusterContext.divide_flatten (before : ClusterContext) (text : List Char) :
    (before.divide text).1 ++ (before.divide text).2.flatten = text := by
  induction text generalizing before with
  | nil => rfl
  | cons char chars hypothesis =>
    have rest := hypothesis (before.next char)
    simp only [divide]
    split <;> simpa using rest

/-- The clusters of a text hold its characters in their order. -/
theorem clusters_flatten (text : List Char) : (clusters text).flatten = text := by
  cases text with
  | nil => rfl
  | cons char chars =>
    simpa [clusters] using ClusterContext.divide_flatten (ClusterContext.start.next char) chars

end TraceChart
