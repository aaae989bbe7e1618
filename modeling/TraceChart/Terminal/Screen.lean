import TraceChart.Terminal.Color
import TraceChart.Text.Columns

/-!
Screens: rows of cells, and strokes that change one cell each. A picture is a list of strokes, so
what it touches can be read off before it is drawn. A cell holds a cluster of characters; one that
takes several columns stands in the cell of the first and covers the cells of the others.
-/

namespace TraceChart.Terminal

structure Cell where
  text : Cluster
  ink : Color
  ground : Color
deriving DecidableEq, Repr

def Cell.blank : Cell :=
  ⟨[' '], .reset, .reset⟩

/-- What becomes of a cell. What a change does not set stays as it is. -/
structure Change where
  text : Option Cluster := none
  ink : Option Color := none
  ground : Option Color := none
deriving DecidableEq, Repr

def Change.apply (change : Change) (cell : Cell) : Cell where
  text := change.text.getD cell.text
  ink := change.ink.getD cell.ink
  ground := change.ground.getD cell.ground

def Change.clear : Change :=
  { text := some Cell.blank.text, ink := some Cell.blank.ink, ground := some Cell.blank.ground }

/-- A change of the cell at a place. -/
structure Stroke where
  column : Nat
  row : Nat
  change : Change
deriving DecidableEq, Repr

structure Area where
  left : Nat
  top : Nat
  width : Nat
  height : Nat
deriving DecidableEq, Repr

namespace Area

def contains (area : Area) (column row : Nat) : Prop :=
  area.left ≤ column ∧ column < area.left + area.width ∧
    area.top ≤ row ∧ row < area.top + area.height

instance (area : Area) (column row : Nat) : Decidable (area.contains column row) :=
  inferInstanceAs (Decidable (_ ∧ _))

/-- A stroke at a place that is counted from the corner of an area. -/
def stroke (area : Area) (column row : Nat) (change : Change) : Stroke :=
  ⟨area.left + column, area.top + row, change⟩

def fill (area : Area) (change : Change) : List Stroke :=
  (List.range area.height).flatMap fun row =>
    (List.range area.width).map fun column => area.stroke column row change

/-- Clusters along a row of an area, from a column on. The cells that a cluster covers undergo a
change of their own. -/
def write (area : Area) (row : Nat) (ink : Option Color) (covered : Change) (column : Nat) :
    List Cluster → List Stroke
  | [] => []
  | cluster :: rest =>
    let covering := (List.range (cluster.columns - 1)).map fun offset =>
      area.stroke (column + 1 + offset) row covered
    area.stroke column row { text := some cluster, ink := ink } :: covering ++
      area.write row ink covered (column + cluster.columns) rest

end Area

/-- Rows of cells from the top down. -/
structure Screen where
  rows : List (List Cell)
deriving DecidableEq, Repr

namespace Screen

def blank (width height : Nat) : Screen :=
  ⟨List.replicate height (List.replicate width .blank)⟩

def cell? (screen : Screen) (column row : Nat) : Option Cell := do
  let cells ← screen.rows[row]?
  cells[column]?

/-- Apply a stroke. One that lies outside the screen changes nothing. -/
def apply (screen : Screen) (stroke : Stroke) : Screen :=
  ⟨screen.rows.modify stroke.row (·.modify stroke.column stroke.change.apply)⟩

def draw (screen : Screen) (strokes : List Stroke) : Screen :=
  strokes.foldl apply screen

/-- A stroke changes the cell at its place and no other. -/
theorem cell?_apply (screen : Screen) (stroke : Stroke) (column row : Nat) :
    (screen.apply stroke).cell? column row =
      if column = stroke.column ∧ row = stroke.row then
        (screen.cell? column row).map stroke.change.apply
      else screen.cell? column row := by
  unfold cell? apply
  rw [List.getElem?_modify]
  by_cases sameRow : row = stroke.row
  · subst sameRow
    cases screen.rows[stroke.row]? with
    | none => simp
    | some cells =>
      by_cases sameColumn : column = stroke.column
      · subst sameColumn
        simp
      · simp [sameColumn, Ne.symm sameColumn]
  · simp [sameRow, Ne.symm sameRow]

end Screen

end TraceChart.Terminal
