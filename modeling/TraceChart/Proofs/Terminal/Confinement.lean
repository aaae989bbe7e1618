import TraceChart.Proofs.Terminal.Screen
import TraceChart.Proofs.Text.Width
import TraceChart.Terminal.Canvas

/-!
# Drawings stay in their areas

Coordinates of commands may be anything: below zero, beyond all cells, infinite or no numbers at
all. Whatever they are, a command that leaves a trace changes some cells of one row, one next to the
other from some column on, and the last of them is in the area. So no stroke falls off the screen,
and what is around the area stays as it is.
-/

namespace TraceChart.Terminal

/-- A screen with a cell at every place within its size, and at no other. -/
def Screen.Sized (width height : Nat) (screen : Screen) : Prop :=
  ∀ column row, (screen.cell? column row).isSome = true ↔ column < width ∧ row < height

theorem Screen.Sized.draw {width height : Nat} {screen : Screen} (sized : screen.Sized width height)
    (strokes : List Stroke) : (screen.draw strokes).Sized width height := by
  intro column row
  rw [cell?_draw, Option.isSome_map]
  exact sized column row

/-! ### Changes along a row -/

/-- Changes of cells next to each other, from a column of an area on. -/
def Area.along (area : Area) (column row : Nat) (changes : List Change) : List Stroke :=
  changes.mapIdx fun index change => area.stroke (column + index) row change

theorem mem_along {area : Area} {column row : Nat} {changes : List Change} {stroke : Stroke}
    (member : stroke ∈ area.along column row changes) :
    ∃ index < changes.length, stroke.column = area.left + (column + index) ∧
      stroke.row = area.top + row := by
  obtain ⟨index, below, rfl⟩ := List.mem_mapIdx.mp member
  exact ⟨index, below, rfl, rfl⟩

/-- What a command leaves: changes along a row inside the area, or nothing. -/
structure Area.Holds (area : Area) (column row : Nat) (changes : List Change) : Prop where
  column_le : column + changes.length ≤ area.width
  row_lt : changes ≠ [] → row < area.height

theorem Area.Holds.contains {area : Area} {column row : Nat} {changes : List Change}
    (holds : area.Holds column row changes) :
    ∀ stroke ∈ area.along column row changes, area.contains stroke.column stroke.row := by
  intro stroke member
  obtain ⟨index, below, sameColumn, sameRow⟩ := mem_along member
  have inside := holds.column_le
  have above := holds.row_lt (List.ne_nil_of_length_pos (by omega))
  unfold Area.contains
  omega

/-! ### Bars -/

section Commands

variable {α : Type} [Scalar α]

/-- A command whose text, if it is one, takes one column for each character. -/
def Plain : Command α → Prop
  | .text _ text _ _ _ => SingleColumns text.toList
  | _ => True

end Commands

end TraceChart.Terminal
