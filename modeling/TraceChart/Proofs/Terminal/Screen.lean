import TraceChart.Proofs.Text.Line
import TraceChart.Terminal.Screen

/-!
# What a picture does to a cell

A picture changes a cell by those of its strokes that lie there, one after the other. So what
becomes of a cell can be said of each part of a picture by itself: what the parts do is appended.
-/

namespace TraceChart.Terminal

/-- The changes that strokes make to the cell at a place, in order. -/
def changesAt (strokes : List Stroke) (column row : Nat) : List Change :=
  (strokes.filter fun stroke => stroke.column = column ∧ stroke.row = row).map Stroke.change

def Cell.afterAll (cell : Cell) (changes : List Change) : Cell :=
  changes.foldl (fun cell change => change.apply cell) cell

theorem cell?_draw (screen : Screen) (strokes : List Stroke) (column row : Nat) :
    (screen.draw strokes).cell? column row =
      (screen.cell? column row).map (·.afterAll (changesAt strokes column row)) := by
  induction strokes generalizing screen with
  | nil => simp [Screen.draw, changesAt, Cell.afterAll]
  | cons stroke strokes ih =>
    have drawn : screen.draw (stroke :: strokes) = (screen.apply stroke).draw strokes := rfl
    rw [drawn, ih, Screen.cell?_apply]
    by_cases here : stroke.column = column ∧ stroke.row = row
    · simp [changesAt, here, Cell.afterAll, Function.comp_def]
    · have elsewhere : ¬ (column = stroke.column ∧ row = stroke.row) :=
        fun same => here ⟨same.1.symm, same.2.symm⟩
      simp [changesAt, here, elsewhere]

theorem cell?_blank {width height column row : Nat} (inside : column < width)
    (below : row < height) : (Screen.blank width height).cell? column row = some .blank := by
  simp [Screen.cell?, Screen.blank, inside, below]

/-! ### Parts of pictures -/

theorem changesAt_append (left right : List Stroke) (column row : Nat) :
    changesAt (left ++ right) column row =
      changesAt left column row ++ changesAt right column row := by
  simp [changesAt]

theorem changesAt_of_elsewhere {strokes : List Stroke} {column row : Nat}
    (elsewhere : ∀ stroke ∈ strokes, stroke.column = column → stroke.row ≠ row) :
    changesAt strokes column row = [] := by
  simp only [changesAt, List.map_eq_nil_iff, List.filter_eq_nil_iff, decide_eq_true_eq, not_and]
  exact elsewhere

/-- Strokes along a row, one in each column. -/
theorem changesAt_along (area : Area) (column row : Nat) (changes : List Change)
    (target line : Nat) :
    changesAt (changes.mapIdx fun index change => area.stroke (column + index) row change) target
        line =
      if area.top + row = line ∧ area.left + column ≤ target then
        (changes[target - (area.left + column)]?).toList
      else [] := by
  induction changes generalizing column with
  | nil => simp [changesAt]
  | cons change changes ih =>
    have later := ih (column + 1)
    have shift : (fun index change => area.stroke (column + (index + 1)) row change) =
        fun index change => area.stroke (column + 1 + index) row change := by
      funext index change
      rw [Nat.add_right_comm, Nat.add_assoc]
    rw [List.mapIdx_cons, ← List.singleton_append, changesAt_append, shift, later]
    by_cases sameLine : area.top + row = line
    -- The first stroke lies before the target, on it, or behind it.
    · rcases Nat.lt_trichotomy (area.left + column) target with less | same | more
      · obtain ⟨offset, rfl⟩ := Nat.exists_eq_add_of_lt less
        have here : area.left + column ≠ area.left + column + offset + 1 := by omega
        have first : area.left + (column + 1) ≤ area.left + column + offset + 1 := by omega
        have rest : area.left + column + offset + 1 - (area.left + (column + 1)) = offset := by
          omega
        have all : area.left + column + offset + 1 - (area.left + column) = offset + 1 := by omega
        simp [changesAt, Area.stroke, sameLine, here, first, rest, all, less.le]
      · subst same
        simp [changesAt, Area.stroke, sameLine]
      · have here : area.left + column ≠ target := by omega
        have first : ¬ area.left + (column + 1) ≤ target := by omega
        have all : ¬ area.left + column ≤ target := by omega
        simp [changesAt, Area.stroke, here, first, all]
    · simp [changesAt, Area.stroke, sameLine]

theorem changesAt_row (area : Area) (row count : Nat) (change : Change) (target line : Nat) :
    changesAt ((List.range count).map fun column => area.stroke column row change) target line =
      if area.top + row = line ∧ area.left ≤ target ∧ target < area.left + count then [change]
      else [] := by
  have along : ((List.range count).map fun column => area.stroke column row change) =
      (List.replicate count change).mapIdx fun index change =>
        area.stroke (0 + index) row change := by
    apply List.ext_getElem <;> simp
  rw [along, changesAt_along]
  by_cases here : area.top + row = line ∧ area.left ≤ target
  · by_cases inside : target < area.left + count
    · have within : target - area.left < count := by omega
      simp [here, inside, within]
    · have beyond : count ≤ target - area.left := by omega
      simp [here, inside, beyond]
  · have elsewhere : ¬ (area.top + row = line ∧ area.left ≤ target ∧
        target < area.left + count) := fun all => here ⟨all.1, all.2.1⟩
    simp only [Nat.add_zero, if_neg here, if_neg elsewhere]

theorem changesAt_fill (area : Area) (change : Change) (column row : Nat) :
    changesAt (area.fill change) column row =
      if area.contains column row then [change] else [] := by
  have rows (count : Nat) : changesAt ((List.range count).flatMap fun line =>
      (List.range area.width).map fun column => area.stroke column line change) column row =
      if area.left ≤ column ∧ column < area.left + area.width ∧ area.top ≤ row ∧
        row < area.top + count then [change] else [] := by
    induction count with
    | zero => simp [changesAt]
    | succ count ih =>
      rw [List.range_succ, List.flatMap_append, changesAt_append, ih, List.flatMap_singleton,
        changesAt_row]
      by_cases last : area.top + count = row
      · simp [← last]
      · have same : row < area.top + (count + 1) ↔ row < area.top + count := by omega
        simp [last, same]
  exact rows area.height

/-! ### Lines of text -/

/-- The changes along a row by which clusters are written. -/
def writeChanges (ink : Option Color) (covered : Change) (clusters : List Cluster) : List Change :=
  clusters.flatMap fun cluster =>
    { text := some cluster, ink := ink } :: List.replicate (cluster.columns - 1) covered

theorem write_eq (area : Area) (row : Nat) (ink : Option Color) (covered : Change) (column : Nat)
    {clusters : List Cluster} (positive : ∀ cluster ∈ clusters, 0 < cluster.columns) :
    area.write row ink covered column clusters =
      (writeChanges ink covered clusters).mapIdx fun index change =>
        area.stroke (column + index) row change := by
  induction clusters generalizing column with
  | nil => rfl
  | cons cluster clusters ih =>
    have first := positive cluster List.mem_cons_self
    have rest := ih (column + cluster.columns)
      fun later member => positive later (List.mem_cons_of_mem _ member)
    have covering : ((List.range (cluster.columns - 1)).map fun offset =>
        area.stroke (column + 1 + offset) row covered) =
        (List.replicate (cluster.columns - 1) covered).mapIdx fun index change =>
          area.stroke (column + (index + 1)) row change := by
      apply List.ext_getElem <;> simp [Nat.add_right_comm, Nat.add_assoc]
    have behind : (fun index change => area.stroke
        (column + (index + (List.replicate (cluster.columns - 1) covered).length + 1)) row change) =
        fun index change => area.stroke (column + cluster.columns + index) row change := by
      funext index change
      rw [List.length_replicate]
      congr 1
      omega
    rw [Area.write, rest, covering]
    simp only [writeChanges, List.flatMap_cons, List.cons_append, List.mapIdx_cons,
      List.mapIdx_append, behind, Nat.add_zero]

def Screen.texts (screen : Screen) (row count : Nat) : List Cluster :=
  (List.range count).map fun column => ((screen.cell? column row).map Cell.text).getD []

/-- What is read off the first cells of a row. -/
def Screen.readLine (screen : Screen) (row count : Nat) : List Char :=
  readCells 0 (screen.texts row count)

/-- A row on which nothing but some clusters has been written reads as the clusters, and then as
blanks. -/
theorem readLine_of_written {screen : Screen} {row count : Nat} {ink : Option Color}
    {covered : Change} (coveredBlank : covered.text.getD [' '] = [' ']) {clusters : List Cluster}
    (positive : ∀ cluster ∈ clusters, 0 < cluster.columns) (room : totalColumns clusters ≤ count)
    (written : ∀ column < count, ∃ cell, screen.cell? column row = some cell ∧ cell.text =
      (((writeChanges ink covered clusters)[column]?).bind Change.text).getD [' ']) :
    screen.readLine row count =
      clusters.flatten ++ List.replicate (count - totalColumns clusters) ' ' := by
  have cells : (writeChanges ink covered clusters).map (fun change => change.text.getD [' ']) =
      inCells clusters := by
    simp [writeChanges, inCells, List.map_flatMap, coveredBlank]
  have texts : screen.texts row count =
      inCells clusters ++ List.replicate (count - totalColumns clusters) [' '] := by
    rw [← length_inCells positive] at room ⊢
    apply List.ext_getElem
    · simp only [Screen.texts, List.length_map, List.length_range, List.length_append,
        List.length_replicate]
      omega
    · intro column below _
      have inside : column < count := by simpa [Screen.texts] using below
      obtain ⟨cell, found, text⟩ := written column inside
      have read : (screen.texts row count)[column] = cell.text := by
        simp [Screen.texts, found]
      rw [read, text]
      by_cases taken : column < (inCells clusters).length
      · have changed : column < (writeChanges ink covered clusters).length := by
          rwa [← cells, List.length_map] at taken
        rw [List.getElem_append_left taken, List.getElem?_eq_getElem changed]
        simp only [← cells, List.getElem_map, Option.bind_some]
      · have unchanged : (writeChanges ink covered clusters).length ≤ column := by
          rw [← cells, List.length_map] at taken
          omega
        rw [List.getElem_append_right (by omega), List.getElem?_eq_none unchanged]
        simp
  rw [Screen.readLine, texts, readCells_inCells, readCells_blanks]

end TraceChart.Terminal
