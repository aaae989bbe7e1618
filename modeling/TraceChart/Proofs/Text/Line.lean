import Mathlib
import TraceChart.Text.Line

/-!
# Text in cells

A cluster of several columns stands in the first of its cells and hides what stands in the others.
So a row of cells is read from cluster to cluster, and clusters that have been laid out in cells
read as the text that they were cut from.
-/

namespace TraceChart

/-- What is read off cells, of which the first few are hidden. -/
def readCells : Nat → List Cluster → List Char
  | _, [] => []
  | hidden + 1, _ :: cells => readCells hidden cells
  | 0, cluster :: cells => cluster ++ readCells (cluster.columns - 1) cells

/-- Clusters in the cells that they take, with blanks where they cover cells. -/
def inCells (clusters : List Cluster) : List Cluster :=
  clusters.flatMap fun cluster => cluster :: List.replicate (cluster.columns - 1) [' ']

def totalColumns (clusters : List Cluster) : Nat :=
  (clusters.map Cluster.columns).sum

theorem length_inCells {clusters : List Cluster}
    (positive : ∀ cluster ∈ clusters, 0 < cluster.columns) :
    (inCells clusters).length = totalColumns clusters := by
  induction clusters with
  | nil => rfl
  | cons cluster clusters ih =>
    have first := positive cluster List.mem_cons_self
    have rest := ih fun later member => positive later (List.mem_cons_of_mem _ member)
    simp only [inCells, totalColumns, List.flatMap_cons, List.length_append, List.length_cons,
      List.length_replicate, List.map_cons, List.sum_cons] at rest ⊢
    omega

theorem readCells_hidden (hidden rest : List Cluster) :
    readCells hidden.length (hidden ++ rest) = readCells 0 rest := by
  induction hidden with
  | nil => rfl
  | cons cell cells ih => exact ih

theorem readCells_inCells (clusters rest : List Cluster) :
    readCells 0 (inCells clusters ++ rest) = clusters.flatten ++ readCells 0 rest := by
  induction clusters with
  | nil => rfl
  | cons cluster clusters ih =>
    have hidden := readCells_hidden (List.replicate (cluster.columns - 1) [' '])
      (inCells clusters ++ rest)
    rw [List.length_replicate, ih] at hidden
    simp only [inCells, List.flatMap_cons, List.cons_append, List.append_assoc, readCells,
      List.flatten_cons]
    exact congrArg (cluster ++ ·) hidden

theorem readCells_blanks (count : Nat) :
    readCells 0 (List.replicate count [' ']) = List.replicate count ' ' := by
  have single : Cluster.columns [' '] = 1 := by decide
  induction count with
  | zero => rfl
  | succ count ih =>
    rw [List.replicate_succ, readCells, single, ih]
    rfl

/-! ### Clusters that find room -/

/-- The clusters that find room are the first of those that take any column, as many as there is
room for. -/
theorem fitting_spec (room : Nat) (clusters : List Cluster) :
    (∀ cluster ∈ fitting room clusters, 0 < cluster.columns) ∧
    totalColumns (fitting room clusters) ≤ room ∧
    ∃ others, clusters.filter (fun cluster => 0 < cluster.columns) =
        fitting room clusters ++ others ∧
      ∀ next ∈ others.head?, room < totalColumns (fitting room clusters) + next.columns := by
  induction clusters generalizing room with
  | nil => exact ⟨by simp [fitting], by simp [fitting, totalColumns], [], rfl, by simp⟩
  | cons cluster clusters ih =>
    unfold fitting
    split
    next hidden =>
      have dropped : (cluster :: clusters).filter (fun cluster => 0 < cluster.columns) =
          clusters.filter (fun cluster => 0 < cluster.columns) := by
        simp [hidden]
      rw [dropped]
      exact ih room
    next shown =>
      have kept : (cluster :: clusters).filter (fun cluster => 0 < cluster.columns) =
          cluster :: clusters.filter (fun cluster => 0 < cluster.columns) := by
        simp [Nat.pos_of_ne_zero shown]
      rw [kept]
      split
      -- What is left of the room goes to the clusters behind this one.
      next fits =>
        obtain ⟨positive, within, others, split, full⟩ := ih (room - cluster.columns)
        refine ⟨?_, ?_, others, by rw [split]; rfl, ?_⟩
        · exact List.forall_mem_cons.mpr ⟨Nat.pos_of_ne_zero shown, positive⟩
        · simp only [totalColumns, List.map_cons, List.sum_cons] at within ⊢
          omega
        · intro next member
          have beyond := full next member
          simp only [totalColumns, List.map_cons, List.sum_cons] at beyond ⊢
          omega
      next tooWide =>
        refine ⟨by simp, by simp [totalColumns], cluster :: clusters.filter _, rfl, ?_⟩
        intro next member
        obtain rfl : cluster = next := by simpa using member
        simp only [totalColumns, List.map_nil, List.sum_nil]
        omega

theorem fitting_of_room {room : Nat} {clusters : List Cluster}
    (positive : ∀ cluster ∈ clusters, 0 < cluster.columns)
    (room_le : totalColumns clusters ≤ room) :
    fitting room clusters = clusters := by
  induction clusters generalizing room with
  | nil => rfl
  | cons cluster clusters ih =>
    have first := positive cluster List.mem_cons_self
    simp only [totalColumns, List.map_cons, List.sum_cons] at room_le
    rw [fitting, if_neg first.ne', if_pos (by omega),
      ih (fun later member => positive later (List.mem_cons_of_mem _ member)) (by
        simp only [totalColumns]
        omega)]

/-! ### Text of one column for each character -/

/-- Text without control characters whose clusters take a column for each of their characters. -/
def OneColumnEach (text : List Char) : Prop :=
  (∀ char ∈ text, isControl char = false) ∧
    ∀ cluster ∈ clusters text, cluster.columns = cluster.length

-- Left to itself, the search for an instance would try all characters there are.
instance (text : List Char) : Decidable (OneColumnEach text) :=
  @instDecidableAnd _ _ (List.decidableBAll _ text) (List.decidableBAll _ (clusters text))

private theorem divide_nonempty (before : ClusterContext) (text : List Char) :
    ∀ cluster ∈ (before.divide text).2, cluster ≠ [] := by
  induction text generalizing before with
  | nil => simp [ClusterContext.divide]
  | cons char text ih =>
    simp only [ClusterContext.divide]
    split
    · exact ih _
    · exact List.forall_mem_cons.mpr ⟨by simp, ih _⟩

theorem clusters_nonempty (text : List Char) : ∀ cluster ∈ clusters text, cluster ≠ [] := by
  cases text with
  | nil => simp [clusters]
  | cons char text => exact List.forall_mem_cons.mpr ⟨by simp, divide_nonempty _ text⟩

namespace OneColumnEach

variable {text : List Char}

theorem positive (each : OneColumnEach text) : ∀ cluster ∈ clusters text, 0 < cluster.columns := by
  intro cluster member
  rw [each.2 cluster member]
  exact List.length_pos_iff.mpr (clusters_nonempty text cluster member)

theorem columns (each : OneColumnEach text) : totalColumns (clusters text) = text.length := by
  have lengths : (clusters text).map Cluster.columns = (clusters text).map List.length :=
    List.map_congr_left each.2
  rw [totalColumns, lengths, ← List.length_flatten, clusters_flatten]

theorem printable (each : OneColumnEach text) : printable (clusters text) = clusters text := by
  apply List.filter_eq_self.mpr
  intro cluster member
  simp only [Bool.not_eq_true', List.any_eq_false, Bool.not_eq_true]
  intro char inside
  have included : char ∈ (clusters text).flatten := List.mem_flatten.mpr ⟨cluster, member, inside⟩
  rw [clusters_flatten] at included
  exact each.1 char included

end OneColumnEach

end TraceChart
