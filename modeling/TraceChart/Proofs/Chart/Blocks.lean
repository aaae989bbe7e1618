import TraceChart.Proofs.Chart.Rows

/-!
# Blocks of rows

The commands of the rows are blocks one after the other, one for each row that begins above the
bottom of the area. Where the lists of every series are aligned, there is nothing at which drawing
them could fail.
-/

namespace TraceChart

open Scalar

variable {α : Type}

/-! ### Aligned series -/

namespace Series

/-- Where the lists are aligned, there is a bar at every index. -/
theorem exists_bar {series : Series α} (aligned : series.isAligned = true) {index : Nat}
    (below : index < series.size) : ∃ bar, series.bar index = .ok bar := by
  simp only [isAligned, Bool.and_eq_true, beq_iff_eq] at aligned
  obtain ⟨⟨⟨⟨rows, bases⟩, hover⟩, labels⟩, colors⟩ := aligned
  unfold bar bar?
  rw [List.getElem?_eq_getElem (bases.symm ▸ below), List.getElem?_eq_getElem below,
    List.getElem?_eq_getElem (hover.symm ▸ below), List.getElem?_eq_getElem (labels.symm ▸ below),
    List.getElem?_eq_getElem (colors.symm ▸ below)]
  exact ⟨_, rfl⟩

theorem lt_size_of_mem {series : Series α} {index : Nat} (member : index ∈ series.barIndices) :
    index < series.size := by
  unfold barIndices at member
  split at member
  · cases member
  · exact List.mem_range.mp member

theorem exists_bars {series : Series α} (aligned : series.isAligned = true) :
    ∃ bars, series.bars = .ok bars :=
  exists_mapM_ok fun _ member => exists_bar aligned (lt_size_of_mem member)

end Series

namespace Rows

variable [Scalar α]

/-! ### The rows that are drawn -/

/-- The rows with their indices, up to the first that would begin at or below the bottom. -/
def shownFrom (area : Rect α) (row : Nat) (series : List (Series α)) : List (Series α × Nat) :=
  (series.zipIdx row).takeWhile fun entry => !le area.bottom (top area entry.2)

theorem shownFrom_cons (area : Rect α) (row : Nat) (first : Series α) (rest : List (Series α)) :
    shownFrom area row (first :: rest) =
      if le area.bottom (top area row) then [] else (first, row) :: shownFrom area (row + 1) rest := by
  rw [shownFrom, List.zipIdx_cons, List.takeWhile_cons]
  cases le area.bottom (top area row) <;> rfl

def shown (area : Rect α) (series : List (Series α)) : List (Series α × Nat) :=
  shownFrom area 0 series

theorem mem_of_mem_shown {area : Rect α} {series : List (Series α)} {entry : Series α × Nat}
    (member : entry ∈ shown area series) : entry.1 ∈ series := by
  have listed := (List.takeWhile_prefix _).mem member
  exact (List.mem_zipIdx_iff_getElem?.mp listed) |> List.mem_of_getElem?

variable {plot : Plot α} {area : Rect α}

/-- To draw rows as far as there is room is to draw the rows that there is room for. -/
theorem commandsFrom_eq (row : Nat) (series : List (Series α)) :
    commandsFrom plot area row series =
      (shownFrom area row series).mapM
        (fun entry => rowCommands plot area (top area entry.2) entry.1) >>=
          fun blocks => pure blocks.flatten := by
  induction series generalizing row with
  | nil => rfl
  | cons first rest ih =>
    rw [commandsFrom, shownFrom_cons, ih]
    split
    · rfl
    · rw [List.mapM_cons]
      cases rowCommands plot area (top area row) first with
      | error fault => rfl
      | ok block =>
        simp only [ok_bind]
        cases (shownFrom area (row + 1) rest).mapM
          fun entry => rowCommands plot area (top area entry.2) entry.1 <;> rfl

/-- A block is the lane and the name of the series, the mark of a placeholder, and the bars. -/
def block (plot : Plot α) (area : Rect α) (top : α) (series : Series α)
    (marks : List (Command α)) (bars : List (Bar α)) : List (Command α) :=
  .beginGroup s!"track-{series.track}" (some series.track) ::
    laneCommands area top series.track ++ marks ++ bars.filterMap (barCommand? plot top) ++
      [.endGroup]

/-- The row of an aligned series is a block; only a placeholder has a mark, and no bars. -/
theorem rowCommands_of_aligned (ordered : le plot.left plot.right = true) (area : Rect α) (top : α)
    {series : Series α} (aligned : series.isAligned = true) :
    ∃ marks bars, series.bars = .ok bars ∧
      rowCommands plot area top series = .ok (block plot area top series marks bars) ∧
      (series.placeholder = false → marks = []) ∧
      (series.placeholder = true → bars = [] ∧
        ∃ x, clamp? (plot.position 0.0) plot.left plot.right = some x ∧
          marks = [.rect ⟨x, top + barInset, 0.0, rowHeight - 2.0 * barInset⟩
            (.token .placeholder) none none none]) := by
  obtain ⟨bars, returned⟩ := Series.exists_bars aligned
  cases placeholder : series.placeholder with
  | false =>
    refine ⟨[], bars, returned, ?_, fun _ => rfl, by simp⟩
    simp [rowCommands, placeholder, returned, block]
  | true =>
    have empty : bars = [] := by
      simpa [Series.bars, Series.barIndices, placeholder, eq_comm] using returned
    obtain ⟨x, clamped⟩ : ∃ x, clamp? (plot.position 0.0) plot.left plot.right = some x := by
      simp [clamp?, ordered]
    refine ⟨_, bars, returned, ?_, by simp, fun _ => ⟨empty, x, clamped, rfl⟩⟩
    simp [rowCommands, placeholder, returned, block, placeholderCommand, clamped]

/-! ### The bars of a block -/

/-- A command with a text that shows on pointing at it; among rows these are the bars. -/
def isBar : Command α → Bool
  | .rect _ _ _ _ (some _) => true
  | _ => false

theorem isBar_of_barCommand {top : α} {bar : Bar α} {command : Command α}
    (drawn : barCommand? plot top bar = some command) : isBar command = true := by
  unfold barCommand? at drawn
  dsimp only at drawn
  split at drawn <;> cases drawn
  rfl

/-- Of a block only the bars can be pointed at. -/
theorem filter_block {area : Rect α} {top : α} {series : Series α} {marks : List (Command α)}
    (plain : ∀ command ∈ marks, isBar command = false) (bars : List (Bar α)) :
    (block plot area top series marks bars).filter isBar =
      bars.filterMap (barCommand? plot top) := by
  have none : marks.filter isBar = [] := by simpa using plain
  have all : (bars.filterMap (barCommand? plot top)).filter isBar =
      bars.filterMap (barCommand? plot top) := by
    rw [List.filter_eq_self]
    intro command member
    obtain ⟨bar, _, drawn⟩ := List.mem_filterMap.mp member
    exact isBar_of_barCommand drawn
  simp [block, List.filter_append, none, all, laneCommands, isBar]

/-- The bars of a row, as far as they are drawn. -/
theorem filter_rowCommands (ordered : le plot.left plot.right = true) {area : Rect α} {top : α}
    {series : Series α} (aligned : series.isAligned = true) {row : List (Command α)}
    (drawn : rowCommands plot area top series = .ok row) : ∃ bars, series.bars = .ok bars ∧
      row.filter isBar = bars.filterMap (barCommand? plot top) := by
  obtain ⟨marks, bars, returned, same, marked, placeholder⟩ :=
    rowCommands_of_aligned ordered area top aligned
  obtain rfl := Except.ok.inj (drawn.symm.trans same)
  refine ⟨bars, returned, filter_block (fun command member => ?_) bars⟩
  cases placed : series.placeholder with
  | false =>
    rw [marked placed] at member
    cases member
  | true =>
    obtain ⟨_, x, _, rfl⟩ := placeholder placed
    rw [List.mem_singleton.mp member]
    rfl

/-! ### The blocks of a drawing -/

/-- Where all series are aligned, the drawing is a block for each row that is shown. -/
theorem exists_blocks (ordered : le plot.left plot.right = true) {series : List (Series α)}
    (aligned : ∀ one ∈ series, one.isAligned = true) :
    ∃ blocks, commandsFrom plot area 0 series = .ok blocks.flatten ∧
      List.Forall₂ (fun entry drawn =>
        rowCommands plot area (top area entry.2) entry.1 = .ok drawn) (shown area series)
        blocks := by
  have returns : ∀ entry ∈ shown area series, ∃ drawn,
      rowCommands plot area (top area entry.2) entry.1 = .ok drawn := by
    intro entry member
    obtain ⟨_, _, _, drawn, _⟩ := rowCommands_of_aligned ordered area (top area entry.2)
      (aligned _ (mem_of_mem_shown member))
    exact ⟨_, drawn⟩
  obtain ⟨blocks, drawn⟩ := exists_mapM_ok returns
  refine ⟨blocks, ?_, (mapM_ok_iff _ _ _).mp drawn⟩
  rw [commandsFrom_eq]
  exact (bind_ok_iff _ _ _).mpr ⟨blocks, drawn, rfl⟩

end Rows

end TraceChart
