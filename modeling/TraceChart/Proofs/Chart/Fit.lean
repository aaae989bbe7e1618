import TraceChart.Proofs.Chart.Groups
import TraceChart.Proofs.Chart.Room

/-!
# What fits into a viewport

A row is drawn if it begins above the bottom of the viewport, whether or not it also ends there. So
a chart has every row that fits, and at a height of so many rows exactly so many; at other heights
the last row that is drawn reaches out of the viewport, by less than its own height.
-/

namespace TraceChart

open Binary64

/-! ### The rows that are drawn -/

/-- If the rows above the bottom are those before some row, the rows shown are the first so many. -/
theorem Rows.shownFrom_eq_take {α : Type} [Scalar α] (area : Rect α) (count : Nat) {row : Nat}
    {series : List (Series α)}
    (above : ∀ later < row + series.length,
      Scalar.le area.bottom (top area later) = false ↔ later < count) :
    shownFrom area row series = (series.take (count - row)).zipIdx row := by
  induction series generalizing row with
  | nil =>
    rw [List.take_nil]
    rfl
  | cons first rest ih =>
    rw [shownFrom_cons]
    have here := above row (by simp)
    split
    next below =>
      -- No row from here on is among the first.
      rw [below, Bool.true_eq_false, false_iff] at here
      rw [Nat.sub_eq_zero_of_le (not_lt.mp here), List.take_zero, List.zipIdx_nil]
    next notBelow =>
      have before := here.mp (by simpa using notBelow)
      have left : count - row = count - (row + 1) + 1 := by omega
      rw [left, List.take_succ_cons, List.zipIdx_cons, ih fun later below => above later (by
        rw [List.length_cons]
        omega)]

theorem take_zipIdx {α : Type} (items : List α) (count : Nat) :
    items.zipIdx.take count = (items.take count).zipIdx := by
  apply List.ext_getElem?
  intro index
  by_cases below : index < count <;> simp [below]

namespace Chart

/-- The number of rows that begin above a height, below the ruler. -/
def rowsAbove (height : ℚ) : Nat :=
  ⌈height / 24⌉₊ - 1

theorem lt_rowsAbove_iff {row : Nat} {height : ℚ} :
    row < rowsAbove height ↔ 24 * (1 + row : ℚ) < height := by
  have counted : row < rowsAbove height ↔ row + 1 < ⌈height / 24⌉₊ := by
    rw [rowsAbove]
    omega
  rw [counted, Nat.lt_ceil, lt_div_iff₀ (by norm_num)]
  push_cast
  constructor <;> intro less <;> linarith

theorem rowsAbove_mono {height greater : ℚ} (ordered : height ≤ greater) :
    rowsAbove height ≤ rowsAbove greater := by
  apply le_of_forall_lt
  intro row below
  exact lt_rowsAbove_iff.mpr ((lt_rowsAbove_iff.mp below).trans_le ordered)

/-- At its own height a chart has room for its rows and no more. -/
theorem rowsAbove_own (count : Nat) : rowsAbove (24 * (1 + count)) = count := by
  apply eq_of_forall_lt_iff
  intro row
  rw [lt_rowsAbove_iff, mul_lt_mul_iff_right₀ (by norm_num), add_lt_add_iff_left, Nat.cast_lt]

variable {series : List (Series Binary64)} {viewport : Viewport Binary64}

/-- The rows of a chart are those of the first series, as many as begin above the bottom. -/
theorem shown_eq (small : series.length < rowLimit) (finite : viewport.height.isFinite = true) :
    Rows.shown (rowArea series.length viewport) series =
      (series.take (rowsAbove viewport.height.value)).zipIdx := by
  refine Rows.shownFrom_eq_take _ (rowsAbove viewport.height.value) fun row below => ?_
  rw [Nat.zero_add] at below
  rw [top_above_bottom_iff small finite below, lt_rowsAbove_iff]

/-- A chart is drawn unless its ruler has labels without end. -/
theorem exists_commands_iff {start finish : Binary64}
    (aligned : ∀ one ∈ series, one.isAligned = true) :
    (∃ drawn, commands series viewport start finish = .ok drawn) ↔
      ¬ Ruler.Unlabelled (rulerArea viewport) start finish := by
  obtain ⟨groups, drawn, _⟩ := exists_groups viewport start finish aligned
  have widthNumber : Scalar.le (rulerArea viewport).width (rulerArea viewport).width = true :=
    OrderedScalar.number_right (Scalar.le_larger (viewport.width - gutter) (by decide))
  rw [← Ruler.exists_commands_iff widthNumber (rowArea series.length viewport).height,
    commands_eq drawn]
  constructor
  · rintro ⟨whole, returned⟩
    obtain ⟨ruler, ruled, _⟩ := (bind_ok_iff _ _ _).mp returned
    exact ⟨ruler, ruled⟩
  · rintro ⟨ruler, ruled⟩
    exact ⟨_, (bind_ok_iff _ _ _).mpr ⟨ruler, ruled, rfl⟩⟩

/-- A chart that is drawn is the groups of the first series and what its ruler adds. -/
theorem exists_groups_of_commands {start finish : Binary64} {drawn : List (Command Binary64)}
    (aligned : ∀ one ∈ series, one.isAligned = true) (small : series.length < rowLimit)
    (finite : viewport.height.isFinite = true)
    (returned : commands series viewport start finish = .ok drawn) :
    ∃ groups ruler, drawn = groups.flatMap Group.commands ++ ruler ∧
      pieces? drawn = some (groups.map .group ++ ruler.map .single) ∧
      List.Forall₂ (Rows.RowGroup (plotOf series.length viewport start finish)
        (rowArea series.length viewport))
          (series.take (rowsAbove viewport.height.value)).zipIdx groups := by
  obtain ⟨groups, rowsDrawn, rows⟩ := exists_groups viewport start finish aligned
  rw [commands_eq rowsDrawn] at returned
  obtain ⟨ruler, ruled, joined⟩ := (bind_ok_iff _ _ _).mp returned
  obtain rfl := Except.ok.inj joined
  exact ⟨groups, ruler, rfl, pieces?_chart rows ruled, shown_eq small finite ▸ rows⟩

/-- Every row that fits is drawn. At the height of a chart with so many rows these are all that are
drawn, so at its own height a chart shows each of its series. -/
theorem rows_of_viewport (start finish : Binary64) (aligned : ∀ one ∈ series, one.isAligned = true)
    (small : series.length < rowLimit) (finite : viewport.height.isFinite = true) :
    let row := Rows.RowGroup (plotOf series.length viewport start finish)
      (rowArea series.length viewport)
    ((∃ drawn, commands series viewport start finish = .ok drawn) ↔
      ¬ Ruler.Unlabelled (rulerArea viewport) start finish) ∧
    ∀ drawn, commands series viewport start finish = .ok drawn →
      ∃ groups ruler, drawn = groups.flatMap Group.commands ++ ruler ∧
        pieces? drawn = some (groups.map .group ++ ruler.map .single) ∧
        (∀ count < rowLimit, Scalar.le (height count) viewport.height = true →
          List.Forall₂ row (series.take count).zipIdx (groups.take count)) ∧
        (∀ count < rowLimit, viewport.height = height count →
          List.Forall₂ row (series.take count).zipIdx groups) ∧
        (viewport.height = height series.length → List.Forall₂ row series.zipIdx groups) := by
  intro row
  refine ⟨exists_commands_iff aligned, fun drawn returned => ?_⟩
  obtain ⟨groups, ruler, whole, read, rows⟩ :=
    exists_groups_of_commands aligned small finite returned
  -- Above the height of a chart with so many rows begin just these.
  have only : ∀ count < rowLimit, viewport.height = height count →
      List.Forall₂ row (series.take count).zipIdx groups := by
    intro count within same
    rw [same, (spans_height within).value, Nat.cast_add, Nat.cast_one, rowsAbove_own] at rows
    exact rows
  refine ⟨groups, ruler, whole, read, fun count within fits => ?_, only, fun same => ?_⟩
  · have own := spans_height within
    have ordered := (le_iff_value_le _ _ own.finite finite).mp fits
    rw [own.value, Nat.cast_add, Nat.cast_one] at ordered
    have enough := rowsAbove_mono ordered
    rw [rowsAbove_own] at enough
    -- The rows that fit are the first of those that are drawn.
    have first := List.forall₂_take count rows
    rwa [take_zipIdx, List.take_take, min_eq_left enough] at first
  · have all := only _ small same
    rwa [List.take_length] at all

/-- In a viewport as high as a chart of one row, only the first of three series is drawn. In one that
is somewhat higher than a chart of two rows, the first two are. -/
theorem rows_of_three_series :
    let series : List (Series Binary64) := ["A", "B", "C"].map .ofEmptyTrack
    (∃ (groups : List (Group Binary64)) (ruler : List (Command Binary64)),
      commands series ⟨800.0, height 1⟩ 0.0 1.0 = .ok (groups.flatMap Group.commands ++ ruler) ∧
      groups.map Group.id = ["track-A"]) ∧
    ∃ (groups : List (Group Binary64)) (ruler : List (Command Binary64)),
      commands series ⟨800.0, 80.0⟩ 0.0 1.0 = .ok (groups.flatMap Group.commands ++ ruler) ∧
      (groups.take 2).map Group.id = ["track-A", "track-B"] := by
  intro series
  have aligned : ∀ one ∈ series, one.isAligned = true := by decide
  constructor
  · obtain ⟨drawable, rows⟩ := @rows_of_viewport series ⟨800.0, height 1⟩ 0.0 1.0 aligned
      (by decide) (by decide +kernel)
    obtain ⟨drawn, returned⟩ := drawable.mpr (by
      unfold Ruler.Unlabelled
      decide +kernel)
    obtain ⟨groups, ruler, rfl, _, _, only, _⟩ := rows drawn returned
    exact ⟨groups, ruler, returned,
      (Rows.map_id_of_rows (only 1 (by decide) rfl)).trans (by decide)⟩
  · obtain ⟨drawable, rows⟩ := @rows_of_viewport series ⟨800.0, 80.0⟩ 0.0 1.0 aligned
      (by decide) (by decide +kernel)
    obtain ⟨drawn, returned⟩ := drawable.mpr (by
      unfold Ruler.Unlabelled
      decide +kernel)
    obtain ⟨groups, ruler, rfl, _, fit, _⟩ := rows drawn returned
    exact ⟨groups, ruler, returned,
      (Rows.map_id_of_rows (fit 2 (by decide) (by decide +kernel))).trans (by decide)⟩

/-- A chart of its own height that is not drawn, since its window is too short to be labelled. -/
theorem rows_of_unlabelled_window :
    (height 1 : Binary64) = 48.0 ∧
      commands [.ofEmptyTrack "A"] ⟨400.0, 48.0⟩ (0.0 : Binary64) 1e-323 =
        .error .tooManyPlaces := by
  constructor <;> decide +kernel

end Chart

/-! ### Where rows end -/

/-- The rectangle of a command, if it draws one. -/
def Command.rect? {α : Type} : Command α → Option (Rect α)
  | .rect bounds _ _ _ _ => some bounds
  | _ => none

namespace Rows

section Rectangles

variable {α : Type} [Scalar α] {plot : Plot α} {area : Rect α} {entry : Series α × Nat}
  {group : Group α}

/-- What a row draws besides its lane stands inset from the edges of the lane. -/
theorem RowGroup.rect_cases (row : RowGroup plot area entry group) {rect : Rect α}
    (member : rect ∈ group.commands.filterMap Command.rect?) :
    rect = ⟨area.x, top area entry.2, area.width, rowHeight⟩ ∨
      rect.y = top area entry.2 + barInset ∧ rect.height = rowHeight - 2.0 * barInset := by
  cases placed : entry.1.placeholder with
  | true =>
    obtain ⟨x, _, body⟩ := row.placeholder placed
    simp only [Group.commands, body, laneMark, nameMark, List.cons_append, List.nil_append,
      List.filterMap_cons, List.filterMap_nil, Command.rect?, List.mem_cons, List.not_mem_nil,
      or_false] at member
    rcases member with rfl | rfl
    · exact .inl rfl
    · exact .inr ⟨rfl, rfl⟩
  | false =>
    obtain ⟨command, within, drawn⟩ := List.mem_filterMap.mp member
    simp only [Group.commands, row.bars placed, List.cons_append, List.mem_cons, List.mem_append,
      List.not_mem_nil, or_false, List.mem_map] at within
    rcases within with rfl | rfl | rfl | ⟨bar, _, rfl⟩ | rfl <;> cases drawn
    · exact .inl rfl
    · exact .inr ⟨rfl, rfl⟩

theorem RowGroup.lane_mem (row : RowGroup plot area entry group) :
    ⟨area.x, top area entry.2, area.width, rowHeight⟩ ∈
      group.commands.filterMap Command.rect? := by
  cases placed : entry.1.placeholder with
  | true =>
    obtain ⟨x, _, body⟩ := row.placeholder placed
    simp [Group.commands, body, laneMark, Command.rect?]
  | false => simp [Group.commands, row.bars placed, laneMark, Command.rect?]

end Rectangles

/-- An inset mark ends where its lane would less the inset, and is not rounded. -/
theorem bottom_inset {row : Nat} {top : Binary64} (spans : SpansRows (1 + row) top)
    (small : row < rowLimit) :
    (top + barInset + (rowHeight - 2.0 * barInset)).isFinite = true ∧
      (top + barInset + (rowHeight - 2.0 * barInset)).value = 24 * (1 + row) + 20 := by
  have four := @literal_exact 4 (by decide) (by decide)
  have sixteen := @literal_exact 16 (by decide) (by decide)
  have limit : 24 * (1 + row) + 4 + 16 < significandLimit := by
    simp only [significandLimit, rowLimit] at *
    omega
  have begun : top.isFinite = true ∧ top.value = (24 * (1 + row) : Nat) :=
    ⟨spans.finite, by rw [spans.value]; push_cast; rfl⟩
  obtain ⟨insetFinite, inset⟩ := add_exact begun four (by omega)
  have sum := add_exact ⟨insetFinite, by rw [inset]; exact (Nat.cast_add _ 4).symm⟩ sixteen limit
  have height : (rowHeight - 2.0 * barInset : Binary64) = 16.0 := by decide +kernel
  rw [height]
  refine ⟨sum.1, sum.2.trans ?_⟩
  push_cast
  ring

variable {plot : Plot Binary64} {area : Rect Binary64} {entry : Series Binary64 × Nat}
  {group : Group Binary64}

/-- All rectangles of a row end at the bottom of its lane or above it. -/
theorem RowGroup.bottom_le (row : RowGroup plot area entry group)
    (spans : SpansRows (1 + entry.2) (top area entry.2)) (small : entry.2 + 2 ≤ rowLimit)
    {rect : Rect Binary64} (member : rect ∈ group.commands.filterMap Command.rect?) :
    rect.bottom.isFinite = true ∧ rect.bottom.value ≤ 24 * (2 + entry.2) := by
  rcases row.rect_cases member with rfl | ⟨y, height⟩
  · have lane := spans.add SpansRows.row (by omega)
    refine ⟨lane.finite, lane.value.le.trans ?_⟩
    push_cast
    linarith
  · rw [Rect.bottom, y, height]
    obtain ⟨finite, value⟩ := bottom_inset spans (by omega)
    exact ⟨finite, by rw [value]; linarith⟩

theorem RowGroup.exists_lane (row : RowGroup plot area entry group)
    (spans : SpansRows (1 + entry.2) (top area entry.2)) (small : entry.2 + 2 ≤ rowLimit) :
    ∃ rect ∈ group.commands.filterMap Command.rect?, SpansRows (2 + entry.2) rect.bottom := by
  refine ⟨_, row.lane_mem, ?_⟩
  have lane := spans.add SpansRows.row (by omega)
  rwa [Nat.add_right_comm] at lane

end Rows

namespace Chart

/-- All rows that are drawn also end within a height exactly where none is drawn, all rows have
room, or the height is a whole number of rows. -/
theorem rows_end_iff {count : Nat} {height : ℚ} :
    (∀ row < min count (rowsAbove height), 24 * (2 + row : ℚ) ≤ height) ↔
      count = 0 ∨ height ≤ 24 ∨ 24 * (1 + count : ℚ) ≤ height ∨
        ∃ whole : Nat, height = 24 * (1 + whole) := by
  constructor
  · intro fits
    rcases Nat.eq_zero_or_pos count with none | some
    · exact .inl none
    rcases Nat.eq_zero_or_pos (rowsAbove height) with low | drawn
    · right; left
      have notBelow : ¬ 24 * (1 + (0 : Nat) : ℚ) < height := by
        rw [← lt_rowsAbove_iff, low]
        exact Nat.lt_irrefl 0
      simpa using notBelow
    -- The last row that is drawn fits.
    obtain ⟨last, final⟩ : ∃ last, min count (rowsAbove height) = last + 1 :=
      Nat.exists_eq_succ_of_ne_zero (by omega)
    have fit := fits last (by omega)
    have same : (min count (rowsAbove height) : Nat) = (last + 1 : ℚ) := by
      rw [final]
      push_cast
      rfl
    rcases le_or_gt count (rowsAbove height) with enough | few
    · rw [min_eq_left enough] at same
      right; right; left
      rw [same]
      linarith
    · rw [min_eq_right few.le] at same
      right; right; right
      refine ⟨rowsAbove height, le_antisymm ?_ ?_⟩
      · exact not_lt.mp fun less => (lt_rowsAbove_iff.mpr less).false
      · rw [same]
        linarith
  · rintro cases row below
    obtain ⟨counted, drawn⟩ := lt_min_iff.mp below
    have above := lt_rowsAbove_iff.mp drawn
    have nonneg : (0 : ℚ) ≤ row := Nat.cast_nonneg row
    rcases cases with none | low | enough | ⟨whole, rfl⟩
    · omega
    · linarith
    · have next : (row + 1 : ℚ) ≤ count := by exact_mod_cast counted
      linarith
    · have less : (row : ℚ) < whole := by linarith
      have next : (row + 1 : ℚ) ≤ whole := by exact_mod_cast Nat.cast_lt.mp less
      linarith

end Chart

namespace Rows

variable {plot : Plot Binary64} {area : Rect Binary64} {groups : List (Group Binary64)}

theorem mem_rects {rect : Rect Binary64} :
    rect ∈ (groups.flatMap Group.commands).filterMap Command.rect? ↔
      ∃ group ∈ groups, rect ∈ group.commands.filterMap Command.rect? := by
  rw [List.filterMap_flatMap, List.mem_flatMap]

section Series

variable {series : List (Series Binary64)} (small : series.length < rowLimit)
  (spans : ∀ row < series.length, SpansRows (1 + row) (top area row))
  (pairs : List.Forall₂ (RowGroup plot area) series.zipIdx groups)

include small spans pairs

/-- Each rectangle belongs to a row, and ends at the bottom of its lane or above it. -/
theorem exists_row_of_rect {rect : Rect Binary64}
    (member : rect ∈ (groups.flatMap Group.commands).filterMap Command.rect?) :
    ∃ row < series.length, rect.bottom.isFinite = true ∧
      rect.bottom.value ≤ 24 * (2 + row : ℚ) := by
  obtain ⟨group, drawn, listed⟩ := mem_rects.mp member
  obtain ⟨entry, found, grouped⟩ := forall₂_exists pairs.flip group drawn
  have below : entry.2 < series.length := List.snd_lt_of_mem_zipIdx found
  exact ⟨entry.2, below, grouped.bottom_le (spans _ below) (by omega) listed⟩

/-- What the first rows draw ends within a bound if and only if their lanes do. -/
theorem rects_le_iff {bound : Binary64} (finite : bound.isFinite = true) :
    (∀ rect ∈ (groups.flatMap Group.commands).filterMap Command.rect?, rect.bottom.le bound = true) ↔
      ∀ row < series.length, 24 * (2 + row : ℚ) ≤ bound.value := by
  constructor
  · intro within row below
    have member : (series[row], row) ∈ series.zipIdx := by
      rw [List.mk_mem_zipIdx_iff_getElem?]
      exact List.getElem?_eq_getElem below
    obtain ⟨group, drawn, grouped⟩ := forall₂_exists pairs _ member
    obtain ⟨lane, listed, ends⟩ := grouped.exists_lane (spans row below) (by simp only; omega)
    have ordered := within lane (mem_rects.mpr ⟨group, drawn, listed⟩)
    rw [le_iff_value_le _ _ ends.finite finite, ends.value] at ordered
    exact_mod_cast ordered
  · intro fits rect member
    obtain ⟨row, below, bottomFinite, ends⟩ := exists_row_of_rect small spans pairs member
    rw [le_iff_value_le _ _ bottomFinite finite]
    exact ends.trans (fits row below)

end Series

end Rows

namespace Chart

variable {series : List (Series Binary64)} {viewport : Viewport Binary64}

/-- Rows that do not begin above the bottom of a viewport are dropped, and what is drawn of the
others reaches out of it by less than a row. All of it ends within the viewport if and only if no
row is drawn, all rows have room, or the height is a whole number of rows. -/
theorem extent_of_viewport (start finish : Binary64)
    (aligned : ∀ one ∈ series, one.isAligned = true) (small : series.length < rowLimit)
    (finite : viewport.height.isFinite = true) :
    let area := rowArea series.length viewport
    let height := viewport.height.value
    ∃ groups, Rows.commands series area gutter start finish =
        .ok (groups.flatMap Group.commands) ∧
      commands series viewport start finish =
        (Ruler.commands (rulerArea viewport) start finish area.height >>=
          fun ruler => pure (groups.flatMap Group.commands ++ ruler)) ∧
      List.Forall₂ (Rows.RowGroup (plotOf series.length viewport start finish) area)
        (series.take (rowsAbove height)).zipIdx groups ∧
      let rects := (groups.flatMap Group.commands).filterMap Command.rect?
      (∀ rect ∈ rects, rect.bottom.isFinite = true ∧ rect.bottom.value < height + 24) ∧
      ((∀ rect ∈ rects, rect.bottom.le viewport.height = true) ↔
        series.length = 0 ∨ height ≤ 24 ∨ 24 * (1 + series.length : ℚ) ≤ height ∨
          ∃ whole : Nat, height = 24 * (1 + whole)) := by
  intro area height
  obtain ⟨groups, rowsDrawn, rows⟩ := exists_groups viewport start finish aligned
  rw [shown_eq small finite] at rows
  have taken : (series.take (rowsAbove height)).length = min series.length (rowsAbove height) := by
    rw [List.length_take, min_comm]
  have spans : ∀ row < (series.take (rowsAbove height)).length,
      SpansRows (1 + row) (Rows.top area row) :=
    fun row below => spans_top (by omega) series.length viewport
  refine ⟨groups, rowsDrawn, commands_eq rowsDrawn, rows, fun rect member => ?_, ?_⟩
  · obtain ⟨row, below, bottomFinite, ends⟩ :=
      Rows.exists_row_of_rect (by omega) spans rows member
    have begun := lt_rowsAbove_iff.mp (show row < rowsAbove height by omega)
    exact ⟨bottomFinite, by linarith⟩
  · rw [Rows.rects_le_iff (by omega) spans rows finite, taken, rows_end_iff]

/-- At the height of a chart of two rows, what is drawn of three series ends within the viewport. -/
theorem extent_of_two_rows :
    let series := [Rows.cutSeries Binary64, .ofEmptyTrack "idle", Rows.cutSeries Binary64]
    ∃ groups : List (Group Binary64),
      Rows.commands series (rowArea 3 ⟨400.0, height 2⟩) gutter 1.0 5.0 =
        .ok (groups.flatMap Group.commands) ∧
      ∀ rect ∈ (groups.flatMap Group.commands).filterMap Command.rect?,
        rect.bottom.le (height 2) = true := by
  intro series
  have own := @spans_height 2 (by decide)
  obtain ⟨groups, drawn, _, _, _, within⟩ := @extent_of_viewport series ⟨400.0, height 2⟩ 1.0 5.0
    (by decide) (by decide) own.finite
  refine ⟨groups, drawn, within.mpr (.inr (.inr (.inr ⟨2, ?_⟩)))⟩
  rw [own.value]
  norm_num

/-- A row that begins above the bottom of a viewport and ends below it. -/
theorem extent_of_cut_row :
    (commands [.ofEmptyTrack "A"] ⟨100.0, 30.0⟩ (0.0 : Binary64) 1.0).map
        (fun drawn => (drawn.filterMap Command.rect?).map Rect.bottom) = .ok [48.0, 44.0] ∧
      (48.0 : Binary64).le 30.0 = false := by
  constructor <;> decide +kernel

end Chart

end TraceChart
