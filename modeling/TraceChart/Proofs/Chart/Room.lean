import TraceChart.Proofs.Chart.Texts
import TraceChart.Proofs.Number.Whole

/-!
# Room for all rows

A chart is as high as its ruler and its rows together. Both are whole numbers of rows high, and up
to 2^48 rows no sum of such heights is rounded, so each row begins above the bottom of the chart and
none is left out. In a viewport of another height, what the ruler leaves is not rounded either as
long as it matters, so the rows that begin above the bottom can be told from the height itself.
-/

namespace TraceChart

open Binary64

/-- A height of so many rows, as it should be. -/
structure SpansRows (count : Nat) (height : Binary64) : Prop where
  finite : height.isFinite = true
  value : height.value = 24 * count

/-- The number of rows from which on heights may be rounded. -/
def rowLimit : Nat := 281474976710656

namespace SpansRows

variable {count other : Nat} {height added : Binary64}

theorem of_rounds (rounds : Rounds height (24 * count)) (small : count ≤ rowLimit) :
    SpansRows count height := by
  have limit : 24 * count < significandLimit := by
    simp only [significandLimit, rowLimit] at *
    omega
  obtain ⟨number, finite, valued⟩ := exists_finite_value (24 * count) 0 limit (by omega) (by omega)
  obtain ⟨resultFinite, value⟩ := rounds.exact finite (by simpa using valued)
  exact ⟨resultFinite, value⟩

theorem row : SpansRows 1 24.0 := by
  obtain ⟨finite, value⟩ := @literal_exact 24 (by decide) (by decide)
  exact ⟨finite, by rw [Nat.cast_one, mul_one]; exact value⟩

theorem zero : SpansRows 0 0.0 :=
  ⟨rfl, by rw [Nat.cast_zero, mul_zero]; exact value_zero⟩

theorem add (spans : SpansRows count height) (further : SpansRows other added)
    (small : count + other ≤ rowLimit) : SpansRows (count + other) (height + added) := by
  refine of_rounds ?_ small
  -- The exact sum is a whole number of rows again, and as such it is not rounded.
  have rounds := rounds_add spans.finite further.finite
  rwa [spans.value, further.value, ← mul_add, ← Nat.cast_add] at rounds

theorem le_iff (spans : SpansRows count height) (further : SpansRows other added) :
    height.le added = true ↔ count ≤ other := by
  rw [le_iff_value_le _ _ spans.finite further.finite, spans.value, further.value,
    mul_le_mul_iff_right₀ (by norm_num), Nat.cast_le]

theorem not_le (spans : SpansRows count height) (further : SpansRows other added)
    (less : other < count) : height.le added = false := by
  rw [← Bool.not_eq_true, spans.le_iff further]
  exact Nat.not_le_of_lt less

/-- What lies between two heights of so many rows is one itself. -/
theorem of_between (spans : SpansRows count height) (above : height.le added = true)
    (below : added.le height = true) : SpansRows count added := by
  have finite := isFinite_between spans.finite spans.finite above below
  refine ⟨finite, le_antisymm ?_ ?_⟩
  · rw [← spans.value]
    exact (le_iff_value_le _ _ finite spans.finite).mp below
  · rw [← spans.value]
    exact (le_iff_value_le _ _ spans.finite finite).mp above

end SpansRows

theorem Rows.spans_height {count : Nat} (small : count ≤ rowLimit) :
    SpansRows count (Rows.height count) := by
  refine .of_rounds ?_ small
  have limit : count < significandLimit := by
    simp only [significandLimit, rowLimit] at *
    omega
  obtain ⟨finite, counted⟩ := ofInt_natCast limit
  have rounds := rounds_mul finite SpansRows.row.finite
  rwa [counted, SpansRows.row.value, Nat.cast_one, mul_one, mul_comm] at rounds

namespace Chart

theorem spans_height {count : Nat} (small : count < rowLimit) :
    SpansRows (1 + count) (Chart.height count) :=
  SpansRows.row.add (Rows.spans_height small.le) (by omega)

/-! What is left of a viewport below its ruler is none of it, all of it less the ruler, which is not
rounded, or at least as high as all rows. -/

variable {count row : Nat} {viewport : Viewport Binary64}

/-- What a viewport has below its ruler. -/
def room (viewport : Viewport Binary64) : Binary64 :=
  Scalar.larger (viewport.height - Ruler.height) 0.0

theorem spans_room (finite : viewport.height.isFinite = true)
    (low : viewport.height.value ≤ 24) : SpansRows 0 (room viewport) := by
  have zeroNumber : Scalar.le (0.0 : Binary64) 0.0 = true := by decide
  have below : (viewport.height - Ruler.height).le 0.0 = true := by
    refine (rounds_sub finite SpansRows.row.finite).below 0.0 rfl ?_
    rw [SpansRows.row.value, value_zero]
    push_cast
    linarith
  exact SpansRows.zero.of_between (Scalar.le_larger _ zeroNumber)
    (Scalar.larger_le (fun _ => below) zeroNumber)

theorem value_room (finite : viewport.height.isFinite = true)
    (above : 24 ≤ viewport.height.value) (small : viewport.height.value < 2 ^ 53) :
    (room viewport).isFinite = true ∧ (room viewport).value = viewport.height.value - 24 := by
  obtain ⟨rest, restFinite, valued⟩ := @exists_sub_natCast _ finite 24 above small
  have rounds := rounds_sub finite SpansRows.row.finite
  rw [SpansRows.row.value, Nat.cast_one, mul_one] at rounds
  obtain ⟨leftFinite, left⟩ := rounds.exact restFinite valued
  have zeroFinite : (0.0 : Binary64).isFinite = true := rfl
  refine ⟨@Scalar.finite_larger Binary64 _ _ _ leftFinite zeroFinite, ?_⟩
  have larger := value_larger leftFinite zeroFinite
  rwa [left, value_zero, max_eq_left (sub_nonneg.mpr above)] at larger

theorem rows_le_room (small : count < rowLimit) (finite : viewport.height.isFinite = true)
    (high : 24 * (1 + count) ≤ viewport.height.value) :
    Scalar.le (Rows.height count) (room viewport) = true := by
  have rows := Rows.spans_height small.le
  have rounds := rounds_sub finite SpansRows.row.finite
  have below : Scalar.le (Rows.height count) (viewport.height - Ruler.height) = true := by
    refine rounds.above _ rows.finite ?_
    rw [rows.value, SpansRows.row.value]
    push_cast
    linarith
  exact OrderedScalar.le_trans below
    (Scalar.left_le_larger (OrderedScalar.number_right below) (by decide))

/-- The rows of a chart end where they would with room for all of them, or at the bottom of the
viewport if it has less; with no room at all they end below the ruler. -/
theorem bottom_value (small : count < rowLimit) (finite : viewport.height.isFinite = true) :
    (rowArea count viewport).bottom.isFinite = true ∧
      (rowArea count viewport).bottom.value =
        min (24 * (1 + count) : ℚ) (max 24 viewport.height.value) := by
  have rows := Rows.spans_height small.le
  have rowsNumber : Scalar.le (Rows.height count : Binary64) (Rows.height count) = true :=
    OrderedScalar.number_of_finite rows.finite
  have counted : (0 : ℚ) ≤ count := Nat.cast_nonneg count
  have bottom_eq : (rowArea count viewport).bottom =
      (24.0 : Binary64) + Scalar.smaller (Rows.height count) (room viewport) := rfl
  rw [bottom_eq]
  rcases le_or_gt viewport.height.value 24 with low | above
  · -- The ruler takes all there is.
    have none := spans_room finite low
    have roomNumber := OrderedScalar.number_of_finite (α := Binary64) none.finite
    have rest : SpansRows 0 (Scalar.smaller (Rows.height count) (room viewport)) :=
      none.of_between (Scalar.le_smaller (fun _ => (none.le_iff rows).mpr (Nat.zero_le _)) roomNumber)
        (Scalar.smaller_le_right _ roomNumber)
    have sum := SpansRows.row.add rest (by decide)
    refine ⟨sum.finite, sum.value.trans ?_⟩
    rw [max_eq_left low, min_eq_right (by linarith)]
    push_cast
    ring
  rcases le_or_gt (24 * (1 + count) : ℚ) viewport.height.value with high | less
  · -- All rows have room. What else is left may be rounded, but not to less than they take.
    have wide := rows_le_room small finite high
    have rest : SpansRows count (Scalar.smaller (Rows.height count) (room viewport)) :=
      rows.of_between (Scalar.le_smaller (fun _ => rowsNumber) wide)
        (Scalar.smaller_le_left rowsNumber _)
    have sum := SpansRows.row.add rest (by omega)
    refine ⟨sum.finite, sum.value.trans ?_⟩
    rw [max_eq_right above.le, min_eq_left high]
    push_cast
    ring
  · -- The rows are cut. To take the ruler off and to put it back leaves the height as it is.
    have limit : viewport.height.value < 2 ^ 53 := by
      have most : (count : ℚ) + 1 ≤ 281474976710656 := by exact_mod_cast small
      norm_num
      linarith
    obtain ⟨roomFinite, roomValue⟩ := value_room finite above.le limit
    have restFinite := @Scalar.finite_smaller Binary64 _ _ _ rows.finite roomFinite
    have rest := value_smaller rows.finite roomFinite
    rw [rows.value, roomValue, min_eq_right (by linarith)] at rest
    have rounds := rounds_add SpansRows.row.finite restFinite
    rw [SpansRows.row.value, rest, Nat.cast_one, mul_one, add_sub_cancel] at rounds
    obtain ⟨sumFinite, sum⟩ := rounds.exact finite rfl
    exact ⟨sumFinite, by rw [sum, max_eq_right above.le, min_eq_right less.le]⟩

theorem spans_top (small : row < rowLimit) (count : Nat) (viewport : Viewport Binary64) :
    SpansRows (1 + row) (Rows.top (rowArea count viewport) row) :=
  SpansRows.row.add (Rows.spans_height small.le) (by omega)

/-- A row begins above the bottom where the viewport is higher than the ruler and all rows before. -/
theorem top_above_bottom_iff (small : count < rowLimit) (finite : viewport.height.isFinite = true)
    (below : row < count) :
    Scalar.le (rowArea count viewport).bottom (Rows.top (rowArea count viewport) row) = false ↔
      (24 * (1 + row) : ℚ) < viewport.height.value := by
  have top := spans_top (below.trans small) count viewport
  obtain ⟨bottomFinite, bottom⟩ := bottom_value small finite
  have compared := le_iff_value_le _ _ bottomFinite top.finite
  have within : (24 * (1 + row) : ℚ) < 24 * (1 + count) := by
    have counted : (row : ℚ) < count := by exact_mod_cast below
    linarith
  have behind : (24 : ℚ) ≤ 24 * (1 + row) := by
    have counted : (0 : ℚ) ≤ row := Nat.cast_nonneg row
    linarith
  rw [top.value, bottom, Nat.cast_add, Nat.cast_one] at compared
  refine (Bool.not_eq_true _).symm.to_iff.trans ((not_congr compared).trans ?_)
  rw [not_le, lt_min_iff, lt_max_iff, and_iff_right within, or_iff_right behind.not_gt]

/-- The top of each row lies above the bottom of the chart. -/
theorem top_above_bottom (small : count < rowLimit) (below : row < count) (width : Binary64) :
    Scalar.le (rowArea count ⟨width, Chart.height count⟩).bottom
      (Rows.top (rowArea count ⟨width, Chart.height count⟩) row) = false := by
  have own := spans_height small
  refine (top_above_bottom_iff small own.finite below).mpr ?_
  rw [own.value]
  exact_mod_cast Nat.mul_lt_mul_of_pos_left (Nat.add_lt_add_left below 1) (by decide)

end Chart

/-- A drawing has a row for each track. -/
theorem Timeline.parts_of_tracks {timeline : Timeline Binary64} {width : Binary64}
    {commands : List (Command Binary64)} (small : timeline.tracks.length < rowLimit)
    (drawn : timeline.drawing width = .ok commands) :
    ∃ rows ruler, Chart.Parts timeline.tracks commands rows ruler := by
  obtain ⟨shown, rows, ruler, _, parts, all⟩ := Timeline.parts_of_drawing drawn
  have counted : timeline.series.length < rowLimit := by rwa [Timeline.series, List.length_map]
  obtain rfl := all fun row below => Chart.top_above_bottom counted below width
  exact ⟨rows, ruler, parts⟩

end TraceChart
