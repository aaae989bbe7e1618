import TraceChart.Proofs.Chart.Room
import TraceChart.Proofs.Chart.Rows
import TraceChart.Proofs.Terminal.Screen
import TraceChart.Terminal.Canvas

/-!
# Names and bars share no cell

Rows are laid out in pixels and then drawn on cells, so a name stays in its row, and bars stay out
of the names, only if no rounding carries either over the edge of a cell. Tops of rows are whole
numbers of pixels and exact, and the line that a name is written on is far enough from both edges of
its row. A bar begins at the end of the gutter or after it, and division keeps it there.
-/

namespace TraceChart.Terminal

open Binary64

/-! ### From pixels to cells -/

theorem cells_at {count : Nat} (small : count ≤ 65535) : cells (.at count) = count := by
  simp only [cells, Extended.within, mostCells]
  omega

theorem le_cells {least : Nat} (small : least ≤ 65535) {number : Binary64}
    (after : (Scalar.ofNat least : Binary64).le number = true) : least ≤ cells number.truncate := by
  obtain ⟨finite, value⟩ := ofInt_natCast (show least < significandLimit by
    simp only [significandLimit]; omega)
  cases number with
  | nan => simp [Binary64.le, isNaN] at after
  | infinite negative =>
    cases negative with
    -- What lies beyond all integers is counted as the most there can be.
    | false => exact small
    | true => cases isFinite_between finite finite after (infinite_le finite)
  | finite negative significand exponent canonical =>
    have above := (le_iff_value_le _ _ finite rfl).mp after
    rw [value] at above
    rw [truncate_of_nonneg rfl (le_trans (Nat.cast_nonneg _) above)]
    have floor : (least : Int) ≤
        ⌊(Binary64.finite negative significand exponent canonical).value⌋ :=
      Int.le_floor.mpr (by exact_mod_cast above)
    simp only [cells, Extended.within, mostCells]
    omega

theorem eight_exact : (8.0 : Binary64).isFinite = true ∧ (8.0 : Binary64).value = 8 := by
  exact_mod_cast @literal_exact 8 (by decide) (by decide)

theorem twentyfour_exact : (24.0 : Binary64).isFinite = true ∧ (24.0 : Binary64).value = 24 := by
  exact_mod_cast @literal_exact 24 (by decide) (by decide)

/-- The left edge of the plot. -/
def plotLeft : Binary64 := 128.0

theorem plotLeft_exact : plotLeft.isFinite = true ∧ plotLeft.value = 128 := by
  exact_mod_cast @literal_exact 128 (by decide) (by decide)

theorem le_columnAt {x : Binary64} (after : plotLeft.le x = true) : labelColumns ≤ columnAt x := by
  refine le_cells (by decide) ?_
  cases x with
  | nan => cases after
  | infinite negative =>
    cases negative with
    | false => decide
    | true => cases after
  | finite negative significand exponent canonical =>
    have above := (le_iff_value_le _ _ plotLeft_exact.1 rfl).mp after
    obtain ⟨finite, value⟩ := @ofInt_natCast labelColumns (by decide)
    refine (rounds_div rfl eight_exact.1 ?_).above _ finite ?_
    · rw [eight_exact.2]
      norm_num
    · change (ofInt labelColumns).value ≤ _
      rw [value, eight_exact.2, labelColumns]
      rw [plotLeft_exact.2] at above
      norm_num
      linarith

/-! ### Rows of pixels -/

/-- The area of a chart on cells, as many pixels wide and high as it takes. -/
def chartArea (width rows : Nat) : Rect Binary64 :=
  ⟨0.0, 0.0, Scalar.ofNat width * cellWidth, Rows.height rows⟩

theorem left_chartArea (width rows : Nat) (start finish : Binary64) :
    (Rows.Plot.ofArea (chartArea width rows) (Scalar.ofNat labelColumns * cellWidth) start
      finish).left = plotLeft := by
  have sum : (0.0 : Binary64) + Scalar.ofNat labelColumns * cellWidth = plotLeft := by
    decide +kernel
  exact sum

theorem spans_top (width rows : Nat) {row : Nat} (small : row ≤ 65535) :
    SpansRows row (Rows.top (chartArea width rows) row) := by
  have limit : 0 + row ≤ rowLimit := by
    simp only [rowLimit]
    omega
  have spans := SpansRows.zero.add (Rows.spans_height (by rwa [Nat.zero_add] at limit)) limit
  rwa [Nat.zero_add] at spans

/-- There is room for all rows of a chart. -/
theorem top_above_bottom (width : Nat) {row rows : Nat} (below : row < rows)
    (small : rows ≤ 65535) : Scalar.le (chartArea width rows).bottom
      (Rows.top (chartArea width rows) row) = false := by
  have bottom : SpansRows rows (chartArea width rows).bottom := spans_top width rows small
  exact bottom.not_le (spans_top width rows (by omega)) below

theorem label_offset : ((Rows.rowHeight : Binary64) * 0.65).isFinite = true ∧
    15 ≤ ((Rows.rowHeight : Binary64) * 0.65).value ∧
    ((Rows.rowHeight : Binary64) * 0.65).value ≤ 16 := by
  obtain ⟨fifteen, low⟩ := @literal_exact 15 (by decide) (by decide)
  obtain ⟨sixteen, high⟩ := @literal_exact 16 (by decide) (by decide)
  have finite : ((Rows.rowHeight : Binary64) * 0.65).isFinite = true := by decide
  refine ⟨finite, ?_, ?_⟩
  · have above := (le_iff_value_le _ _ fifteen finite).mp (by decide)
    rwa [low] at above
  · have below := (le_iff_value_le _ _ finite sixteen).mp (by decide)
    rwa [high] at below

/-- A name is written in its own row, whatever is lost to rounding on the way. -/
theorem rowAt_label (width rows : Nat) {row : Nat} (small : row ≤ 65535) :
    rowAt (Rows.top (chartArea width rows) row + Rows.rowHeight * 0.65) = row := by
  have limit : 24 * row + 24 < significandLimit := by
    simp only [significandLimit]
    omega
  obtain ⟨topFinite, top⟩ := spans_top width rows small
  obtain ⟨offsetFinite, offsetLow, offsetHigh⟩ := label_offset
  -- Rounding keeps the sum between two whole numbers of pixels in the row.
  obtain ⟨low, lowFinite, lowValue⟩ :=
    exists_finite_value (24 * row + 15) 0 (by omega) (by omega) (by omega)
  obtain ⟨high, highFinite, highValue⟩ :=
    exists_finite_value (24 * row + 16) 0 (by omega) (by omega) (by omega)
  obtain ⟨finite, above, below⟩ := (rounds_add topFinite offsetFinite).between lowFinite highFinite
    (by rw [lowValue, top]; push_cast; linarith) (by rw [highValue, top]; push_cast; linarith)
  rw [lowValue] at above
  rw [highValue] at below
  push_cast at above below
  -- The quotient stays between five eighths and three quarters of the way to the next row.
  obtain ⟨least, leastFinite, leastValue⟩ :=
    exists_finite_value (8 * row + 5) (-3) (by omega) (by omega) (by omega)
  obtain ⟨most, mostFinite, mostValue⟩ :=
    exists_finite_value (4 * row + 3) (-2) (by omega) (by omega) (by omega)
  have divided := rounds_div finite twentyfour_exact.1 (by rw [twentyfour_exact.2]; norm_num)
  rw [twentyfour_exact.2] at divided
  obtain ⟨quotientFinite, quotientAbove, quotientBelow⟩ := divided.between leastFinite mostFinite
    (by rw [leastValue]; push_cast; norm_num; linarith)
    (by rw [mostValue]; push_cast; norm_num; linarith)
  rw [leastValue] at quotientAbove
  rw [mostValue] at quotientBelow
  push_cast at quotientAbove quotientBelow
  norm_num at quotientAbove quotientBelow
  have truncated := @truncate_of_bounds _ quotientFinite row (by linarith) (by linarith)
  exact (congrArg cells truncated).trans (cells_at small)

/-! ### Where strokes lie -/

theorem write_row (area : Area) (row : Nat) (ink : Option Color) (covered : Change) (column : Nat)
    (clusters : List Cluster) : ∀ stroke ∈ area.write row ink covered column clusters,
      stroke.row = area.top + row := by
  induction clusters generalizing column with
  | nil => simp [Area.write]
  | cons cluster clusters ih =>
    intro stroke member
    simp only [Area.write, List.cons_append, List.mem_cons, List.mem_append, List.mem_map] at member
    rcases member with rfl | ⟨offset, _, rfl⟩ | later
    · rfl
    · rfl
    · exact ih _ stroke later

/-- A drawing leaves no stroke above or below its area. -/
theorem strokes_row (edge : Nat) (area : Area) (commands : List (Command Binary64)) :
    ∀ stroke ∈ strokes edge area commands,
      area.top ≤ stroke.row ∧ stroke.row < area.top + area.height := by
  intro stroke member
  obtain ⟨command, _, drawn⟩ := List.mem_flatMap.mp member
  cases command with
  | rect rect fill border label hover =>
    simp only [commandStrokes, rectStrokes] at drawn
    split at drawn
    · cases drawn
    · next inside =>
      push Not at inside
      split at drawn
      · obtain rfl := List.mem_singleton.mp drawn
        simp only [Area.stroke]
        omega
      · obtain ⟨offset, _, rfl⟩ := List.mem_map.mp drawn
        simp only [Area.stroke]
        omega
  | text position text color size align =>
    simp only [commandStrokes, textStrokes] at drawn
    split at drawn
    · cases drawn
    · next inside =>
      have row := write_row _ _ _ _ _ _ stroke drawn
      omega
  | line => cases drawn
  | beginGroup => cases drawn
  | endGroup => cases drawn

/-- What begins in the plot leaves no stroke among the names. -/
theorem column_of_beginsAfter {edge : Nat} {area : Area} {command : Command Binary64}
    (after : Rows.BeginsAfter plotLeft command) :
    ∀ stroke ∈ commandStrokes edge area command, labelColumns ≤ stroke.column := by
  intro stroke member
  cases command with
  | rect rect fill border label hover =>
    have column := le_columnAt after
    simp only [commandStrokes, rectStrokes] at member
    split at member
    · cases member
    · split at member
      · obtain rfl := List.mem_singleton.mp member
        simp only [Area.stroke]
        omega
      · obtain ⟨offset, _, rfl⟩ := List.mem_map.mp member
        simp only [Area.stroke]
        omega
  | _ => cases after

/-! ### Names -/

def shownName (width : Nat) (name : String) : List Char :=
  name.toList.take (min (labelColumns - 1) width)

/-- What the name of a track does to the cells of its row, from the left edge on. -/
def nameChanges (width : Nat) (name : String) : List Change :=
  writeChanges (some .white) .clear (fitting width (printable (clusters (shownName width name))))

/-- What the name of the track of a row, if the row has one, does to a cell. -/
def nameChange? (width : Nat) (track : Option (Track Binary64)) (column : Nat) : Option Change := do
  let track ← track
  (nameChanges width track.name)[column]?

/-- No part of a name has the color of the highlight. -/
theorem ink_nameChanges {width : Nat} {name : String} : ∀ change ∈ nameChanges width name,
    change.ink.getD .reset ≠ Color.ofToken .selectionHighlight := by
  intro change member
  obtain ⟨cluster, _, written⟩ := List.mem_flatMap.mp member
  rcases List.mem_cons.mp written with rfl | covered
  · exact (by decide : Color.white ≠ Color.lightYellow)
  · obtain rfl := List.eq_of_mem_replicate covered
    decide

variable (width : Nat) {height : Nat}

theorem changesAt_lane (rows : Nat) {row : Nat} (small : row ≤ 65535) (below : row < height)
    (name : String) (column line : Nat) :
    let lane := Rows.laneCommands (chartArea width rows) (Rows.top (chartArea width rows) row) name
    changesAt (strokes width ⟨0, 1, width, height⟩ lane) column line =
      if 1 + row = line then ((nameChanges width name)[column]?).toList else [] := by
  dsimp only
  have positive := (fitting_spec width (printable (clusters (shownName width name)))).1
  have written : strokes width ⟨0, 1, width, height⟩ (Rows.laneCommands (chartArea width rows)
      (Rows.top (chartArea width rows) row) name) =
      (nameChanges width name).mapIdx fun index change =>
        (⟨0, 1, width, height⟩ : Area).stroke (0 + index) row change := by
    rw [nameChanges, ← write_eq _ _ _ _ _ positive]
    simp only [strokes, Rows.laneCommands, List.flatMap_cons, List.flatMap_nil, commandStrokes,
      rectStrokes, textStrokes, rowAt_label width rows small, if_neg (not_le.mpr below), true_or,
      if_true, List.nil_append, List.append_nil]
    rfl
  rw [written, changesAt_along]
  simp

section Rows

variable {plot : Rows.Plot Binary64} (left : plot.left = plotLeft)
  (ordered : Scalar.le plot.left plot.right = true)
  (zeroPlaced : Scalar.le (plot.position 0.0) (plot.position 0.0) = true)

include left ordered zeroPlaced

/-- Among the names, a row of the chart does nothing but write the name of its track. -/
theorem rowCommands_names (rows : Nat) {row : Nat} (small : row ≤ 65535) (below : row < height)
    (track : Track Binary64) :
    ∃ commands, Rows.rowCommands plot (chartArea width rows) (Rows.top (chartArea width rows) row)
        (.ofTrack track) = .ok commands ∧
      ∀ column < labelColumns, ∀ line,
        changesAt (strokes width ⟨0, 1, width, height⟩ commands) column line =
          if 1 + row = line then ((nameChanges width track.name)[column]?).toList else [] := by
  obtain ⟨marks, drawn, after⟩ := Rows.rowCommands_ofTrack ordered zeroPlaced (chartArea width rows)
    (Rows.top (chartArea width rows) row) track
  refine ⟨_, drawn, fun column among line => ?_⟩
  have right : changesAt (strokes width ⟨0, 1, width, height⟩ marks) column line = [] := by
    apply changesAt_of_elsewhere
    intro stroke member same
    obtain ⟨command, listed, placed⟩ := List.mem_flatMap.mp member
    have beyond := column_of_beginsAfter (left ▸ after command listed) stroke placed
    omega
  have lane := changesAt_lane width rows small below track.name column line
  have parts : strokes width ⟨0, 1, width, height⟩
      (.beginGroup s!"track-{track.name}" (some track.name) ::
        Rows.laneCommands (chartArea width rows) (Rows.top (chartArea width rows) row) track.name ++
          marks ++ [.endGroup]) =
      strokes width ⟨0, 1, width, height⟩ (Rows.laneCommands (chartArea width rows)
        (Rows.top (chartArea width rows) row) track.name) ++
          strokes width ⟨0, 1, width, height⟩ marks := by
    simp [strokes, commandStrokes]
  rw [parts, changesAt_append, right, List.append_nil]
  exact lane

/-- Rows that are drawn from an index on write the names of their tracks, each on its own line. -/
theorem commandsFrom_names {rows : Nat} (small : rows ≤ 65535) (room : rows ≤ height) (row : Nat)
    (tracks : List (Track Binary64)) (fits : row + tracks.length ≤ rows) :
    ∃ commands, Rows.commandsFrom plot (chartArea width rows) row (tracks.map Series.ofTrack) =
        .ok commands ∧
      ∀ column < labelColumns, ∀ line,
        changesAt (strokes width ⟨0, 1, width, height⟩ commands) column (1 + line) =
          if row ≤ line then (nameChange? width tracks[line - row]? column).toList else [] := by
  induction tracks generalizing row with
  | nil => exact ⟨[], rfl, by simp [strokes, changesAt, nameChange?]⟩
  | cons track tracks ih =>
    rw [List.length_cons] at fits
    have below : row < rows := by omega
    obtain ⟨first, drawn, named⟩ := rowCommands_names width left ordered zeroPlaced rows
      (show row ≤ 65535 by omega) (show row < height by omega) track
    obtain ⟨others, rest, others_named⟩ := ih (row + 1) (by omega)
    refine ⟨first ++ others, ?_, fun column among line => ?_⟩
    · simp [Rows.commandsFrom, top_above_bottom width below small, drawn, rest]
    · have split : strokes width ⟨0, 1, width, height⟩ (first ++ others) =
          strokes width ⟨0, 1, width, height⟩ first ++
            strokes width ⟨0, 1, width, height⟩ others := by
        simp [strokes]
      rw [split, changesAt_append, named column among, others_named column among]
      -- The line is that of a later row, of the first one, or of none.
      rcases Nat.lt_trichotomy row line with less | rfl | more
      · obtain ⟨offset, rfl⟩ := Nat.exists_eq_add_of_lt less
        have later : row + 1 ≤ row + offset + 1 := by omega
        have shift : row + offset + 1 - (row + 1) = offset := by omega
        have next : row + offset + 1 - row = offset + 1 := by omega
        rw [if_neg (by omega), if_pos later, if_pos less.le, shift, next, List.nil_append,
          List.getElem?_cons_succ]
      · simp [nameChange?]
      · rw [if_neg (by omega), if_neg (by omega), if_neg (not_le.mpr more), List.nil_append]

end Rows

end TraceChart.Terminal
