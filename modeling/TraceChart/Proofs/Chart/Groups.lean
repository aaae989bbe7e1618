import TraceChart.Proofs.Chart.Bars
import TraceChart.Proofs.Chart.Ruler

/-!
# Groups of a drawing

A drawing is a flat list of commands, in which groups are no more than two commands that begin and
end them. Read from the front, the rows of a chart are groups side by side, one for each series that
has room: in it stand the lane, the name, and the marks of that series alone. What the ruler adds
stands in no group.
-/

namespace TraceChart

open Scalar

variable {α : Type}

/-! ### Reading groups -/

/-- A group with its name and what stands in it. -/
structure Group (α : Type) where
  id : String
  label : Option String
  body : List (Command α)

/-- A part of a drawing: a group, or a command that stands in none. -/
inductive Piece (α : Type) where
  | group (group : Group α)
  | single (command : Command α)

def Group.commands (group : Group α) : List (Command α) :=
  .beginGroup group.id group.label :: group.body ++ [.endGroup]

/-- Read commands into pieces, where a group may be open already. There is no reading if a group
begins inside another one, ends without having begun, or does not end. -/
def piecesFrom? : Option (Group α) → List (Command α) → Option (List (Piece α))
  | none, [] => some []
  | some _, [] => none
  | none, .beginGroup id label :: rest => piecesFrom? (some ⟨id, label, []⟩) rest
  | some _, .beginGroup _ _ :: _ => none
  | none, .endGroup :: _ => none
  | some group, .endGroup :: rest => (piecesFrom? none rest).map (.group group :: ·)
  | none, command :: rest => (piecesFrom? none rest).map (.single command :: ·)
  | some group, command :: rest =>
    piecesFrom? (some { group with body := group.body ++ [command] }) rest

def pieces? (commands : List (Command α)) : Option (List (Piece α)) :=
  piecesFrom? none commands

/-- A group with no group inside. -/
def Group.Plain (group : Group α) : Prop :=
  ∀ command ∈ group.body, command.isGroup = false

/-! A command that neither begins nor ends a group goes into the one that is open, if there is one. -/

theorem piecesFrom?_single {command : Command α} (plain : command.isGroup = false)
    (rest : List (Command α)) : piecesFrom? none (command :: rest) =
      (piecesFrom? none rest).map (.single command :: ·) := by
  cases command <;> first | rfl | cases plain

theorem piecesFrom?_inside (group : Group α) {command : Command α}
    (plain : command.isGroup = false) (rest : List (Command α)) :
    piecesFrom? (some group) (command :: rest) =
      piecesFrom? (some { group with body := group.body ++ [command] }) rest := by
  cases command <;> first | rfl | cases plain

theorem piecesFrom?_body (group : Group α) {body : List (Command α)}
    (plain : ∀ command ∈ body, command.isGroup = false) (rest : List (Command α)) :
    piecesFrom? (some group) (body ++ .endGroup :: rest) =
      (piecesFrom? none rest).map (.group { group with body := group.body ++ body } :: ·) := by
  induction body generalizing group with
  | nil => rw [List.nil_append, List.append_nil, piecesFrom?]
  | cons command body ih =>
    obtain ⟨first, others⟩ := List.forall_mem_cons.mp plain
    rw [List.cons_append, piecesFrom?_inside group first, ih _ others, List.append_assoc]
    rfl

theorem pieces?_groups {groups : List (Group α)} (plain : ∀ group ∈ groups, group.Plain)
    (rest : List (Command α)) : pieces? (groups.flatMap Group.commands ++ rest) =
      (pieces? rest).map (groups.map Piece.group ++ ·) := by
  induction groups with
  | nil => cases read : pieces? rest <;> simp [read]
  | cons group groups ih =>
    obtain ⟨first, others⟩ := List.forall_mem_cons.mp plain
    have split : (group :: groups).flatMap Group.commands ++ rest =
        .beginGroup group.id group.label ::
          (group.body ++ .endGroup :: (groups.flatMap Group.commands ++ rest)) := by
      simp [Group.commands]
    rw [split, pieces?, piecesFrom?, piecesFrom?_body _ first, ← pieces?, ih others,
      Option.map_map]
    rfl

theorem pieces?_plain {commands : List (Command α)}
    (plain : ∀ command ∈ commands, command.isGroup = false) :
    pieces? commands = some (commands.map .single) := by
  induction commands with
  | nil => rfl
  | cons command commands ih =>
    obtain ⟨first, others⟩ := List.forall_mem_cons.mp plain
    rw [pieces?, piecesFrom?_single first, ← pieces?, ih others]
    rfl

/-! ### Bars of aligned series -/

namespace Series

/-- The entries of the lists of a series, put together index by index. -/
def entries (series : Series α) : List (Bar α) :=
  (series.bases.zip (series.durations.zip (series.hover.zip
    (series.labels.zip series.colors)))).map
      fun (base, duration, hover, label, color) => ⟨base, duration, hover, label, color⟩

/-- Where the lists are aligned, the bars are all entries, and a placeholder has none. -/
theorem bars_of_aligned {series : Series α} (aligned : series.isAligned = true) :
    series.bars = .ok (if series.placeholder then [] else series.entries) := by
  simp only [isAligned, Bool.and_eq_true, beq_iff_eq] at aligned
  obtain ⟨⟨⟨⟨rows, bases⟩, hover⟩, labels⟩, colors⟩ := aligned
  unfold bars
  rw [mapM_ok_iff]
  cases placeholder : series.placeholder with
  | true => simp [barIndices, placeholder]
  | false =>
    simp only [barIndices, placeholder, Bool.false_eq_true, if_false, List.forall₂_iff_get]
    have size : series.entries.length = series.size := by
      simp [entries, bases, hover, labels, colors, Series.size]
    refine ⟨by simp [size], fun index below listed => ?_⟩
    rw [List.length_range] at below
    unfold bar bar?
    rw [List.get_eq_getElem, List.getElem_range, List.getElem?_eq_getElem (bases.symm ▸ below),
      List.getElem?_eq_getElem below, List.getElem?_eq_getElem (hover.symm ▸ below),
      List.getElem?_eq_getElem (labels.symm ▸ below),
      List.getElem?_eq_getElem (colors.symm ▸ below)]
    simp [entries]
    rfl

end Series

namespace Rows

variable [Scalar α]

/-! ### The group of a row -/

/-- A bar shows unless it lies wholly to one side of the plot. -/
def Plot.shows (plot : Plot α) (bar : Bar α) : Bool :=
  !(lt (plot.position bar.finish) plot.left || lt plot.right (plot.position bar.base))

/-- The rectangle of a bar, cut at the edges of the plot, in the color of the bar and with its label
and hover text. -/
def barMark (plot : Plot α) (top : α) (bar : Bar α) : Command α :=
  let start := larger (plot.position bar.base) plot.left
  let finish := smaller (plot.position bar.finish) plot.right
  .rect ⟨start, top + barInset, finish - start, rowHeight - 2.0 * barInset⟩
    (bar.color.elim (.token .placeholder) .named) none (some bar.label) (some bar.hover)

theorem barCommand?_eq (plot : Plot α) (top : α) (bar : Bar α) :
    barCommand? plot top bar = if plot.shows bar then some (barMark plot top bar) else none := by
  unfold barCommand? Plot.shows barMark
  dsimp only
  cases lt (plot.position bar.finish) plot.left || lt plot.right (plot.position bar.base) with
  | true => rfl
  | false => cases bar.color <;> rfl

/-- The bars of a series that show, of which a placeholder has none. -/
def shownBars (plot : Plot α) (series : Series α) : List (Bar α) :=
  if series.placeholder then [] else series.entries.filter plot.shows

/-- The lane of a row: a rectangle with a border, over the whole width of the area. -/
def laneMark (area : Rect α) (top : α) : Command α :=
  .rect ⟨area.x, top, area.width, rowHeight⟩ (.token .laneBackground) (some .laneBorder) none none

/-- The name of a series, at the left end of its lane. -/
def nameMark (area : Rect α) (top : α) (name : String) : Command α :=
  .text ⟨area.x + labelPadding, top + rowHeight * 0.65⟩ name (.token .laneHeaderText) fontSize .left

theorem laneCommands_eq (area : Rect α) (top : α) (name : String) :
    laneCommands area top name = [laneMark area top, nameMark area top name] := rfl

/-- The group of a row. It has the name of the series, and in it stand the lane and the name, and
then either the mark of a placeholder, which has no width, or the bars that show, in order. -/
structure RowGroup (plot : Plot α) (area : Rect α) (entry : Series α × Nat) (group : Group α) :
    Prop where
  id : group.id = s!"track-{entry.1.track}"
  label : group.label = some entry.1.track
  placeholder : entry.1.placeholder = true →
    ∃ x, clamp? (plot.position 0.0) plot.left plot.right = some x ∧
      group.body = [laneMark area (top area entry.2),
        nameMark area (top area entry.2) entry.1.track,
        .rect ⟨x, top area entry.2 + barInset, 0.0, rowHeight - 2.0 * barInset⟩
          (.token .placeholder) none none none]
  bars : entry.1.placeholder = false →
    group.body = laneMark area (top area entry.2) ::
      nameMark area (top area entry.2) entry.1.track ::
        (shownBars plot entry.1).map (barMark plot (top area entry.2))

variable {plot : Plot α} {area : Rect α} {entry : Series α × Nat} {group : Group α}

theorem RowGroup.plain (row : RowGroup plot area entry group) : group.Plain := by
  intro command member
  cases placed : entry.1.placeholder with
  | true =>
    obtain ⟨x, _, body⟩ := row.placeholder placed
    simp only [body, List.mem_cons, List.not_mem_nil, or_false] at member
    rcases member with rfl | rfl | rfl <;> rfl
  | false =>
    simp only [row.bars placed, List.mem_cons, List.mem_map] at member
    rcases member with rfl | rfl | ⟨bar, _, rfl⟩ <;> rfl

/-- Whatever the series, its group begins with the lane and the name. -/
theorem RowGroup.front (row : RowGroup plot area entry group) :
    group.body.take 2 =
      [laneMark area (top area entry.2), nameMark area (top area entry.2) entry.1.track] := by
  cases placed : entry.1.placeholder with
  | true =>
    obtain ⟨x, _, body⟩ := row.placeholder placed
    rw [body]
    rfl
  | false =>
    rw [row.bars placed]
    rfl

/-- Of a row only the bars that show can be pointed at. -/
theorem RowGroup.filter_isBar (row : RowGroup plot area entry group) :
    group.commands.filter isBar =
      (shownBars plot entry.1).map (barMark plot (top area entry.2)) := by
  have all : ((shownBars plot entry.1).map (barMark plot (top area entry.2))).filter isBar =
      (shownBars plot entry.1).map (barMark plot (top area entry.2)) := by
    rw [List.filter_eq_self]
    intro command member
    obtain ⟨bar, _, rfl⟩ := List.mem_map.mp member
    rfl
  cases placed : entry.1.placeholder with
  | true =>
    obtain ⟨x, _, body⟩ := row.placeholder placed
    simp [Group.commands, body, laneMark, nameMark, isBar, shownBars, placed]
  | false =>
    simp [Group.commands, row.bars placed, laneMark, nameMark, isBar, List.filter_append, all]

/-- The row of an aligned series is its group. -/
theorem exists_rowGroup (ordered : le plot.left plot.right = true) (area : Rect α)
    (entry : Series α × Nat) (aligned : entry.1.isAligned = true) :
    ∃ group, rowCommands plot area (top area entry.2) entry.1 = .ok group.commands ∧
      RowGroup plot area entry group := by
  obtain ⟨marks, bars, returned, drawn, bare, marked⟩ :=
    rowCommands_of_aligned ordered area (top area entry.2) aligned
  obtain rfl := Except.ok.inj (returned.symm.trans (Series.bars_of_aligned aligned))
  refine ⟨⟨s!"track-{entry.1.track}", some entry.1.track,
    laneCommands area (top area entry.2) entry.1.track ++ marks ++
      (if entry.1.placeholder then [] else entry.1.entries).filterMap
        (barCommand? plot (top area entry.2))⟩, drawn, rfl, rfl, fun placed => ?_, fun placed => ?_⟩
  · obtain ⟨_, x, clamped, rfl⟩ := marked placed
    exact ⟨x, clamped, by simp [placed, laneCommands_eq]⟩
  · have drawnBars : entry.1.entries.filterMap (barCommand? plot (top area entry.2)) =
        (shownBars plot entry.1).map (barMark plot (top area entry.2)) := by
      rw [shownBars, placed, if_neg Bool.false_ne_true, ← List.filterMap_eq_map,
        List.filterMap_filter]
      exact List.filterMap_congr fun bar _ => barCommand?_eq plot (top area entry.2) bar
    simp [placed, bare placed, drawnBars, laneCommands_eq]

/-- Where all series are aligned, the rows are groups, one for each row that is shown. -/
theorem exists_groups (ordered : le plot.left plot.right = true) {series : List (Series α)}
    (aligned : ∀ one ∈ series, one.isAligned = true) :
    ∃ groups, commandsFrom plot area 0 series = .ok (groups.flatMap Group.commands) ∧
      List.Forall₂ (RowGroup plot area) (shown area series) groups := by
  obtain ⟨groups, rows⟩ := exists_forall₂ fun entry (member : entry ∈ shown area series) =>
    exists_rowGroup ordered area entry (aligned _ (mem_of_mem_shown member))
  refine ⟨groups, ?_, rows.imp fun _ _ row => row.2⟩
  rw [commandsFrom_eq, List.flatMap_def]
  refine (bind_ok_iff _ _ _).mpr ⟨groups.map Group.commands, ?_, rfl⟩
  rw [mapM_ok_iff, List.forall₂_map_right_iff]
  exact rows.imp fun _ _ row => row.1

theorem plain_of_rows {rows : List (Series α × Nat)} {groups : List (Group α)}
    (pairs : List.Forall₂ (RowGroup plot area) rows groups) : ∀ group ∈ groups, group.Plain := by
  intro group member
  obtain ⟨entry, _, row⟩ := forall₂_exists pairs.flip group member
  exact row.plain

/-- The groups of some rows have the names of their series, in order. -/
theorem map_id_of_rows {rows : List (Series α × Nat)} {groups : List (Group α)}
    (pairs : List.Forall₂ (RowGroup plot area) rows groups) :
    groups.map Group.id = rows.map fun entry => s!"track-{entry.1.track}" := by
  induction pairs with
  | nil => rfl
  | cons row _ ih => rw [List.map_cons, List.map_cons, row.id, ih]

/-- The groups of some rows begin with the lanes and the names of their series, in order. -/
theorem map_front_of_rows {rows : List (Series α × Nat)} {groups : List (Group α)}
    (pairs : List.Forall₂ (RowGroup plot area) rows groups) :
    groups.map (fun group => group.body.take 2) = rows.map fun entry =>
      [laneMark area (top area entry.2), nameMark area (top area entry.2) entry.1.track] := by
  induction pairs with
  | nil => rfl
  | cons row _ ih => rw [List.map_cons, List.map_cons, row.front, ih]

/-- All that can be pointed at in some rows: the bars of one row after those of another. -/
theorem filter_rows {rows : List (Series α × Nat)} {groups : List (Group α)}
    (pairs : List.Forall₂ (RowGroup plot area) rows groups) :
    (groups.flatMap Group.commands).filter isBar = rows.flatMap fun entry =>
      (shownBars plot entry.1).map (barMark plot (top area entry.2)) := by
  induction pairs with
  | nil => rfl
  | cons row _ ih => rw [List.flatMap_cons, List.filter_append, row.filter_isBar, ih,
      List.flatMap_cons]

/-! ### The rows that begin above the bottom -/

theorem isPrefix_shown (area : Rect α) (series : List (Series α)) :
    shown area series <+: series.zipIdx :=
  List.takeWhile_prefix _

/-- As soon as one row begins at or below the bottom, so do all after it; hence the rows that are
shown are all that do not. -/
theorem mem_shownFrom (descending : ∀ row later, row ≤ later → le area.bottom (top area row) = true →
      le area.bottom (top area later) = true) {row : Nat} {series : List (Series α)}
    {entry : Series α × Nat} (member : entry ∈ series.zipIdx row) :
    entry ∈ shownFrom area row series ↔ le area.bottom (top area entry.2) = false := by
  induction series generalizing row with
  | nil => cases member
  | cons first rest ih =>
    rw [shownFrom_cons]
    rw [List.zipIdx_cons, List.mem_cons] at member
    have after : row ≤ entry.2 := by
      rcases member with rfl | later
      · exact le_rfl
      · exact (Nat.le_succ row).trans (List.le_snd_of_mem_zipIdx later)
    split
    next below => simp [descending _ _ after below]
    next above =>
      rw [List.mem_cons]
      rcases member with rfl | later
      · simpa using above
      · rw [← ih later]
        refine ⟨fun found => found.resolve_left ?_, .inr⟩
        rintro rfl
        exact absurd (List.le_snd_of_mem_zipIdx later) (Nat.not_succ_le_self row)

/-- Rows begin further down one after the other, however their tops are rounded. -/
theorem top_le_top {area : Rect Binary64} (finite : area.y.isFinite = true) {row later : Nat}
    (ordered : row ≤ later) : (top area row).le (top area later) = true := by
  have numbers : (Binary64.ofInt row).le (Binary64.ofInt later) = true :=
    (Binary64.rounded_ofInt row).le (Binary64.rounded_ofInt later) (by exact_mod_cast ordered)
  have offset (count : Nat) : (Binary64.ofInt count * (24.0 : Binary64)).isNaN = false := by
    cases counted : Binary64.ofInt count with
    | nan =>
      have number := (Binary64.rounded_ofInt count).rounds.number
      rw [counted] at number
      cases number
    | infinite => rfl
    | finite => exact (Binary64.rounds_mul rfl (by decide)).number
  exact Binary64.add_le_add finite
    (Binary64.mul_le_mul (by decide) numbers (offset row) (offset later))

/-- In an area at a finite place, the rows that are shown are all whose top lies above the bottom.
-/
theorem mem_shown_iff {area : Rect Binary64} (yFinite : area.y.isFinite = true)
    (heightFinite : area.height.isFinite = true) {series : List (Series Binary64)}
    {entry : Series Binary64 × Nat} (member : entry ∈ series.zipIdx) :
    entry ∈ shown area series ↔ (top area entry.2).lt area.bottom = true := by
  have bottomNumber : area.bottom.le area.bottom = true :=
    (Binary64.le_self_iff _).mpr (Binary64.rounds_add yFinite heightFinite).number
  have topNumber := top_le_top yFinite (le_refl entry.2)
  have all : entry ∈ shown area series ↔ area.bottom.le (top area entry.2) = false :=
    mem_shownFrom (fun row later ordered below =>
      OrderedScalar.le_trans below (top_le_top yFinite ordered)) member
  rw [all]
  exact ⟨fun above => (OrderedScalar.lt_iff (α := Binary64)).mpr ⟨topNumber, bottomNumber, above⟩,
    fun above => (OrderedScalar.lt_iff (α := Binary64).mp above).2.2⟩

end Rows

/-! ### Charts -/

/-- What belongs to a ruler forms no group and cannot be pointed at. -/
theorem Ruler.unmarked_of_commands [Scalar α] {area : Rect α} {start finish gridHeight : α}
    {drawn : List (Command α)} (returned : commands area start finish gridHeight = .ok drawn) :
    ∀ command ∈ drawn, command.isGroup = false ∧ Rows.isBar command = false := by
  refine forall_of_commands returned ⟨rfl, rfl⟩ fun tick block ticked => ?_
  obtain ⟨shown, rfl, _⟩ := tickCommands_eq_mark _ _ _ _ ticked
  cases shown with
  | none => simp [tickMark, Command.isGroup, Rows.isBar]
  | some label =>
    rw [tickMark]
    split <;> simp [Command.isGroup, Rows.isBar]

namespace Chart

/-- A chart is its rows and then its ruler, so it fails only where the ruler does. -/
theorem commands_eq [Scalar α] {series : List (Series α)} {viewport : Viewport α}
    {start finish : α} {rows : List (Command α)}
    (drawn : Rows.commands series (rowArea series.length viewport) gutter start finish = .ok rows) :
    commands series viewport start finish =
      Ruler.commands (rulerArea viewport) start finish (rowArea series.length viewport).height >>=
        fun ruler => pure (rows ++ ruler) := by
  rw [commands, drawn]
  rfl

/-- The plot of a chart, to the right of the names. -/
def plotOf [Scalar α] (count : Nat) (viewport : Viewport α) (start finish : α) : Rows.Plot α :=
  .ofArea (rowArea count viewport) gutter start finish

theorem exists_groups {series : List (Series Binary64)} (viewport : Viewport Binary64)
    (start finish : Binary64) (aligned : ∀ one ∈ series, one.isAligned = true) :
    let area := rowArea series.length viewport
    ∃ groups, Rows.commands series area gutter start finish =
        .ok (groups.flatMap Group.commands) ∧
      List.Forall₂ (Rows.RowGroup (plotOf series.length viewport start finish) area)
        (Rows.shown area series) groups :=
  Rows.exists_groups (left_le_right _ viewport start finish) aligned

/-- The rows and the ruler of a chart are read as groups and what stands in none. -/
theorem pieces?_chart {plot : Rows.Plot Binary64} {area ruled : Rect Binary64}
    {rows : List (Series Binary64 × Nat)} {groups : List (Group Binary64)}
    {ruler : List (Command Binary64)} {start finish gridHeight : Binary64}
    (pairs : List.Forall₂ (Rows.RowGroup plot area) rows groups)
    (returned : Ruler.commands ruled start finish gridHeight = .ok ruler) :
    pieces? (groups.flatMap Group.commands ++ ruler) =
      some (groups.map .group ++ ruler.map .single) := by
  have plain : ∀ command ∈ ruler, command.isGroup = false := fun command member =>
    (Ruler.unmarked_of_commands returned command member).1
  rw [pieces?_groups (Rows.plain_of_rows pairs), pieces?_plain plain]
  rfl

end Chart

open Rows in
/-- The rows of aligned series are groups side by side, one for each row that begins above the
bottom, and each with the lane, the name and the marks of its own series; so every bar that shows is
drawn once, in the group of its series. A chart has nothing else but what its ruler adds, which
stands in no group and cannot be pointed at. -/
theorem groups_of_series :
    (∀ (series : List (Series Binary64)) (area : Rect Binary64) (gutter start finish : Binary64),
      (∀ one ∈ series, one.isAligned = true) → (area.x + gutter).isFinite = true →
      area.y.isFinite = true → area.height.isFinite = true →
        let plot := Plot.ofArea area gutter start finish
        shown area series <+: series.zipIdx ∧
        (∀ entry ∈ series.zipIdx,
          entry ∈ shown area series ↔ (top area entry.2).lt area.bottom = true) ∧
        ∃ groups, Rows.commands series area gutter start finish =
            .ok (groups.flatMap Group.commands) ∧
          List.Forall₂ (RowGroup plot area) (shown area series) groups ∧
          pieces? (groups.flatMap Group.commands) = some (groups.map .group) ∧
          (groups.flatMap Group.commands).filter isBar = (shown area series).flatMap fun entry =>
            (shownBars plot entry.1).map (barMark plot (top area entry.2))) ∧
    ∀ (series : List (Series Binary64)) (viewport : Viewport Binary64) (start finish : Binary64),
      (∀ one ∈ series, one.isAligned = true) →
        let area := Chart.rowArea series.length viewport
        let plot := Chart.plotOf series.length viewport start finish
        let ruled := Ruler.commands (Chart.rulerArea viewport) start finish area.height
        ∃ groups, Rows.commands series area Chart.gutter start finish =
            .ok (groups.flatMap Group.commands) ∧
          List.Forall₂ (RowGroup plot area) (shown area series) groups ∧
          Chart.commands series viewport start finish =
            (ruled >>= fun ruler => pure (groups.flatMap Group.commands ++ ruler)) ∧
          ∀ ruler, ruled = .ok ruler →
            (∀ command ∈ ruler, command.isGroup = false ∧ isBar command = false) ∧
            pieces? (groups.flatMap Group.commands ++ ruler) =
              some (groups.map .group ++ ruler.map .single) := by
  constructor
  · intro series area gutter start finish aligned left yFinite heightFinite plot
    refine ⟨isPrefix_shown area series, fun entry => mem_shown_iff yFinite heightFinite, ?_⟩
    obtain ⟨groups, drawn, rows⟩ := Rows.exists_groups (Plot.left_le_right left) aligned
    have read := pieces?_groups (plain_of_rows rows) []
    rw [List.append_nil, pieces?_plain (List.forall_mem_nil _)] at read
    exact ⟨groups, drawn, rows, by simpa using read, filter_rows rows⟩
  · intro series viewport start finish aligned area plot ruled
    obtain ⟨groups, drawn, rows⟩ := Chart.exists_groups viewport start finish aligned
    exact ⟨groups, drawn, rows, Chart.commands_eq drawn, fun ruler returned =>
      ⟨Ruler.unmarked_of_commands returned, Chart.pieces?_chart rows returned⟩⟩

open Rows in
/-- Two rows have room, the first with two bars in sight; below them a third row is left out. Each
begins with its lane and its name. -/
theorem groups_of_three_series :
    let series := [cutSeries Binary64, .ofEmptyTrack "idle", cutSeries Binary64]
    let lane (top : Binary64) : Command Binary64 :=
      .rect ⟨0.0, top, 400.0, 24.0⟩ (.token .laneBackground) (some .laneBorder) none none
    let name (y : Binary64) (text : String) : Command Binary64 :=
      .text ⟨6.0, y⟩ text (.token .laneHeaderText) 11.0 .left
    (∃ groups : List (Group Binary64),
      Rows.commands series ⟨0.0, 0.0, 400.0, 30.0⟩ 160.0 1.0 5.0 =
        .ok (groups.flatMap Group.commands) ∧
      pieces? (groups.flatMap Group.commands) = some (groups.map .group) ∧
      groups.map Group.id = ["track-SU", "track-idle"] ∧
      groups.map (fun group => group.body.take 2) =
        [[lane 0.0, name 15.600000000000001 "SU"], [lane 24.0, name 39.6 "idle"]] ∧
      ((groups.flatMap Group.commands).filter isBar).filterMap Command.mark? =
        [(.named "blue", some "a"), (.token .placeholder, some "b")]) ∧
    ∃ (groups : List (Group Binary64)) (ruler : List (Command Binary64)),
      Chart.commands series ⟨400.0, 54.0⟩ 1.0 5.0 = .ok (groups.flatMap Group.commands ++ ruler) ∧
      pieces? (groups.flatMap Group.commands ++ ruler) =
        some (groups.map .group ++ ruler.map .single) ∧
      groups.map Group.id = ["track-SU", "track-idle"] := by
  intro series lane name
  have aligned : ∀ one ∈ series, one.isAligned = true := by decide
  constructor
  · obtain ⟨_, _, groups, drawn, rows, read, bars⟩ :=
      groups_of_series.1 series ⟨0.0, 0.0, 400.0, 30.0⟩ 160.0 1.0 5.0 aligned
        (by decide +kernel) (by decide) (by decide)
    have two : shown ⟨0.0, 0.0, 400.0, 30.0⟩ series = series.zipIdx.take 2 := by decide +kernel
    rw [two] at rows bars
    refine ⟨groups, drawn, read, (map_id_of_rows rows).trans (by decide),
      (map_front_of_rows rows).trans (by decide +kernel), ?_⟩
    rw [bars]
    decide +kernel
  · obtain ⟨groups, _, rows, whole, ruled⟩ :=
      groups_of_series.2 series ⟨400.0, 54.0⟩ 1.0 5.0 aligned
    have two : shown (Chart.rowArea 3 ⟨400.0, 54.0⟩) series = series.zipIdx.take 2 := by
      decide +kernel
    obtain ⟨ruler, returned⟩ := (exists_ok_iff_isOk (Ruler.commands
      (Chart.rulerArea ⟨400.0, 54.0⟩) (1.0 : Binary64) 5.0
        (Chart.rowArea 3 ⟨400.0, 54.0⟩).height)).mpr (by decide +kernel)
    refine ⟨groups, ruler, ?_, (ruled ruler returned).2,
      (map_id_of_rows (two ▸ rows)).trans (by decide)⟩
    rw [whole]
    exact (bind_ok_iff _ _ _).mpr ⟨ruler, returned, rfl⟩

end TraceChart
