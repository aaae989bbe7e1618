import TraceChart.Proofs.Terminal.Canvas
import TraceChart.Proofs.Terminal.Viewer
import TraceChart.Terminal.Frame

/-!
# Frames agree with themselves

A frame is drawn by parts that know nothing of each other: the rows are laid out from the first
visible series on, the highlight and the footer are found from the selection, and the cursor from
the time it points at. What the parts do to one cell is collected here, and from it what a screen
shows: each row begins with the name of its own series, the highlighted name is that of the selected
series, and the footer is about the same one.
-/

namespace TraceChart.Terminal

open Binary64

/-! ### Lines of text -/

theorem fill_row (area : Area) (change : Change) : ∀ stroke ∈ area.fill change,
    area.top ≤ stroke.row ∧ stroke.row < area.top + area.height := by
  intro stroke member
  obtain ⟨row, listed, placed⟩ := List.mem_flatMap.mp member
  obtain ⟨column, _, rfl⟩ := List.mem_map.mp placed
  have below := List.mem_range.mp listed
  simp only [Area.stroke]
  omega

/-- The clusters of a line of text that a screen has room for. -/
def lineClusters (width : Nat) (text : String) : List Cluster :=
  fitting width ((clusters (firstLine text.toList)).filter fun cluster => cluster.columns ≤ width)

theorem lineStrokes_row (width row : Nat) (text : String) :
    ∀ stroke ∈ lineStrokes width row text, stroke.row = row := by
  intro stroke member
  rcases List.mem_append.mp member with filled | written
  · have inside := fill_row _ _ stroke filled
    dsimp only at inside
    omega
  · exact write_row _ _ _ _ _ _ stroke written

theorem changesAt_lineStrokes {width column : Nat} (inside : column < width) (row : Nat)
    (text : String) : changesAt (lineStrokes width row text) column row =
      barChange :: ((writeChanges none {} (lineClusters width text))[column]?).toList := by
  have positive := (fitting_spec width
    ((clusters (firstLine text.toList)).filter fun cluster => cluster.columns ≤ width)).1
  have here : (⟨0, row, width, 1⟩ : Area).contains column row := by
    simp only [Area.contains]
    omega
  have written := write_eq ⟨0, row, width, 1⟩ 0 none {} 0 positive
  simp only [lineStrokes, changesAt_append, changesAt_fill, if_pos here, written, changesAt_along,
    lineClusters]
  simp

/-- A line of a screen shows a text: as many of the clusters that take columns as there is room for,
and blanks after them. -/
def Screen.ShowsLine (screen : Screen) (width row : Nat) (text : String) : Prop :=
  ∃ shown others : List Cluster,
    (clusters (firstLine text.toList)).filter
      (fun cluster => 0 < cluster.columns ∧ cluster.columns ≤ width) = shown ++ others ∧
    (∀ next ∈ others.head?, width < totalColumns shown + next.columns) ∧
    screen.readLine row width =
      shown.flatten ++ List.replicate (width - totalColumns shown) ' '

theorem showsLine_of_changes {strokes : List Stroke} {width height row : Nat} (below : row < height)
    (text : String) (drawn : ∀ column < width, changesAt strokes column row =
      barChange :: ((writeChanges none {} (lineClusters width text))[column]?).toList) :
    ((Screen.blank width height).draw strokes).ShowsLine width row text := by
  obtain ⟨positive, room, others, split, full⟩ := fitting_spec width
    ((clusters (firstLine text.toList)).filter fun cluster => cluster.columns ≤ width)
  refine ⟨lineClusters width text, others, ?_, full, ?_⟩
  · rw [lineClusters, ← split, List.filter_filter]
    simp
  · refine @readLine_of_written _ _ _ none {} rfl _ positive room ?_
    intro column inside
    refine ⟨_, by rw [cell?_draw, cell?_blank inside below]; rfl, ?_⟩
    rw [drawn column inside]
    cases (writeChanges none {} (lineClusters width text))[column]? <;> rfl

/-! ### The parts of a frame -/

namespace Viewer

section Parts

variable {α : Type} (viewer : Viewer α) (area : Area)

theorem highlightStrokes_row : ∀ stroke ∈ viewer.highlightStrokes area,
    stroke.row < area.top + area.height := by
  intro stroke member
  unfold highlightStrokes at member
  dsimp only at member
  split at member
  next visible =>
    obtain ⟨column, _, rfl⟩ := List.mem_map.mp member
    exact Nat.add_lt_add_left visible.2 area.top
  next => cases member

theorem changesAt_highlightStrokes {column row : Nat}
    (inside : column < min labelColumns area.width) (below : row < area.height)
    (above : viewer.view.scroll ≤ viewer.view.selected) :
    changesAt (viewer.highlightStrokes area) (area.left + column) (area.top + row) =
      if viewer.view.scroll + row = viewer.view.selected then
        [{ ink := some (Color.ofToken .selectionHighlight) }]
      else [] := by
  unfold highlightStrokes
  dsimp only
  by_cases visible : viewer.view.selected - viewer.view.scroll < area.height
  · rw [if_pos ⟨above, visible⟩, changesAt_row]
    have among : area.left ≤ area.left + column ∧
        area.left + column < area.left + min labelColumns area.width := by omega
    have same : area.top + (viewer.view.selected - viewer.view.scroll) = area.top + row ↔
        viewer.view.scroll + row = viewer.view.selected := by omega
    simp only [among, and_true, same]
  · rw [if_neg (fun visible' => visible visible'.2), if_neg (by omega)]
    rfl

variable [Scalar α]

/-- The cursor stands behind the names, and within the rows. -/
theorem cursorStrokes_place : ∀ stroke ∈ viewer.cursorStrokes area,
    area.left + labelColumns ≤ stroke.column ∧ stroke.row < area.top + area.height := by
  intro stroke member
  unfold cursorStrokes at member
  split at member
  next column found =>
    obtain ⟨row, listed, rfl⟩ := List.mem_map.mp member
    have behind : labelColumns ≤ column := by
      unfold cursorColumn? at found
      dsimp only at found
      split at found
      · split at found
        · cases found
          exact Nat.le_add_right _ _
        · cases found
      · cases found
    exact ⟨Nat.add_le_add_left behind area.left,
      Nat.add_lt_add_left (List.mem_range.mp listed) area.top⟩
  next => cases member

end Parts

/-! ### Layers -/

section Layers

variable (viewer : Viewer Binary64) (width height : Nat)

/-- The strokes of a frame, given those of its chart and the text of its last line. -/
def layers (chart : List Stroke) (footer : String) : List Stroke :=
  let area := contentArea width height
  lineStrokes width 0 viewer.headerText ++ area.fill { ground := some .black } ++ chart ++
    viewer.highlightStrokes area ++ viewer.cursorStrokes area ++
    lineStrokes width (height - 1) footer

variable {viewer width height} {chart : List Stroke} {footer : String}

theorem changesAt_layers {column row : Nat} (inside : column < min labelColumns width)
    (below : row < visibleRows height) (above : viewer.view.scroll ≤ viewer.view.selected) :
    changesAt (viewer.layers width height chart footer) column (1 + row) =
      { ground := some .black } :: changesAt chart column (1 + row) ++
        if viewer.view.scroll + row = viewer.view.selected then
          [{ ink := some (Color.ofToken .selectionHighlight) }]
        else [] := by
  -- Header and footer are on other lines, and the cursor is behind the names.
  have low : 1 + row < height - 1 := by
    simp only [visibleRows] at below
    omega
  have header : changesAt (lineStrokes width 0 viewer.headerText) column (1 + row) = [] :=
    changesAt_of_elsewhere fun stroke member _ => by
      rw [lineStrokes_row _ _ _ stroke member]
      omega
  have content : (contentArea width height).contains column (1 + row) := by
    simp only [Area.contains, contentArea]
    omega
  have highlight : changesAt (viewer.highlightStrokes (contentArea width height)) column (1 + row) =
      if viewer.view.scroll + row = viewer.view.selected then
        [{ ink := some (Color.ofToken .selectionHighlight) }]
      else [] := by
    have placed :=
      viewer.changesAt_highlightStrokes (contentArea width height) inside below above
    simpa only [contentArea, Nat.zero_add] using placed
  have cursor : changesAt (viewer.cursorStrokes (contentArea width height)) column (1 + row) = [] :=
    changesAt_of_elsewhere fun stroke member same => by
      have behind := (viewer.cursorStrokes_place _ stroke member).1
      omega
  have last : changesAt (lineStrokes width (height - 1) footer) column (1 + row) = [] :=
    changesAt_of_elsewhere fun stroke member _ => by
      rw [lineStrokes_row _ _ _ stroke member]
      omega
  simp only [layers, changesAt_append, changesAt_fill, if_pos content, header, highlight, cursor,
    last, List.nil_append, List.append_nil, List.cons_append]

/-- Nothing but the last line is drawn on the last line. -/
theorem changesAt_layers_last (tall : 3 ≤ height)
    (within : ∀ stroke ∈ chart, 1 ≤ stroke.row ∧ stroke.row < 1 + visibleRows height)
    {column : Nat} (inside : column < width) :
    changesAt (viewer.layers width height chart footer) column (height - 1) =
      barChange :: ((writeChanges none {} (lineClusters width footer))[column]?).toList := by
  have bottom : 1 + visibleRows height = height - 1 := by
    simp only [visibleRows]
    omega
  have header : changesAt (lineStrokes width 0 viewer.headerText) column (height - 1) = [] :=
    changesAt_of_elsewhere fun stroke member _ => by
      rw [lineStrokes_row _ _ _ stroke member]
      omega
  have content : ¬ (contentArea width height).contains column (height - 1) := by
    simp only [Area.contains, contentArea]
    omega
  have rows : changesAt chart column (height - 1) = [] :=
    changesAt_of_elsewhere fun stroke member _ => by
      have inArea := within stroke member
      omega
  have highlight : changesAt (viewer.highlightStrokes (contentArea width height)) column
      (height - 1) = [] :=
    changesAt_of_elsewhere fun stroke member _ => by
      have inArea := viewer.highlightStrokes_row _ stroke member
      simp only [contentArea] at inArea
      omega
  have cursor : changesAt (viewer.cursorStrokes (contentArea width height)) column
      (height - 1) = [] :=
    changesAt_of_elsewhere fun stroke member _ => by
      have inArea := (viewer.cursorStrokes_place _ stroke member).2
      simp only [contentArea] at inArea
      omega
  simp only [layers, changesAt_append, changesAt_fill, if_neg content, header, rows, highlight,
    cursor, List.nil_append, changesAt_lineStrokes inside]

end Layers

/-! ### What a screen shows -/

def plot (viewer : Viewer Binary64) (width height : Nat) : Rows.Plot Binary64 :=
  Rows.Plot.ofArea (chartArea width (viewer.visibleSeries height).length)
    (Scalar.ofNat labelColumns * cellWidth) viewer.view.start viewer.view.finish

def trackText (track : String) (cursor : Binary64) (hover : Option String) : String :=
  let shown := hover.getD "-"
  s!" {track} @ {timeText cursor}  {shown}"

/-- A screen agrees with its viewer. -/
structure ShownOn (viewer : Viewer Binary64) (screen : Screen) (width height : Nat) : Prop where
  /-- Every visible series has a row that begins with its name, and nothing is drawn over it. -/
  names : ∀ row < visibleRows height, ∀ series,
    viewer.series[viewer.view.scroll + row]? = some series →
    OneColumnEach (shownName width series.track) →
    screen.readLine (1 + row) (min labelColumns width) = shownName width series.track ++
      List.replicate (min labelColumns width - (shownName width series.track).length) ' '
  /-- The selected series has a row. -/
  selected : ∃ row < visibleRows height, viewer.view.scroll + row = viewer.view.selected
  /-- The name in that row is highlighted, and no other. -/
  highlighted : ∀ row < visibleRows height, ∀ column < min labelColumns width,
    ∃ cell, screen.cell? column (1 + row) = some cell ∧
      (cell.ink = Color.ofToken .selectionHighlight ↔
        viewer.view.scroll + row = viewer.view.selected)
  /-- The last line is about the selected series at the time of the cursor. -/
  footer : ∃ series hover, viewer.series[viewer.view.selected]? = some series ∧
    series.hoverAt viewer.view.cursor = .ok hover ∧
    screen.ShowsLine width (height - 1) (trackText series.track viewer.view.cursor hover)

variable {viewer : Viewer Binary64} {tracks : List (Track Binary64)} {width height : Nat}

theorem chartCommands_names (listed : viewer.series = tracks.map Series.ofTrack)
    (low : height ≤ 65535) (start : viewer.view.start.isFinite = true)
    (scale : (viewer.plot width height).scale.isFinite = true) :
    ∃ commands, viewer.chartCommands width height = .ok commands ∧
      ∀ column < labelColumns, ∀ row < visibleRows height,
        changesAt (strokes width (contentArea width height) commands) column (1 + row) =
          (nameChange? width tracks[viewer.view.scroll + row]? column).toList := by
  let visible := (tracks.drop viewer.view.scroll).take (visibleRows height)
  have shown : viewer.visibleSeries height = visible.map Series.ofTrack := by
    simp [visibleSeries, listed, visible, List.map_take, List.map_drop]
  have room : visible.length ≤ visibleRows height := List.length_take_le _ _
  have small : visible.length ≤ 65535 := by
    simp only [visibleRows] at room
    omega
  unfold plot at scale
  have left := left_chartArea width (viewer.visibleSeries height).length viewer.view.start
    viewer.view.finish
  have leftFinite : Scalar.isFinite plotLeft = true := plotLeft_exact.1
  rw [← left] at leftFinite
  have ordered := Rows.Plot.left_le_right leftFinite
  -- Here the length of a second must be finite: a placeholder of no place would stand on a name.
  have zeroPlaced := Rows.Plot.number_zero leftFinite start scale
  obtain ⟨commands, drawn, named⟩ := commandsFrom_names width left ordered zeroPlaced
    small room 0 visible (by omega)
  refine ⟨commands, ?_, fun column among row below => ?_⟩
  · rw [← drawn, ← shown]
    simp only [chartCommands, Rows.commands, chartArea, shown, List.length_map]
  · have found : visible[row]? = tracks[viewer.view.scroll + row]? := by
      simp only [visible, List.getElem?_take, if_pos below, List.getElem?_drop]
    rw [contentArea, named column among row, if_pos (Nat.zero_le row), Nat.sub_zero, found]

section Names

variable {chart : List Stroke} {footer : String} {row : Nat} (below : row < visibleRows height)
  (above : viewer.view.scroll ≤ viewer.view.selected)

include below above

/-- A cell among the names is blank but for the name of its row, and takes the color of the
highlight where that row is the selected one. -/
theorem nameCell {column : Nat} (inside : column < min labelColumns width)
    (track : Option (Track Binary64))
    (named : changesAt chart column (1 + row) = (nameChange? width track column).toList) :
    ∃ cell, ((Screen.blank width height).draw
        (viewer.layers width height chart footer)).cell? column (1 + row) = some cell ∧
      cell.text = ((nameChange? width track column).bind Change.text).getD [' '] ∧
      (cell.ink = Color.ofToken .selectionHighlight ↔
        viewer.view.scroll + row = viewer.view.selected) := by
  have blank : (Screen.blank width height).cell? column (1 + row) = some .blank :=
    cell?_blank (by omega) (by simp only [visibleRows] at below; omega)
  refine ⟨_, by rw [cell?_draw, blank]; rfl, ?_⟩
  rw [changesAt_layers inside below above, named]
  cases written : nameChange? width track column with
  | none => split <;> simp [*, Cell.afterAll, Change.apply, Cell.blank, Color.ofToken]
  | some change =>
    have plain : change.ink.getD .reset ≠ Color.ofToken .selectionHighlight := by
      obtain ⟨track, _, found⟩ := Option.bind_eq_some_iff.mp written
      exact ink_nameChanges change (List.mem_of_getElem? found)
    split <;> simp [*, Cell.afterAll, Change.apply, Cell.blank]

theorem readLine_name (track : Track Binary64) (each : OneColumnEach (shownName width track.name))
    (named : ∀ column < min labelColumns width,
      changesAt chart column (1 + row) = (nameChange? width (some track) column).toList) :
    ((Screen.blank width height).draw (viewer.layers width height chart footer)).readLine (1 + row)
        (min labelColumns width) = shownName width track.name ++
      List.replicate (min labelColumns width - (shownName width track.name).length) ' ' := by
  have short : (shownName width track.name).length ≤ min labelColumns width := by
    simp only [shownName, List.length_take, labelColumns]
    omega
  -- Every character takes one column, so there is room for all of them.
  have whole : fitting width (printable (clusters (shownName width track.name))) =
      clusters (shownName width track.name) := by
    rw [each.printable]
    exact fitting_of_room each.positive (by rw [each.columns]; omega)
  have room : totalColumns (clusters (shownName width track.name)) ≤ min labelColumns width := by
    rwa [each.columns]
  have written : ∀ column < min labelColumns width, ∃ cell,
      ((Screen.blank width height).draw (viewer.layers width height chart footer)).cell? column
        (1 + row) = some cell ∧
      cell.text = (((writeChanges (some .white) .clear
        (clusters (shownName width track.name)))[column]?).bind Change.text).getD [' '] := by
    intro column inside
    obtain ⟨cell, stands, text, _⟩ := nameCell below above inside (some track) (named column inside)
    simp only [nameChange?, Option.bind_eq_bind, Option.bind_some, nameChanges, whole] at text
    exact ⟨cell, stands, text⟩
  rw [readLine_of_written rfl each.positive room written, clusters_flatten, each.columns]

end Names

/-- A viewer whose selection is in sight is drawn, and what is drawn agrees with it, where seconds
have a finite length. -/
theorem frame_shown (listed : viewer.series = tracks.map Series.ofTrack) (tall : 3 ≤ height)
    (low : height ≤ 65535)
    (inSight : viewer.view.InSight viewer.series.length (visibleRows height))
    (start : viewer.view.start.isFinite = true)
    (scale : (viewer.plot width height).scale.isFinite = true) :
    ∃ screen, viewer.frame width height = .ok screen ∧ viewer.ShownOn screen width height := by
  obtain ⟨below, above, visible⟩ := inSight
  obtain ⟨commands, drawn, named⟩ := chartCommands_names listed low start scale
  have chosen : viewer.view.selected < tracks.length := by simpa [listed] using below
  let track := tracks[viewer.view.selected]
  have selected : viewer.series[viewer.view.selected]? = some (.ofTrack track) := by
    simp [listed, chosen, track]
  obtain ⟨hover, found⟩ : ∃ hover, (Series.ofTrack track).hoverAt viewer.view.cursor = .ok hover :=
    ⟨_, Series.hoverAt_ofTrack track viewer.view.cursor⟩
  let chart := strokes width (contentArea width height) commands
  let footer := trackText (Series.ofTrack track).track viewer.view.cursor hover
  have layered : viewer.frameStrokes width height =
      .ok (viewer.layers width height chart footer) := by
    simp only [frameStrokes, drawn, footerText, selected, found, ok_bind]
    rfl
  refine ⟨(Screen.blank width height).draw (viewer.layers width height chart footer), ?_, ?_⟩
  · rw [frame, layered]
    rfl
  constructor
  · intro row inside series shown each
    obtain ⟨shownTrack, stands, rfl⟩ : ∃ shownTrack,
        tracks[viewer.view.scroll + row]? = some shownTrack ∧ .ofTrack shownTrack = series := by
      simpa [listed] using shown
    rw [Series.track_ofTrack] at each ⊢
    refine readLine_name inside above shownTrack each fun column among => ?_
    rw [← stands]
    exact named column (by omega) row inside
  · exact ⟨viewer.view.selected - viewer.view.scroll, by omega, by omega⟩
  · intro row inside column among
    have change := named column (by omega) row inside
    obtain ⟨cell, stands, _, ink⟩ := nameCell inside above among _ change
    exact ⟨cell, stands, ink⟩
  · refine ⟨_, hover, selected, found, showsLine_of_changes (by omega) _ ?_⟩
    intro column among
    exact changesAt_layers_last tall (fun stroke member => strokes_row _ _ _ stroke member) among

/-- Whatever a user does to the viewer of a timeline, each frame agrees with itself as long as
seconds have a finite length on it. No input is refused where the window of the timeline has a
finite length; where it has none, this is said of the frames up to the first input that is. -/
theorem frame_of_inputs (timeline : Timeline Binary64) (tracked : timeline.tracks ≠ [])
    (inputs : List Input) (width height : Nat) (tall : 3 ≤ height) (low : height ≤ 65535) :
    let opened := ofSeries timeline.series timeline.window.1 timeline.window.2
    ((timeline.window.2 - timeline.window.1).isFinite = true →
      ∃ shown, opened.takeAll height inputs = .ok shown) ∧
    ∀ shown, opened.takeAll height inputs = .ok shown → shown.series = timeline.series ∧
      ((shown.plot width height).scale.isFinite = true →
        ∃ screen, shown.frame width height = .ok screen ∧ shown.ShownOn screen width height) := by
  intro opened
  have ends := finiteEnds_window timeline
  -- There is a series to be selected, for there is a track.
  have filled : timeline.series ≠ [] := by simpa [Timeline.series] using tracked
  constructor
  · intro finite
    have range : FullRange timeline.window.1 timeline.window.2 :=
      ⟨ends.startFinite, ends.finishFinite, ends.ordered, finite⟩
    exact takeAll_of_fullRange range (View.inRange_ofRange range) height inputs
  · intro shown taken
    obtain ⟨same, settled⟩ := (settled_ofSeries ends filled tall).takeAll ends taken
    refine ⟨same, fun scale => ?_⟩
    have start := isFinite_between ends.startFinite ends.finishFinite settled.start_le
      settled.start_le_finish
    exact frame_shown same tall low settled.inSight start scale

/-- Two tracks with a bar and a placeholder between them, of which two are visible at a time, after
the selection has moved to the last one. -/
theorem frame_of_three_tracks :
    let timeline : Timeline Binary64 := ⟨[
      ⟨"SU", [⟨"SU", 1.0, 2.0, "DISPATCH", "blue"⟩]⟩, ⟨"VE", []⟩,
      ⟨"DMA", [⟨"DMA", 0.5, 0.25, "LOAD", "teal"⟩]⟩]⟩
    ∃ shown screen, (ofSeries timeline.series timeline.window.1 timeline.window.2).takeAll 4
        [.down, .char '+', .char ']', .right, .scrollDown] = .ok shown ∧
      shown.frame 24 4 = .ok screen ∧ shown.ShownOn screen 24 4 ∧
      screen.readLine 1 16 = "VE".toList ++ List.replicate 14 ' ' := by
  intro timeline
  obtain ⟨runs, shows⟩ := frame_of_inputs timeline (by simp [timeline])
    [.down, .char '+', .char ']', .right, .scrollDown] 24 4 (by decide) (by decide)
  obtain ⟨shown, ran⟩ := runs (by decide +kernel)
  obtain ⟨same, draws⟩ := shows shown ran
  have reached : (match (ofSeries timeline.series timeline.window.1 timeline.window.2).takeAll 4
      [.down, .char '+', .char ']', .right, .scrollDown] with
    | .ok shown => (shown.plot 24 4).scale.isFinite && decide (shown.view.scroll = 1)
    | .error _ => false) = true := by
    decide +kernel
  rw [ran, Bool.and_eq_true, decide_eq_true_eq] at reached
  obtain ⟨finite, scrolled⟩ := reached
  obtain ⟨screen, drawn, agrees⟩ := draws finite
  have first : shown.series[shown.view.scroll + 0]? = some (.ofTrack ⟨"VE", []⟩) := by
    rw [same, scrolled]
    rfl
  have letters : shownName 24 "VE" = ['V', 'E'] := by simp [shownName, labelColumns]
  have each : OneColumnEach (shownName 24 "VE") := by
    rw [letters]
    decide
  have line := agrees.names 0 (by decide) _ first each
  rw [Series.track_ofTrack, letters] at line
  exact ⟨shown, screen, ran, drawn, agrees, line⟩

end Viewer

end TraceChart.Terminal
