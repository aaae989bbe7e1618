import TraceChart.Proofs.Chart.Assembly
import TraceChart.Proofs.Chart.Drawing
import TraceChart.Proofs.Svg.Reading
import TraceChart.Proofs.Trace.Intervals

/-!
# Complete charts

The document of a chart, read back as a tree, has a group for each counter of the trace, and in each
group the rectangles of the counter: one with a title for each interval, or else the mark of a
placeholder.
-/

namespace TraceChart.Svg

variable {α : Type} [Scalar α]

/-! ### Commands as elements -/

/-- The fills and the titles of the rectangles among some nodes. -/
def marksOf (nodes : List Node) : List (Option String × Option String) :=
  (Node.elementsOf "rect" nodes).map fun rect => (rect.attribute? "fill", rect.title?)

theorem marksOf_append (left right : List Node) :
    marksOf (left ++ right) = marksOf left ++ marksOf right := by
  simp [marksOf, Node.elementsOf_append]

def painted (theme : Theme) (mark : Paint × Option String) : Option String × Option String :=
  (some (theme.paint mark.1), mark.2)

/-- Markup that reads as nodes without a group, with these marks. -/
def Draws (markup : List Markup) (marks : List (Option String × Option String)) : Prop :=
  ∃ nodes, Reads markup nodes ∧ Node.elementsOf "g" nodes = [] ∧ marksOf nodes = marks

theorem Draws.nil : Draws [] [] :=
  ⟨[], .nil, rfl, rfl⟩

theorem Draws.append {left right : List Markup} {leftMarks rightMarks}
    (first : Draws left leftMarks) (second : Draws right rightMarks) :
    Draws (left ++ right) (leftMarks ++ rightMarks) := by
  obtain ⟨leftNodes, leftReads, leftPlain, rfl⟩ := first
  obtain ⟨rightNodes, rightReads, rightPlain, rfl⟩ := second
  refine ⟨leftNodes ++ rightNodes, leftReads.append rightReads, ?_, marksOf_append _ _⟩
  rw [Node.elementsOf_append, leftPlain, rightPlain, List.append_nil]

private theorem elementsOf_textNodes (wanted content : String) :
    Node.elementsOf wanted (Reads.textNodes content) = [] := by
  unfold Reads.textNodes
  split <;> rfl

theorem draws_text {attributes : List Attribute}
    (named : ∀ entry ∈ attributes, IsName entry.name) (content : String) :
    Draws [.start "text" attributes, .text content, .finish "text"] [] := by
  refine ⟨_, .textElement (by simp [IsName]) named content, ?_, ?_⟩
  · simp [Node.elementsOf, Node.elements, elementsOf_textNodes]
  · simp [marksOf, Node.elementsOf, Node.elements, elementsOf_textNodes]

theorem draws_label (theme : Theme) (rect : Rect α) (fill : Paint) (label : Option String) :
    Draws (label.elim [] (labelMarkup theme rect fill)) [] := by
  cases label with
  | none => exact .nil
  | some label =>
    simp only [Option.elim, labelMarkup]
    split
    · apply draws_text
      simp [number, IsName]
    · exact .nil

def titleNodes : Option String → List Node
  | some hover => [.element "title" [] (Reads.textNodes hover)]
  | none => []

theorem reads_title (hover : Option String) : Reads (titleMarkup hover) (titleNodes hover) := by
  cases hover with
  | none => exact .nil
  | some hover => exact .textElement (by simp [IsName]) (by simp) hover

theorem draws_rect (theme : Theme) (rect : Rect α) (fill : Paint) (border : Option Token)
    (label hover : Option String) :
    Draws (markup theme (.rect rect fill border label hover)) [painted theme (fill, hover)] := by
  let attributes := [number "x" rect.x, number "y" rect.y, number "width" rect.width,
    number "height" rect.height, ⟨"fill", theme.paint fill⟩] ++ borderAttributes theme border
  have named : ∀ entry ∈ attributes, IsName entry.name := by
    cases border <;> simp [attributes, number, borderAttributes, IsName]
  have drawn : Draws ([.start "rect" attributes] ++ titleMarkup hover ++ [.finish "rect"])
      [painted theme (fill, hover)] := by
    refine ⟨_, .element (by simp [IsName]) named (reads_title hover), ?_, ?_⟩
    · cases hover <;> simp [Node.elementsOf, Node.elements, titleNodes, elementsOf_textNodes]
    · cases hover <;> simp [marksOf, painted, attributes, number, Node.elementsOf, Node.elements,
        Node.attribute?, Node.title?, titleNodes, elementsOf_textNodes, Reads.textOf_textNodes]
  exact drawn.append (draws_label theme rect fill label)

/-- A command that opens or closes no group draws its own mark, if it has one, and no group. -/
theorem draws_command (theme : Theme) (command : Command α) (plain : command.isGroup = false) :
    Draws (markup theme command) (command.mark?.toList.map (painted theme)) := by
  cases command with
  | rect rect fill border label hover => exact draws_rect theme rect fill border label hover
  | text position text color size align =>
    apply draws_text
    simp [number, IsName]
  | line start finish color width =>
    refine ⟨_, .empty (by simp [IsName]) (by simp [number, IsName]), ?_, ?_⟩
    · simp [Node.elementsOf, Node.elements]
    · simp [marksOf, Node.elementsOf, Node.elements, Command.mark?]
  | beginGroup => cases plain
  | endGroup => cases plain

theorem draws_commands (theme : Theme) (commands : List (Command α))
    (plain : ∀ command ∈ commands, command.isGroup = false) :
    Draws (commands.flatMap (markup theme))
      ((commands.filterMap Command.mark?).map (painted theme)) := by
  induction commands with
  | nil => exact .nil
  | cons command commands ih =>
    have first := draws_command theme command (plain command List.mem_cons_self)
    have rest := ih fun later member => plain later (List.mem_cons_of_mem _ member)
    have split : ((command :: commands).filterMap Command.mark?).map (painted theme) =
        command.mark?.toList.map (painted theme) ++
          (commands.filterMap Command.mark?).map (painted theme) := by
      cases mark : command.mark? <;> simp [mark]
    rw [List.flatMap_cons, split]
    exact first.append rest

/-! ### Rows as groups -/

/-- A group shows a track: it bears the name of the track, and holds its marks and no group. -/
structure Shows (theme : Theme) (track : Track α) (group : Node) : Prop where
  alone : group.elements "g" = [group]
  id : group.attribute? "id" = some s!"track-{track.name}"
  marks : marksOf [group] = track.marks.map (painted theme)

theorem reads_row (theme : Theme) {track : Track α} {row : List (Command α)}
    (shown : track.ShownBy row) :
    ∃ group, Reads (row.flatMap (markup theme)) [group] ∧ Shows theme track group := by
  obtain ⟨body, rfl, plain, marks⟩ := shown
  obtain ⟨nodes, reads, single, drawn⟩ := draws_commands theme body plain
  let group : Node := .element "g" [⟨"id", s!"track-{track.name}"⟩] nodes
  refine ⟨group, ?_, ?_⟩
  · have written : (.beginGroup s!"track-{track.name}" (some track.name) :: body ++
        [.endGroup] : List (Command α)).flatMap (markup theme) =
        [.start "g" [⟨"id", s!"track-{track.name}"⟩]] ++ body.flatMap (markup theme) ++
          [.finish "g"] := by
      simp [markup]
    rw [written]
    exact .element (by simp [IsName]) (by simp [IsName]) reads
  · exact {
      alone := by simp [group, Node.elements, single]
      id := by simp [group, Node.attribute?]
      marks := by
        rw [← marks, ← drawn]
        simp [group, marksOf, Node.elementsOf, Node.elements] }

theorem reads_rows (theme : Theme) {tracks : List (Track α)} {rows : List (List (Command α))}
    (shown : List.Forall₂ Track.ShownBy tracks rows) :
    ∃ groups, Reads (rows.flatten.flatMap (markup theme)) groups ∧
      Node.elementsOf "g" groups = groups ∧ List.Forall₂ (Shows theme) tracks groups := by
  induction shown with
  | nil => exact ⟨[], .nil, rfl, .nil⟩
  | cons first rest ih =>
    obtain ⟨group, groupReads, shows⟩ := reads_row theme first
    obtain ⟨groups, groupsRead, alone, others⟩ := ih
    refine ⟨group :: groups, ?_, ?_, .cons shows others⟩
    · rw [List.flatten_cons, List.flatMap_append]
      exact groupReads.append groupsRead
    · rw [Node.elementsOf, shows.alone, alone, List.singleton_append]

/-! ### Documents -/

/-- The document of some rows, and of commands behind them that belong to no row, has the groups of
the rows and no other. -/
theorem read_document (theme : Theme) (width height : α) {tracks : List (Track α)}
    {rows : List (List (Command α))} (shown : List.Forall₂ Track.ShownBy tracks rows)
    {others : List (Command α)} (plain : ∀ command ∈ others, command.isGroup = false) :
    ∃ root, Node.read? (document theme width height (rows.flatten ++ others)) = some root ∧
      List.Forall₂ (Shows theme) tracks (root.elements "g") := by
  obtain ⟨groups, groupsRead, alone, shows⟩ := reads_rows theme shown
  obtain ⟨nodes, nodesRead, single, _⟩ := draws_commands theme others plain
  let widthText := Scalar.plainText width
  let heightText := Scalar.plainText height
  let ground : List Attribute :=
    [⟨"width", widthText⟩, ⟨"height", heightText⟩, ⟨"fill", theme.color .background⟩]
  let frame : List Attribute :=
    [⟨"xmlns", "http://www.w3.org/2000/svg"⟩, ⟨"viewBox", s!"0 0 {widthText} {heightText}"⟩,
      ⟨"width", widthText⟩, ⟨"height", heightText⟩,
      ⟨"style", "font-family:system-ui,-apple-system,sans-serif;font-size:11px"⟩]
  have background : Reads [.empty "rect" ground] [.element "rect" ground []] :=
    .empty (by simp [IsName]) (by simp [ground, IsName])
  have reads : Reads (documentMarkup theme width height (rows.flatten ++ others))
      [.element "svg" frame ([.element "rect" ground []] ++ (groups ++ nodes))] := by
    have written : documentMarkup theme width height (rows.flatten ++ others) =
        [.start "svg" frame] ++ ([.empty "rect" ground] ++ (rows.flatten.flatMap (markup theme) ++
          others.flatMap (markup theme))) ++ [.finish "svg"] := by
      simp [documentMarkup, opening, frame, ground, widthText, heightText]
    rw [written]
    exact .element (by simp [IsName]) (by simp [frame, IsName])
      (background.append (groupsRead.append nodesRead))
  refine ⟨_, reads.read?, ?_⟩
  have inside : (Node.element "svg" frame
      ([.element "rect" ground []] ++ (groups ++ nodes))).elements "g" = groups := by
    simp [Node.elements, Node.elementsOf, Node.elementsOf_append, alone, single]
  rwa [inside]

/-- A group shows a counter with these intervals, which stand in the order of time: it has a
rectangle with a title for each of them, in order, and the title is the caption. Without intervals
it has one rectangle that marks a placeholder. -/
structure Depicts (theme : Theme) (counter : Counter Rat) (intervals : List (Interval Rat))
    (group : Node) : Prop where
  id : group.attribute? "id" = some s!"track-{counter.name}"
  ordered : intervals.Pairwise fun interval later => interval.start ≤ later.start
  titles : (group.elements "rect").filterMap Node.title? = intervals.map Interval.caption
  placeholder : intervals = [] → ∃ rect, ((group.elements "rect").filter fun rect =>
    rect.attribute? "fill" = some (theme.color .placeholder)) = [rect]

theorem Shows.titles {theme : Theme} {track : Track α} {group : Node}
    (shows : Shows theme track group) :
    (group.elements "rect").filterMap Node.title? = track.intervals.map Interval.caption := by
  have marks := congrArg (List.filterMap Prod.snd) shows.marks
  simp only [marksOf, Node.elementsOf, List.append_nil, List.filterMap_map] at marks
  refine Eq.trans marks ?_
  cases empty : track.intervals <;> simp [Track.marks, empty, painted, Function.comp_def]

theorem Shows.placeholder {theme : Theme} {track : Track α} {group : Node}
    (shows : Shows theme track group) (empty : track.intervals = []) :
    ∃ rect, ((group.elements "rect").filter fun rect =>
      rect.attribute? "fill" = some (theme.color .placeholder)) = [rect] := by
  have marks := shows.marks
  simp only [marksOf, Node.elementsOf, List.append_nil, Track.marks, empty, List.isEmpty_nil,
    if_true, List.map_cons, List.map_nil, List.map_eq_cons_iff, List.map_eq_nil_iff] at marks
  obtain ⟨lane, _, elements, laneMark, mark, _, rfl, markMark, rfl⟩ := marks
  have apart : theme.color .laneBackground ≠ theme.color .placeholder := by
    cases theme <;> decide
  have laneFill : lane.attribute? "fill" = some (theme.color .laneBackground) :=
    congrArg Prod.fst laneMark
  have markFill : mark.attribute? "fill" = some (theme.color .placeholder) :=
    congrArg Prod.fst markMark
  exact ⟨mark, by simp [elements, laneFill, markFill, apart]⟩

/-- In exact arithmetic the chart of every timeline, at every width, is a document that has a group
for each counter, in the order of the counters and with distinct ids, and in each group all that the
counter has to show. -/
theorem svg_of_counters (palette : Palette) (theme : Theme) (counters : List (Counter Rat))
    (timeline : Timeline Rat) (built : Timeline.ofCounters palette counters = .ok timeline)
    (width : Rat) :
    ∃ text root, timeline.svg theme width = .ok text ∧ Node.read? text = some root ∧
      List.Forall₂ (fun counter group => ∃ intervals, counter.intervals palette = .ok intervals ∧
        Depicts theme counter intervals group) counters (root.elements "g") ∧
      ((root.elements "g").map (Node.attribute? "id")).Nodup := by
  obtain ⟨distinct, tracks⟩ := (Timeline.ofCounters_ok_iff _ _ _).mp built
  have forwards : ∀ interval ∈ timeline.intervals, interval.start ≤ interval.finish := by
    intro interval member
    obtain ⟨track, listed, included⟩ := List.mem_flatMap.mp member
    obtain ⟨counter, _, _, returned⟩ := forall₂_exists tracks.flip track listed
    have nonneg := (Counter.times_of_intervals returned).2 interval included
    simp only [Exact.le_eq, decide_eq_true_eq, Exact.zero_eq] at nonneg
    exact le_add_of_nonneg_right nonneg
  obtain ⟨rows, others, drawn, shown, plain⟩ := timeline.drawing_shown width forwards
  obtain ⟨root, read, shows⟩ := read_document theme width (Chart.height timeline.series.length)
    shown plain
  have groups := forall₂_through tracks shows
  refine ⟨_, root, by rw [Timeline.svg, drawn]; rfl, read, ?_, ?_⟩
  · apply groups.imp
    rintro counter group ⟨track, ⟨named, returned⟩, shows⟩
    refine ⟨track.intervals, returned, ?_⟩
    exact {
      id := by rw [shows.id, named]
      ordered := by simpa using (Counter.times_of_intervals returned).1
      titles := shows.titles
      placeholder := shows.placeholder }
  · have ids : (root.elements "g").map (Node.attribute? "id") =
        (counters.map Counter.name).map fun name => some s!"track-{name}" := by
      rw [← List.forall₂_eq_eq_eq, List.map_map, List.forall₂_map_left_iff,
        List.forall₂_map_right_iff]
      apply groups.flip.imp
      rintro group counter ⟨track, ⟨named, _⟩, shows⟩
      rw [shows.id, named]
      rfl
    rw [ids]
    refine distinct.map ?_
    intro left right same
    have appended : "track-" ++ left = "track-" ++ right := Option.some.inj same
    simpa using appended

/-- A counter with a span of work before time zero and one of no length, and a counter without
events. -/
theorem svg_of_negative_time :
    let counters : List (Counter Rat) :=
      [⟨"SU", .schedulingUnit, [⟨-1, 2⟩, ⟨2, 3⟩, ⟨2, 1⟩]⟩, ⟨"MEM", .memoryUnit, []⟩]
    ∃ timeline, Timeline.ofCounters .standard counters = .ok timeline ∧
      ∃ text root, timeline.svg .dark 100 = .ok text ∧ Node.read? text = some root ∧
        List.Forall₂ (fun counter group => ∃ intervals,
          counter.intervals .standard = .ok intervals ∧ Depicts .dark counter intervals group)
          counters (root.elements "g") ∧
        ((root.elements "g").map (Node.attribute? "id")).Nodup :=
  ⟨_, rfl, svg_of_counters .standard .dark _ _ rfl 100⟩

end TraceChart.Svg
