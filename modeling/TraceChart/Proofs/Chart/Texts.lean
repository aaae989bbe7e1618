import TraceChart.Proofs.Chart.Drawing

/-!
# The texts of a drawing

Whatever the numbers are that it is drawn with, a drawing has rows and then a ruler. A row is a
group that belongs to a track, and no text in it comes from anywhere but that track; on the ruler
there are numbers only.
-/

namespace TraceChart

/-- The texts that a color brings into a drawing. -/
def Paint.texts : Paint → List String
  | .token _ => []
  | .named name => [name]

/-- The texts that a command brings into a drawing. -/
def Command.texts {α : Type} : Command α → List String
  | .rect _ fill _ label hover => fill.texts ++ label.toList ++ hover.toList
  | .text _ shown color _ _ => shown :: color.texts
  | .line .. => []
  | .beginGroup id _ => [id]
  | .endGroup => []

variable {α : Type} [Scalar α]

def Interval.texts (interval : Interval α) : List String :=
  [interval.color, interval.label, interval.caption]

def Track.groupId (track : Track α) : String :=
  s!"track-{track.name}"

/-- A command outside of groups, all of whose texts are of some kind. -/
def Command.Within (kind : String → Prop) (command : Command α) : Prop :=
  command.isGroup = false ∧ ∀ text ∈ command.texts, kind text

/-- A row that belongs to a track: a group under the name of the track, with no other group inside
and with no texts but the name and those of the intervals. -/
def Track.Owns (track : Track α) (row : List (Command α)) : Prop :=
  ∃ body, row = .beginGroup track.groupId (some track.name) :: body ++ [.endGroup] ∧
    ∀ command ∈ body, command.Within fun text =>
      text = track.name ∨ ∃ interval ∈ track.intervals, text ∈ interval.texts

/-! ### Rows -/

namespace Rows

variable {plot : Plot α} {area : Rect α}

theorem within_of_barCommand {top : α} {interval : Interval α} {command : Command α}
    (drawn : barCommand? plot top interval.bar = some command) :
    command.Within fun text => text ∈ interval.texts := by
  unfold barCommand? at drawn
  dsimp only at drawn
  split at drawn
  · cases drawn
  · cases drawn
    exact ⟨rfl, fun text member => member⟩

theorem within_of_placeholderCommand {top : α} {command : Command α} {kind : String → Prop}
    (drawn : placeholderCommand plot top = .ok command) : command.Within kind := by
  unfold placeholderCommand at drawn
  split at drawn
  · cases drawn
    exact ⟨rfl, List.forall_mem_nil _⟩
  · cases drawn

/-- Around the mark of a placeholder, if there is one, stand the lane and the bars. -/
theorem owns_of_marks (top : α) (track : Track α) {marks : List (Command α)}
    (each : ∀ command ∈ marks, ∀ kind, command.Within kind) :
    track.Owns (.beginGroup track.groupId (some track.name) :: laneCommands area top track.name ++
      marks ++ (track.intervals.map Interval.bar).filterMap (barCommand? plot top) ++
        [.endGroup]) := by
  refine ⟨laneCommands area top track.name ++ marks ++
    (track.intervals.map Interval.bar).filterMap (barCommand? plot top), rfl, ?_⟩
  simp only [List.forall_mem_append]
  refine ⟨⟨?_, fun command member => each command member _⟩, ?_⟩
  · simp [laneCommands, Command.Within, Command.isGroup, Command.texts, Paint.texts]
  · intro command member
    obtain ⟨bar, listed, drawn⟩ := List.mem_filterMap.mp member
    obtain ⟨interval, included, rfl⟩ := List.mem_map.mp listed
    obtain ⟨plain, texts⟩ := within_of_barCommand drawn
    exact ⟨plain, fun text shown => .inr ⟨interval, included, texts text shown⟩⟩

theorem owns_of_rowCommands {top : α} {track : Track α} {row : List (Command α)}
    (returned : rowCommands plot area top (.ofTrack track) = .ok row) : track.Owns row := by
  simp only [rowCommands, Series.track_ofTrack, Series.bars_ofTrack, ok_bind, pure_eq_ok]
    at returned
  split at returned
  · obtain ⟨command, drawn, returned⟩ := (bind_ok_iff _ _ _).mp returned
    cases returned
    exact owns_of_marks top track
      (List.forall_mem_singleton.mpr fun _ => within_of_placeholderCommand drawn)
  · cases returned
    exact owns_of_marks top track (List.forall_mem_nil _)

/-- Rows are drawn from the first track on, each of them as its own track's, and none is left out
where they all begin above the bottom. -/
theorem owns_of_commandsFrom {index : Nat} {tracks : List (Track α)} {commands : List (Command α)}
    (returned : commandsFrom plot area index (tracks.map Series.ofTrack) = .ok commands) :
    ∃ shown rows, shown <+: tracks ∧ List.Forall₂ Track.Owns shown rows ∧
      commands = rows.flatten ∧
      ((∀ row < index + tracks.length, Scalar.le area.bottom (top area row) = false) →
        shown = tracks) := by
  induction tracks generalizing index commands with
  | nil =>
    cases returned
    exact ⟨[], [], List.prefix_refl _, .nil, rfl, fun _ => rfl⟩
  | cons track tracks ih =>
    rw [List.map_cons, commandsFrom] at returned
    split at returned
    next below =>
      -- The first row that would begin below the bottom ends the rows; there is none if all fit.
      cases returned
      refine ⟨[], [], List.nil_prefix, .nil, rfl, fun room => ?_⟩
      have above := room index (by rw [List.length_cons]; omega)
      rw [below] at above
      cases above
    next =>
      obtain ⟨first, drawn, returned⟩ := (bind_ok_iff _ _ _).mp returned
      obtain ⟨others, later, returned⟩ := (bind_ok_iff _ _ _).mp returned
      cases returned
      obtain ⟨shown, rows, initial, each, rfl, all⟩ := ih later
      refine ⟨track :: shown, first :: rows, List.cons_prefix_cons.mpr ⟨rfl, initial⟩,
        .cons (owns_of_rowCommands drawn) each, rfl, fun room => ?_⟩
      rw [all fun row below => room row (by rw [List.length_cons]; omega)]

end Rows

/-! ### The ruler -/

namespace Ruler

variable {area : Rect α} {start scale gridHeight : α} {step : Step α}

/-- A number of seconds. -/
def Labels (α : Type) [Scalar α] (text : String) : Prop :=
  ∃ places number, text = Scalar.fixedText (α := α) places number ++ "s"

theorem labels_of_label {time major : α} {text : String} (returned : label time major = .ok text) :
    Labels α text := by
  unfold label at returned
  split at returned
  · split at returned
    · cases returned
      exact ⟨_, _, rfl⟩
    · cases returned
  · cases returned

theorem within_of_tickCommands {tick : Int} {drawn : List (Command α)}
    (returned : tickCommands area start scale gridHeight step tick = .ok drawn) :
    ∀ command ∈ drawn, command.Within (Labels α) := by
  obtain ⟨shown, rfl, _, labelled⟩ := tickCommands_eq_mark area start scale gridHeight returned
  cases shown with
  | none => exact List.forall_mem_singleton.mpr ⟨rfl, List.forall_mem_nil _⟩
  | some text =>
    have number := labels_of_label (labelled text rfl)
    rw [tickMark]
    split <;> simp [Command.Within, Command.isGroup, Command.texts, Paint.texts, number]

theorem within_of_commands {finish : α} {drawn : List (Command α)}
    (returned : commands area start finish gridHeight = .ok drawn) :
    ∀ command ∈ drawn, command.Within (Labels α) :=
  forall_of_commands returned ⟨rfl, List.forall_mem_nil _⟩ fun _ _ => within_of_tickCommands

end Ruler

/-- The parts of a drawing of some tracks: a row for each of them, and then a ruler. -/
structure Chart.Parts (tracks : List (Track α)) (commands : List (Command α))
    (rows : List (List (Command α))) (ruler : List (Command α)) : Prop where
  whole : commands = rows.flatten ++ ruler
  owned : List.Forall₂ Track.Owns tracks rows
  labelled : ∀ command ∈ ruler, command.Within (Ruler.Labels α)

theorem Timeline.svg_ok_iff (timeline : Timeline α) (theme : Svg.Theme) (width : α)
    (text : String) : timeline.svg theme width = .ok text ↔
      ∃ commands, timeline.drawing width = .ok commands ∧
        Svg.document theme width (Chart.height timeline.series.length) commands = text := by
  simp only [Timeline.svg, bind_ok_iff, pure_eq_ok, Except.ok.injEq]

/-- A drawing that is made shows tracks from the first one on, and all of them where each row begins
above the bottom. -/
theorem Timeline.parts_of_drawing {timeline : Timeline α} {width : α} {commands : List (Command α)}
    (drawn : timeline.drawing width = .ok commands) :
    ∃ shown rows ruler, shown <+: timeline.tracks ∧ Chart.Parts shown commands rows ruler ∧
      let count := timeline.series.length
      let area := Chart.rowArea count ⟨width, Chart.height count⟩
      ((∀ row < count, Scalar.le area.bottom (Rows.top area row) = false) →
        shown = timeline.tracks) := by
  obtain ⟨listed, returned, drawn⟩ := (bind_ok_iff _ _ _).mp drawn
  obtain ⟨ruler, ticked, drawn⟩ := (bind_ok_iff _ _ _).mp drawn
  cases drawn
  obtain ⟨shown, rows, initial, each, rfl, all⟩ := Rows.owns_of_commandsFrom returned
  refine ⟨shown, rows, ruler, initial, ⟨rfl, each, Ruler.within_of_commands ticked⟩, ?_⟩
  intro count area room
  refine all fun row below => room row ?_
  rwa [Nat.zero_add, ← List.length_map (f := Series.ofTrack)] at below

end TraceChart
