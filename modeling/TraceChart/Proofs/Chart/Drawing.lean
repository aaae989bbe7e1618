import TraceChart.Proofs.Chart.Extent
import TraceChart.Proofs.Chart.Rows
import TraceChart.Proofs.Number.Logarithm
import TraceChart.Svg.Chart

/-!
# Drawings show every interval

With exact numbers nothing is lost between a timeline and its drawing. The window covers every
interval, so no bar lies to one side of the plot; the height has room for every row, so none is left
out; and no label asks for more decimal places than there are, so nothing ends the drawing early.
-/

namespace TraceChart

/-! ### What drawings are made of -/

/-- What a rectangle is filled with, and the text that shows on pointing at it. -/
def Command.mark? {α : Type} : Command α → Option (Paint × Option String)
  | .rect _ fill _ _ hover => some (fill, hover)
  | _ => none

def Command.isGroup {α : Type} : Command α → Bool
  | .beginGroup _ _ => true
  | .endGroup => true
  | _ => false

/-- The marks of a track: its lane, and then a bar for each interval or the mark of a placeholder.
-/
def Track.marks {α : Type} [Scalar α] (track : Track α) : List (Paint × Option String) :=
  (.token .laneBackground, none) ::
    if track.intervals.isEmpty then [(.token .placeholder, none)]
    else track.intervals.map fun interval => (.named interval.color, some interval.caption)

/-- A row shows a track: a group of the track's own around its marks, with no group inside. -/
def Track.ShownBy {α : Type} [Scalar α] (track : Track α) (row : List (Command α)) : Prop :=
  ∃ body : List (Command α),
    row = .beginGroup s!"track-{track.name}" (some track.name) :: body ++ [.endGroup] ∧
    (∀ command ∈ body, command.isGroup = false) ∧ body.filterMap Command.mark? = track.marks

open Exact

/-! ### The window -/

/-- The window has a length, and no interval lies beyond either end. -/
theorem Timeline.window_covers (timeline : Timeline Rat) :
    timeline.window.1 < timeline.window.2 ∧ ∀ interval ∈ timeline.intervals,
      timeline.window.1 ≤ interval.start ∧ interval.finish ≤ timeline.window.2 := by
  have starts : ∀ interval ∈ timeline.intervals, timeline.startTime ≤ interval.start := by
    simpa using startTime_le fun interval _ => isFinite_eq interval.start
  have ends : ∀ interval ∈ timeline.intervals, interval.finish ≤ timeline.endTime := by
    simpa using le_endTime fun interval _ => isFinite_eq interval.finish
  have earliest : Scalar.smaller timeline.startTime 0.0 ≤ timeline.startTime := by
    rw [smaller_eq]
    exact min_le_left _ _
  unfold window
  dsimp only
  split
  next ordered =>
    refine ⟨by simpa using ordered, fun interval member => ?_⟩
    exact ⟨earliest.trans (starts interval member), ends interval member⟩
  next unordered =>
    -- Where the end is not after the start, the window is longer than from one to the other.
    have reversed : timeline.endTime ≤ Scalar.smaller timeline.startTime 0.0 := by
      simpa using unordered
    refine ⟨by simp [one_eq], fun interval member => ?_⟩
    have finished := ends interval member
    exact ⟨earliest.trans (starts interval member), by rw [one_eq]; linarith⟩

/-! ### Rows -/

namespace Rows

/-- A time in the window falls into the plot. -/
theorem Plot.position_within (area : Rect Rat) (gutter : Rat) {start finish time : Rat}
    (ordered : start < finish) (after : start ≤ time) (before : time ≤ finish) :
    let plot := Plot.ofArea area gutter start finish
    plot.left ≤ plot.position time ∧ plot.position time ≤ plot.right := by
  have positive : 0 < finish - start := sub_pos.mpr ordered
  have width : 0 ≤ max (area.width - gutter) 0 := le_max_right _ _
  have nonneg : 0 ≤ (time - start) * (max (area.width - gutter) 0 / (finish - start)) :=
    mul_nonneg (sub_nonneg.mpr after) (div_nonneg width positive.le)
  have bounded : (time - start) * (max (area.width - gutter) 0 / (finish - start)) ≤
      max (area.width - gutter) 0 :=
    calc (time - start) * (max (area.width - gutter) 0 / (finish - start))
        ≤ (finish - start) * (max (area.width - gutter) 0 / (finish - start)) :=
          mul_le_mul_of_nonneg_right (by linarith) (div_nonneg width positive.le)
      _ = max (area.width - gutter) 0 := mul_div_cancel₀ _ positive.ne'
  simp only [Plot.ofArea, Plot.position, Plot.right, larger_eq, zero_eq, lt_eq, positive,
    decide_true, if_true]
  constructor <;> linarith

theorem barCommand_of_within {plot : Plot Rat} (top : Rat) {bar : Bar Rat}
    (ends : plot.left ≤ plot.position bar.finish) (starts : plot.position bar.base ≤ plot.right) :
    ∃ rect, barCommand? plot top bar = some (.rect rect
      (bar.color.elim (.token .placeholder) .named) none (some bar.label) (some bar.hover)) := by
  have inside : (Scalar.lt (plot.position bar.finish) plot.left ||
      Scalar.lt plot.right (plot.position bar.base)) = false := by
    simp [ends, starts]
  unfold barCommand?
  dsimp only
  rw [inside]
  cases bar.color <;> exact ⟨_, rfl⟩

theorem bars_shown {plot : Plot Rat} (top : Rat) (intervals : List (Interval Rat))
    (within : ∀ interval ∈ intervals, plot.left ≤ plot.position interval.finish ∧
      plot.position interval.start ≤ plot.right) :
    let drawn := (intervals.map Interval.bar).filterMap (barCommand? plot top)
    (∀ command ∈ drawn, command.isGroup = false) ∧ drawn.filterMap Command.mark? =
      intervals.map fun interval => (.named interval.color, some interval.caption) := by
  induction intervals with
  | nil => simp
  | cons interval intervals ih =>
    obtain ⟨ends, starts⟩ := within interval List.mem_cons_self
    obtain ⟨rect, drawn⟩ := @barCommand_of_within _ top interval.bar ends starts
    obtain ⟨plain, marks⟩ := ih fun later member => within later (List.mem_cons_of_mem _ member)
    simp only [List.map_cons, List.filterMap_cons, drawn, Command.mark?, List.forall_mem_cons]
    exact ⟨⟨rfl, plain⟩, congrArg₂ List.cons rfl marks⟩

/-- A row shows its track if the plot covers the intervals of the track. -/
theorem rowCommands_shown {plot : Plot Rat} (ordered : Scalar.le plot.left plot.right = true)
    (area : Rect Rat) (top : Rat) (track : Track Rat) (within : ∀ interval ∈ track.intervals,
      plot.left ≤ plot.position interval.finish ∧ plot.position interval.start ≤ plot.right) :
    ∃ row, rowCommands plot area top (.ofTrack track) = .ok row ∧ track.ShownBy row := by
  obtain ⟨plain, marks⟩ := bars_shown top track.intervals within
  obtain ⟨rect, mark, _⟩ := placeholderCommand_of_number ordered (by simp) top
  simp only [rowCommands, Series.placeholder_ofTrack, Series.track_ofTrack, Series.bars_ofTrack,
    mark, ok_bind, pure_eq_ok]
  let lane := laneCommands area top track.name
  let bars := (track.intervals.map Interval.bar).filterMap (barCommand? plot top)
  cases empty : track.intervals.isEmpty with
  | true =>
    have nothing : track.intervals = [] := List.isEmpty_iff.mp empty
    refine ⟨_, rfl, lane ++ [.rect rect (.token .placeholder) none none none] ++ bars, rfl, ?_, ?_⟩
    · simp [lane, bars, nothing, laneCommands, Command.isGroup]
    · simp only [bars, nothing, Track.marks]
      rfl
  | false =>
    refine ⟨_, rfl, lane ++ [] ++ bars, rfl, ?_, ?_⟩
    · simp only [lane, List.append_nil, laneCommands, List.cons_append, List.nil_append,
        List.forall_mem_cons]
      exact ⟨rfl, rfl, plain⟩
    · simp only [lane, List.append_nil, List.filterMap_append, bars, marks, Track.marks, empty]
      rfl

/-- As long as rows begin above the bottom of their area, each track is shown by a row of its own,
in order. -/
theorem commandsFrom_shown {plot : Plot Rat} (ordered : Scalar.le plot.left plot.right = true)
    (area : Rect Rat) (row : Nat) (tracks : List (Track Rat))
    (room : ∀ index < row + tracks.length, top area index < area.bottom)
    (within : ∀ track ∈ tracks, ∀ interval ∈ track.intervals,
      plot.left ≤ plot.position interval.finish ∧ plot.position interval.start ≤ plot.right) :
    ∃ rows, commandsFrom plot area row (tracks.map Series.ofTrack) = .ok rows.flatten ∧
      List.Forall₂ Track.ShownBy tracks rows := by
  induction tracks generalizing row with
  | nil => exact ⟨[], rfl, .nil⟩
  | cons track tracks ih =>
    have above : Scalar.le area.bottom (top area row) = false := by
      simpa using room row (by simp)
    obtain ⟨first, drawn, shown⟩ := rowCommands_shown ordered area (top area row) track
      (within track List.mem_cons_self)
    obtain ⟨rest, others, below⟩ := ih (row + 1)
      (fun index less => room index (by simp only [List.length_cons]; omega))
      (fun later member => within later (List.mem_cons_of_mem _ member))
    refine ⟨first :: rest, ?_, .cons shown below⟩
    simp [commandsFrom, above, drawn, others]

end Rows

/-! ### The ruler -/

namespace Ruler

/-- The step is one of the candidates, at the power of ten of the share of a label. -/
theorem exists_candidate {α : Type} [Scalar α] (duration width : α) :
    ∃ factor parts, (factor, parts) ∈ candidates ∧ chooseStep duration width =
      ⟨factor * Scalar.powerOfTen (Scalar.decade (share duration width)), parts⟩ := by
  unfold chooseStep
  dsimp only
  split
  next factor parts found => exact ⟨factor, parts, List.mem_of_find?_eq_some found, rfl⟩
  next => exact ⟨10.0, 2, by simp [candidates], rfl⟩

theorem share_pos {duration : Rat} (positive : 0 < duration) (width : Rat) :
    0 < share duration width := by
  rw [share, larger_eq]
  exact div_pos positive (lt_max_of_lt_right (by norm_num))

/-- The step of a window that has a length has a length too. -/
theorem chooseStep_pos {duration : Rat} (positive : 0 < duration) (width : Rat) :
    0 < (chooseStep duration width).major := by
  obtain ⟨factor, parts, member, chosen⟩ := exists_candidate duration width
  have factorPos : (0 : ℚ) < factor := by
    simp only [candidates, List.mem_cons, Prod.mk.injEq, List.not_mem_nil, or_false] at member
    rcases member with ⟨rfl, _⟩ | ⟨rfl, _⟩ | ⟨rfl, _⟩ | ⟨rfl, _⟩ <;> norm_num
  rw [chosen, powerOfTen_decade (share_pos positive width)]
  exact mul_pos factorPos (zpow_pos (by norm_num) _)

theorem label_exact (time : Rat) {major : Rat} (positive : 0 < major) :
    ∃ text, label time major = .ok text := by
  have takes (places : Nat) : Scalar.takesPlaces Rat places = true := rfl
  simp [label, labelPlaces?, decade_of_pos positive, takes]

section Ticks

variable {α : Type} [Scalar α]

/-- The ticks that are visited from one on. -/
def ticksFrom (tick : Int) : Nat → List Int
  | 0 => []
  | count + 1 => tick :: ticksFrom (tick + 1) count

theorem mem_ticksFrom {tick first : Int} {count : Nat} :
    tick ∈ ticksFrom first count ↔ first ≤ tick ∧ tick < first + count := by
  induction count generalizing first with
  | zero =>
    simp only [ticksFrom, List.not_mem_nil, false_iff]
    omega
  | succ count ih =>
    simp only [ticksFrom, List.mem_cons, ih]
    omega

theorem pairwise_ticksFrom (first : Int) (count : Nat) :
    (ticksFrom first count).Pairwise (· < ·) := by
  induction count generalizing first with
  | zero => exact .nil
  | succ count ih =>
    refine List.pairwise_cons.mpr ⟨fun tick member => ?_, ih (first + 1)⟩
    have after := (mem_ticksFrom.mp member).1
    omega

variable (area : Rect α) (start scale gridHeight : α) {step : Step α}

/-- The loop over the ticks is a traversal of them. -/
theorem tickCommandsFrom_eq (tick : Int) (reversed : List (List (Command α))) (count : Nat) :
    tickCommandsFrom area start scale gridHeight step tick reversed count =
      (ticksFrom tick count).mapM (tickCommands area start scale gridHeight step) >>=
        fun blocks => pure (reversed.reverse ++ blocks).flatten := by
  induction count generalizing tick reversed with
  | zero => simp [tickCommandsFrom, ticksFrom]
  | succ count ih =>
    simp only [tickCommandsFrom, ticksFrom, List.mapM_cons, bind_assoc, pure_bind, ih]
    simp

/-- A tick with its label, if it has one. Then it is longer, and if there is a chart below, a line
leads down the chart. -/
def tickMark (area : Rect α) (gridHeight x : α) : Option String → List (Command α)
  | none => [.line ⟨x, area.y + height - minorTickHeight⟩ ⟨x, area.y + height⟩ .textMuted 0.5]
  | some label =>
    [.line ⟨x, area.y + height - majorTickHeight⟩ ⟨x, area.y + height⟩ .laneBorder 1.0,
      .text ⟨x + labelIndent, area.y + labelDrop⟩ label (.token .textPrimary) fontSize .left] ++
    if Scalar.lt 0.0 gridHeight then
      [.line ⟨x, area.y + height⟩ ⟨x, area.y + height + gridHeight⟩ .laneBorder 0.5]
    else []

theorem tickCommands_eq_mark {tick : Int} {block : List (Command α)}
    (drawn : tickCommands area start scale gridHeight step tick = .ok block) :
    let time := Scalar.ofInt tick * step.minor
    ∃ shown, block = tickMark area gridHeight (area.x + (time - start) * scale) shown ∧
      (shown.isSome = true ↔ tick % step.parts = 0) ∧
      ∀ text ∈ shown, label time step.major = .ok text := by
  intro time
  unfold tickCommands at drawn
  dsimp only at drawn
  split at drawn
  next major =>
    obtain ⟨text, written, rest⟩ := (bind_ok_iff _ _ _).mp drawn
    cases rest
    exact ⟨some text, rfl, by simpa using major, by simpa using written⟩
  next minor =>
    cases drawn
    exact ⟨none, rfl, by simpa using minor, by simp⟩

/-- What is drawn at a tick forms no group. -/
theorem tickCommands_plain {tick : Int} {block : List (Command α)}
    (drawn : tickCommands area start scale gridHeight step tick = .ok block) :
    ∀ command ∈ block, command.isGroup = false := by
  obtain ⟨shown, rfl, _⟩ := tickCommands_eq_mark area start scale gridHeight drawn
  cases shown with
  | none => simp [tickMark, Command.isGroup]
  | some label =>
    rw [tickMark]
    split <;> simp [Command.isGroup]

theorem exists_tickCommands (labelled : ∀ time, ∃ text, label time step.major = .ok text)
    (tick : Int) : ∃ block, tickCommands area start scale gridHeight step tick = .ok block := by
  obtain ⟨text, written⟩ := labelled (Scalar.ofInt tick * step.minor)
  unfold tickCommands
  dsimp only
  split
  · exact ⟨_, by rw [majorCommands, written]; rfl⟩
  · exact ⟨_, rfl⟩

/-- The ticks of a window: all multiples of the minor step from the first to the last. -/
def ticks (minor start finish : α) : List Int :=
  ticksFrom (firstTick minor start) (lastTick minor finish + 1 - firstTick minor start).toNat

theorem mem_ticks {minor start finish : α} {tick : Int} :
    tick ∈ ticks minor start finish ↔
      firstTick minor start ≤ tick ∧ tick ≤ lastTick minor finish := by
  rw [ticks, mem_ticksFrom]
  omega

/-- The step of the ruler over an area for a window of time. -/
def stepOf (area : Rect α) (start finish : α) : Step α :=
  chooseStep (finish - start) area.width

/-- A ruler is drawn with a block for each tick. -/
def DrawnAs (area : Rect α) (start finish gridHeight : α) (blocks : List (List (Command α))) :
    Prop :=
  commands area start finish gridHeight = .ok (groundCommand area :: blocks.flatten) ∧
    List.Forall₂ (fun tick block =>
      tickCommands area start (area.width / (finish - start)) gridHeight
        (stepOf area start finish) tick = .ok block)
      (ticks (stepOf area start finish).minor start finish) blocks

/-- A ruler is drawn if all of its ticks are. -/
theorem exists_drawn_of_ticks {area : Rect α} {start finish : α} (gridHeight : α)
    (lasting : Scalar.le (finish - start) 0.0 = false) (wide : Scalar.le area.width 0.0 = false)
    (each : ∀ tick ∈ ticks (stepOf area start finish).minor start finish, ∃ block,
      tickCommands area start (area.width / (finish - start)) gridHeight
        (stepOf area start finish) tick = .ok block) :
    ∃ blocks, DrawnAs area start finish gridHeight blocks := by
  obtain ⟨blocks, visited⟩ := exists_mapM_ok each
  refine ⟨blocks, ?_, (mapM_ok_iff _ _ _).mp visited⟩
  rw [commands, lasting, wide]
  simp only [Bool.or_self, Bool.false_eq_true, if_false, tickCommandsFrom_eq]
  rw [ticks, stepOf] at visited
  rw [visited]
  rfl

/-- A ruler is drawn if its step has labels for all times. -/
theorem exists_drawn {area : Rect α} {start finish : α} (gridHeight : α)
    (lasting : Scalar.le (finish - start) 0.0 = false) (wide : Scalar.le area.width 0.0 = false)
    (labelled : ∀ time, ∃ text, label time (stepOf area start finish).major = .ok text) :
    ∃ blocks, DrawnAs area start finish gridHeight blocks :=
  exists_drawn_of_ticks gridHeight lasting wide fun tick _ =>
    exists_tickCommands area start _ gridHeight labelled tick

/-- What holds of the ground of a ruler and of all that is drawn at a tick holds of the whole. -/
theorem forall_of_commands {kind : Command α → Prop} {area : Rect α} {start finish gridHeight : α}
    {drawn : List (Command α)} (returned : commands area start finish gridHeight = .ok drawn)
    (ground : kind (groundCommand area))
    (each : ∀ tick block, tickCommands area start (area.width / (finish - start)) gridHeight
      (stepOf area start finish) tick = .ok block → ∀ command ∈ block, kind command) :
    ∀ command ∈ drawn, kind command := by
  unfold commands at returned
  dsimp only at returned
  split at returned
  · cases returned
    exact List.forall_mem_nil _
  · obtain ⟨_, ticked, returned⟩ := (bind_ok_iff _ _ _).mp returned
    cases returned
    rw [tickCommandsFrom_eq] at ticked
    obtain ⟨blocks, visited, ticked⟩ := (bind_ok_iff _ _ _).mp ticked
    cases ticked
    refine List.forall_mem_cons.mpr ⟨ground, fun command member => ?_⟩
    obtain ⟨block, listed, inside⟩ := List.mem_flatten.mp member
    obtain ⟨tick, _, made⟩ := forall₂_exists ((mapM_ok_iff _ _ _).mp visited).flip block listed
    exact each tick block made command inside

end Ticks

/-- With exact numbers every ruler is drawn, and has no groups. -/
theorem commands_exact (area : Rect Rat) (start finish gridHeight : Rat) :
    ∃ drawn, commands area start finish gridHeight = .ok drawn ∧
      ∀ command ∈ drawn, command.isGroup = false := by
  obtain ⟨drawn, returned⟩ : ∃ drawn, commands area start finish gridHeight = .ok drawn := by
    by_cases empty : (Scalar.le (finish - start) 0.0 || Scalar.le area.width 0.0) = true
    · exact ⟨[], by rw [commands]; exact if_pos empty⟩
    · rw [Bool.or_eq_true, not_or, Bool.not_eq_true, Bool.not_eq_true] at empty
      have positive : 0 < finish - start := by simpa [zero_eq] using empty.1
      obtain ⟨blocks, drawn, _⟩ := exists_drawn gridHeight empty.1 empty.2 fun time =>
        label_exact time (chooseStep_pos positive area.width)
      exact ⟨_, drawn⟩
  exact ⟨drawn, returned, forall_of_commands returned rfl fun _ _ made =>
    tickCommands_plain area start _ gridHeight made⟩

end Ruler

/-! ### Charts -/

namespace Chart

/-- The area of rows in a chart of its own height is as high as all rows together. -/
theorem height_rowArea (count : Nat) (width : Rat) :
    (rowArea count ⟨width, height count⟩).height = Rows.height count := by
  have nonneg : (0 : ℚ) ≤ Rows.height count := by
    have rows : (0 : ℚ) ≤ (count : Int) := by positivity
    exact mul_nonneg rows (by norm_num [Rows.rowHeight])
  have rest : (height count : ℚ) - Ruler.height = Rows.height count := by
    rw [height]
    ring
  simp only [rowArea, rest, larger_eq, smaller_eq, zero_eq, max_eq_left nonneg, min_self]

theorem top_lt_bottom {count row : Nat} (below : row < count) (width : Rat) :
    Rows.top (rowArea count ⟨width, height count⟩) row <
      (rowArea count ⟨width, height count⟩).bottom := by
  have rows : ((row : Int) : ℚ) < (count : Int) := by exact_mod_cast below
  rw [Rows.top, Rect.bottom, height_rowArea, Rows.height]
  exact add_lt_add_right (mul_lt_mul_of_pos_right rows (by norm_num [Rows.rowHeight])) _

end Chart

/-- A drawing in exact arithmetic has a row for each track, in order, and then what belongs to no
track. -/
theorem Timeline.drawing_shown (timeline : Timeline Rat) (width : Rat)
    (forwards : ∀ interval ∈ timeline.intervals, interval.start ≤ interval.finish) :
    ∃ rows ruler, timeline.drawing width = .ok (rows.flatten ++ ruler) ∧
      List.Forall₂ Track.ShownBy timeline.tracks rows ∧
      ∀ command ∈ ruler, command.isGroup = false := by
  obtain ⟨ordered, covers⟩ := timeline.window_covers
  let count := timeline.series.length
  let viewport : Viewport Rat := ⟨width, Chart.height count⟩
  let area := Chart.rowArea count viewport
  let plot := Rows.Plot.ofArea area Chart.gutter timeline.window.1 timeline.window.2
  have within : ∀ track ∈ timeline.tracks, ∀ interval ∈ track.intervals,
      plot.left ≤ plot.position interval.finish ∧ plot.position interval.start ≤ plot.right := by
    intro track listed interval member
    have included : interval ∈ timeline.intervals := List.mem_flatMap.mpr ⟨track, listed, member⟩
    obtain ⟨after, before⟩ := covers interval included
    have spans := forwards interval included
    exact ⟨(Rows.Plot.position_within area _ ordered (after.trans spans) before).1,
      (Rows.Plot.position_within area _ ordered after (spans.trans before)).2⟩
  have room : ∀ index < 0 + timeline.tracks.length, Rows.top area index < area.bottom := by
    intro index below
    exact Chart.top_lt_bottom (by simpa [count, series] using below) width
  obtain ⟨rows, drawn, shown⟩ := Rows.commandsFrom_shown
    (Rows.Plot.left_le_right rfl) area 0 timeline.tracks
    room within
  obtain ⟨ruler, ticks, plain⟩ := Ruler.commands_exact (Chart.rulerArea viewport)
    timeline.window.1 timeline.window.2 area.height
  refine ⟨rows, ruler, ?_, shown, plain⟩
  change (Rows.commandsFrom plot area 0 timeline.series >>= fun rows =>
    Ruler.commands (Chart.rulerArea viewport) timeline.window.1 timeline.window.2 area.height >>=
      fun ruler => pure (rows ++ ruler)) = _
  rw [show timeline.series = timeline.tracks.map Series.ofTrack from rfl, drawn, ok_bind, ticks]
  rfl

end TraceChart
