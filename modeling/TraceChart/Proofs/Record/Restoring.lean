import TraceChart.Proofs.Record.Codec
import TraceChart.Record.Drawing
import TraceChart.Record.Trace

/-!
# Records are restored

Every serialized type has a lawful form: its values are read back from what is written of them, and
a value that was read from any other text is read back from its own. Only numbers set a condition.
They have to be finite, and codes have to fit into a word.
-/

namespace TraceChart

open Codec

/-! ### Names -/

instance : Lawful Category where
  Representable _ := True
  decode?_encode {category} _ := by cases category <;> rfl
  representable _ := trivial
  writable category := .string category.serialName

instance : Lawful Token where
  Representable _ := True
  decode?_encode {token} _ := by cases token <;> rfl
  representable _ := trivial
  writable token := .string token.serialName

instance : Present Token where
  encode_ne_null _ := nofun

instance : Lawful Align where
  Representable _ := True
  decode?_encode {align} _ := by cases align <;> rfl
  representable _ := trivial
  writable align := .string align.serialName

/-! ### Traces -/

/-- The time is finite, and the code is an integer of a word. -/
def Event.Representable (event : Event Binary64) : Prop :=
  event.time.isFinite = true ∧ fitsWord event.code = true

instance : Lawful (Event Binary64) where
  Representable := Event.Representable
  decode?_encode {event} representable := by
    have time := required?_encode event.time representable.1
    have code := required?_encode event.code representable.2
    refine (read_members ["timestamp", "type_id"]
      [encode event.time, encode event.code] rfl (by decide) _).trans ?_
    simp [time, code]
  representable {json event} read := by
    obtain ⟨fields, -, read⟩ := Option.bind_eq_some_iff.mp read
    split at read
    · simp only [Option.bind_eq_bind, Option.bind_eq_some_iff, Option.pure_def,
        Option.some.injEq] at read
      obtain ⟨time, readTime, code, readCode, rfl⟩ := read
      exact ⟨representable_of_required? readTime, representable_of_required? readCode⟩
    · cases read
  writable event :=
    writable_members ["timestamp", "type_id"]
      [encode event.time, encode event.code] (by simp [Lawful.writable])

def Counter.Representable (counter : Counter Binary64) : Prop :=
  ∀ event ∈ counter.events, event.Representable

instance : Lawful (Counter Binary64) where
  Representable := Counter.Representable
  decode?_encode {counter} representable := by
    have name := required?_encode counter.name trivial
    have category := required?_encode counter.category trivial
    have events := required?_encode counter.events representable
    refine (read_members ["name", "category", "events"]
      [encode counter.name, encode counter.category, encode counter.events] rfl
      (by decide) _).trans ?_
    simp [name, category, events]
  representable {json counter} read := by
    obtain ⟨fields, -, read⟩ := Option.bind_eq_some_iff.mp read
    split at read
    · simp only [Option.bind_eq_bind, Option.bind_eq_some_iff, Option.pure_def,
        Option.some.injEq] at read
      obtain ⟨name, readName, category, readCategory, events, readEvents, rfl⟩ := read
      exact representable_of_required? readEvents
    · cases read
  writable counter :=
    writable_members ["name", "category", "events"]
      [encode counter.name, encode counter.category, encode counter.events]
      (by simp [Lawful.writable])

def Interval.Representable (interval : Interval Binary64) : Prop :=
  interval.start.isFinite = true ∧ interval.duration.isFinite = true

instance : Lawful (Interval Binary64) where
  Representable := Interval.Representable
  decode?_encode {interval} representable := by
    have track := required?_encode interval.track trivial
    have start := required?_encode interval.start representable.1
    have duration := required?_encode interval.duration representable.2
    have label := required?_encode interval.label trivial
    have color := required?_encode interval.color trivial
    refine (read_members ["track", "start", "duration", "label", "color"]
      [encode interval.track, encode interval.start, encode interval.duration,
        encode interval.label, encode interval.color] rfl (by decide) _).trans ?_
    simp [track, start, duration, label, color]
  representable {json interval} read := by
    obtain ⟨fields, -, read⟩ := Option.bind_eq_some_iff.mp read
    split at read
    · simp only [Option.bind_eq_bind, Option.bind_eq_some_iff, Option.pure_def,
        Option.some.injEq] at read
      obtain ⟨track, readTrack, start, readStart, duration, readDuration, label, readLabel, color,
        readColor, rfl⟩ := read
      exact ⟨representable_of_required? readStart, representable_of_required? readDuration⟩
    · cases read
  writable interval :=
    writable_members ["track", "start", "duration", "label", "color"]
      [encode interval.track, encode interval.start, encode interval.duration,
        encode interval.label, encode interval.color] (by simp [Lawful.writable])

def Track.Representable (track : Track Binary64) : Prop :=
  ∀ interval ∈ track.intervals, interval.Representable

instance : Lawful (Track Binary64) where
  Representable := Track.Representable
  decode?_encode {track} representable := by
    have name := required?_encode track.name trivial
    have intervals := required?_encode track.intervals representable
    refine (read_members ["track", "intervals"]
      [encode track.name, encode track.intervals] rfl (by decide) _).trans ?_
    simp [name, intervals]
  representable {json track} read := by
    obtain ⟨fields, -, read⟩ := Option.bind_eq_some_iff.mp read
    split at read
    · simp only [Option.bind_eq_bind, Option.bind_eq_some_iff, Option.pure_def,
        Option.some.injEq] at read
      obtain ⟨name, readName, intervals, readIntervals, rfl⟩ := read
      exact representable_of_required? readIntervals
    · cases read
  writable track :=
    writable_members ["track", "intervals"]
      [encode track.name, encode track.intervals] (by simp [Lawful.writable])

def Timeline.Representable (timeline : Timeline Binary64) : Prop :=
  ∀ track ∈ timeline.tracks, track.Representable

instance : Lawful (Timeline Binary64) where
  Representable := Timeline.Representable
  decode?_encode {timeline} representable := by
    have tracks := required?_encode timeline.tracks representable
    refine (read_members ["tracks"]
      [encode timeline.tracks] rfl (by decide) _).trans ?_
    simp [tracks]
  representable {json timeline} read := by
    obtain ⟨fields, -, read⟩ := Option.bind_eq_some_iff.mp read
    split at read
    · simp only [Option.bind_eq_bind, Option.bind_eq_some_iff, Option.pure_def,
        Option.some.injEq] at read
      obtain ⟨tracks, readTracks, rfl⟩ := read
      exact representable_of_required? readTracks
    · cases read
  writable timeline :=
    writable_members ["tracks"]
      [encode timeline.tracks] (by simp [Lawful.writable])

def Series.Representable (series : Series Binary64) : Prop :=
  (∀ duration ∈ series.durations, duration.isFinite = true) ∧
    ∀ base ∈ series.bases, base.isFinite = true

instance : Lawful (Series Binary64) where
  Representable := Series.Representable
  decode?_encode {series} representable := by
    have track := required?_encode series.track trivial
    have durations := required?_encode series.durations representable.1
    have rows := required?_encode series.rows (fun _ _ => trivial)
    have bases := required?_encode series.bases representable.2
    have hover := required?_encode series.hover (fun _ _ => trivial)
    have labels := required?_encode series.labels (fun _ _ => trivial)
    have colors := required?_encode series.colors (fun _ _ _ _ => trivial)
    have placeholder := required?_encode series.placeholder trivial
    refine (read_members ["track", "durations", "rows", "bases", "hover", "labels", "colors",
        "placeholder"]
      [encode series.track, encode series.durations, encode series.rows, encode series.bases,
        encode series.hover, encode series.labels, encode series.colors,
        encode series.placeholder] rfl (by decide) _).trans ?_
    simp [track, durations, rows, bases, hover, labels, colors, placeholder]
  representable {json series} read := by
    obtain ⟨fields, -, read⟩ := Option.bind_eq_some_iff.mp read
    split at read
    · simp only [Option.bind_eq_bind, Option.bind_eq_some_iff, Option.pure_def,
        Option.some.injEq] at read
      obtain ⟨track, readTrack, durations, readDurations, rows, readRows, bases, readBases, hover,
        readHover, labels, readLabels, colors, readColors, placeholder, readPlaceholder, rfl⟩ := read
      exact ⟨representable_of_required? readDurations, representable_of_required? readBases⟩
    · cases read
  writable series :=
    writable_members ["track", "durations", "rows", "bases", "hover", "labels", "colors",
        "placeholder"]
      [encode series.track, encode series.durations, encode series.rows, encode series.bases,
        encode series.hover, encode series.labels, encode series.colors,
        encode series.placeholder] (by simp [Lawful.writable])

/-! ### Drawings -/

def Point.Representable (point : Point Binary64) : Prop :=
  point.x.isFinite = true ∧ point.y.isFinite = true

instance : Lawful (Point Binary64) where
  Representable := Point.Representable
  decode?_encode {point} representable := by
    have x := required?_encode point.x representable.1
    have y := required?_encode point.y representable.2
    refine (read_members ["x", "y"]
      [encode point.x, encode point.y] rfl (by decide) _).trans ?_
    simp [x, y]
  representable {json point} read := by
    obtain ⟨fields, -, read⟩ := Option.bind_eq_some_iff.mp read
    split at read
    · simp only [Option.bind_eq_bind, Option.bind_eq_some_iff, Option.pure_def,
        Option.some.injEq] at read
      obtain ⟨x, readX, y, readY, rfl⟩ := read
      exact ⟨representable_of_required? readX, representable_of_required? readY⟩
    · cases read
  writable point :=
    writable_members ["x", "y"]
      [encode point.x, encode point.y] (by simp [Lawful.writable])

def Rect.Representable (rect : Rect Binary64) : Prop :=
  rect.x.isFinite = true ∧ rect.y.isFinite = true ∧ rect.width.isFinite = true ∧
    rect.height.isFinite = true

instance : Lawful (Rect Binary64) where
  Representable := Rect.Representable
  decode?_encode {rect} representable := by
    obtain ⟨finiteX, finiteY, finiteWidth, finiteHeight⟩ := representable
    have x := required?_encode rect.x finiteX
    have y := required?_encode rect.y finiteY
    have width := required?_encode rect.width finiteWidth
    have height := required?_encode rect.height finiteHeight
    refine (read_members ["x", "y", "w", "h"]
      [encode rect.x, encode rect.y, encode rect.width, encode rect.height] rfl
      (by decide) _).trans ?_
    simp [x, y, width, height]
  representable {json rect} read := by
    obtain ⟨fields, -, read⟩ := Option.bind_eq_some_iff.mp read
    split at read
    · simp only [Option.bind_eq_bind, Option.bind_eq_some_iff, Option.pure_def,
        Option.some.injEq] at read
      obtain ⟨x, readX, y, readY, width, readWidth, height, readHeight, rfl⟩ := read
      exact ⟨representable_of_required? readX, representable_of_required? readY,
        representable_of_required? readWidth, representable_of_required? readHeight⟩
    · cases read
  writable rect :=
    writable_members ["x", "y", "w", "h"]
      [encode rect.x, encode rect.y, encode rect.width, encode rect.height]
      (by simp [Lawful.writable])

def Viewport.Representable (viewport : Viewport Binary64) : Prop :=
  viewport.width.isFinite = true ∧ viewport.height.isFinite = true

instance : Lawful (Viewport Binary64) where
  Representable := Viewport.Representable
  decode?_encode {viewport} representable := by
    have width := required?_encode viewport.width representable.1
    have height := required?_encode viewport.height representable.2
    refine (read_members ["width", "height"]
      [encode viewport.width, encode viewport.height] rfl (by decide) _).trans ?_
    simp [width, height]
  representable {json viewport} read := by
    obtain ⟨fields, -, read⟩ := Option.bind_eq_some_iff.mp read
    split at read
    · simp only [Option.bind_eq_bind, Option.bind_eq_some_iff, Option.pure_def,
        Option.some.injEq] at read
      obtain ⟨width, readWidth, height, readHeight, rfl⟩ := read
      exact ⟨representable_of_required? readWidth, representable_of_required? readHeight⟩
    · cases read
  writable viewport :=
    writable_members ["width", "height"]
      [encode viewport.width, encode viewport.height] (by simp [Lawful.writable])

instance : Lawful Paint where
  Representable _ := True
  decode?_encode {paint} _ := by
    cases paint with
    | token token =>
      change (decode? .nearest (encode token)).map Paint.token = _
      rw [Lawful.decode?_encode trivial, Option.map_some]
    | named name => rfl
  representable _ := trivial
  writable paint := by
    cases paint with
    | token token => exact writable_members ["Token"] [encode token] (by simp [Lawful.writable])
    | named name => exact writable_members ["Named"] [encode name] (by simp [Lawful.writable])

namespace Command

def Representable : Command Binary64 → Prop
  | .rect bounds .. => bounds.Representable
  | .text position _ _ size _ => position.Representable ∧ size.isFinite = true
  | .line start finish _ width =>
    start.Representable ∧ finish.Representable ∧ width.isFinite = true
  | .beginGroup .. => True
  | .endGroup => True

variable {json : Json.Value} {command : Command Binary64}

/-! Each command with content has a reader of its own, which takes this content only. -/

theorem representable_of_rectCommand? (read : rectCommand? .nearest json = some command) :
    command.Representable := by
  obtain ⟨fields, -, read⟩ := Option.bind_eq_some_iff.mp read
  split at read
  · simp only [Option.bind_eq_bind, Option.bind_eq_some_iff, Option.pure_def,
      Option.some.injEq] at read
    obtain ⟨bounds, readBounds, fill, -, edge, -, label, -, hover, -, rfl⟩ := read
    exact representable_of_required? readBounds
  · cases read

theorem representable_of_textCommand? (read : textCommand? .nearest json = some command) :
    command.Representable := by
  obtain ⟨fields, -, read⟩ := Option.bind_eq_some_iff.mp read
  split at read
  · simp only [Option.bind_eq_bind, Option.bind_eq_some_iff, Option.pure_def,
      Option.some.injEq] at read
    obtain ⟨position, readPosition, text, -, color, -, size, readSize, align, -, rfl⟩ := read
    exact ⟨representable_of_required? readPosition, representable_of_required? readSize⟩
  · cases read

theorem representable_of_lineCommand? (read : lineCommand? .nearest json = some command) :
    command.Representable := by
  obtain ⟨fields, -, read⟩ := Option.bind_eq_some_iff.mp read
  split at read
  · simp only [Option.bind_eq_bind, Option.bind_eq_some_iff, Option.pure_def,
      Option.some.injEq] at read
    obtain ⟨start, readStart, finish, readFinish, color, -, width, readWidth, rfl⟩ := read
    exact ⟨representable_of_required? readStart, representable_of_required? readFinish,
      representable_of_required? readWidth⟩
  · cases read

theorem representable_of_groupCommand? (read : groupCommand? .nearest json = some command) :
    command.Representable := by
  obtain ⟨fields, -, read⟩ := Option.bind_eq_some_iff.mp read
  split at read
  · simp only [Option.bind_eq_bind, Option.bind_eq_some_iff, Option.pure_def,
      Option.some.injEq] at read
    obtain ⟨id, -, label, -, rfl⟩ := read
    exact True.intro
  · cases read

theorem decode?_encode (representable : command.Representable) :
    decode? .nearest (encode command) = some command := by
  cases command with
  | rect bounds fill edge label hover =>
    have readBounds := required?_encode bounds representable
    have readFill := required?_encode fill trivial
    have readEdge := optional?_encode edge fun _ _ => trivial
    have readLabel := optional?_encode label fun _ _ => trivial
    have readHover := optional?_encode hover fun _ _ => trivial
    change rectCommand? .nearest (members (["rect", "fill", "border_color", "label", "hover"].zip
      [encode bounds, encode fill, encode edge, encode label, encode hover])) = _
    rw [rectCommand?, read_members _ _ rfl (by decide)]
    simp [readBounds, readFill, readEdge, readLabel, readHover]
  | text position text color size align =>
    have readPosition := required?_encode position representable.1
    have readText := required?_encode text trivial
    have readColor := required?_encode color trivial
    have readSize := required?_encode size representable.2
    have readAlign := required?_encode align trivial
    change textCommand? .nearest (members (["position", "text", "color", "font_size", "align"].zip
      [encode position, encode text, encode color, encode size, encode align])) = _
    rw [textCommand?, read_members _ _ rfl (by decide)]
    simp [readPosition, readText, readColor, readSize, readAlign]
  | line start finish color width =>
    have readStart := required?_encode start representable.1
    have readFinish := required?_encode finish representable.2.1
    have readColor := required?_encode color trivial
    have readWidth := required?_encode width representable.2.2
    change lineCommand? .nearest (members (["from", "to", "color", "width"].zip
      [encode start, encode finish, encode color, encode width])) = _
    rw [lineCommand?, read_members _ _ rfl (by decide)]
    simp [readStart, readFinish, readColor, readWidth]
  | beginGroup id label =>
    have readId := required?_encode id trivial
    have readLabel := optional?_encode label fun _ _ => trivial
    change groupCommand? .nearest (members (["id", "label"].zip [encode id, encode label])) = _
    rw [groupCommand?, read_members _ _ rfl (by decide)]
    simp [readId, readLabel]
  | endGroup => rfl

theorem writable (command : Command Binary64) : (encode command).Writable := by
  have alternative (name : String) {content : Json.Value} (writable : content.Writable) :
      (tagged name content).Writable :=
    writable_members [name] [content] (List.forall_mem_singleton.mpr writable)
  cases command with
  | rect bounds fill edge label hover =>
    exact alternative "DrawRect" (writable_members ["rect", "fill", "border_color", "label",
      "hover"] [encode bounds, encode fill, encode edge, encode label, encode hover]
      (by simp [Lawful.writable]))
  | text position text color size align =>
    exact alternative "DrawText" (writable_members ["position", "text", "color", "font_size",
      "align"] [encode position, encode text, encode color, encode size, encode align]
      (by simp [Lawful.writable]))
  | line start finish color width =>
    exact alternative "DrawLine" (writable_members ["from", "to", "color", "width"]
      [encode start, encode finish, encode color, encode width] (by simp [Lawful.writable]))
  | beginGroup id label =>
    exact alternative "BeginGroup" (writable_members ["id", "label"] [encode id, encode label]
      (by simp [Lawful.writable]))
  | endGroup => exact .string "EndGroup"

end Command

instance : Lawful (Command Binary64) where
  Representable := Command.Representable
  decode?_encode := Command.decode?_encode
  representable {json command} read := by
    obtain ⟨alternative, -, read⟩ := Option.bind_eq_some_iff.mp read
    split at read
    · exact Command.representable_of_rectCommand? read
    · exact Command.representable_of_textCommand? read
    · exact Command.representable_of_lineCommand? read
    · exact Command.representable_of_groupCommand? read
    · cases read
      exact True.intro
    · cases read
      exact True.intro
    · cases read
  writable := Command.writable

/-! ### All types -/

/-- Every serialized type restores its values: those with finite numbers are read from what is
written of them, and what is read from any text can be written and read again. -/
theorem serialized_restores :
    Restores Event.Representable ∧ Restores Counter.Representable ∧
      Restores Interval.Representable ∧ Restores Track.Representable ∧
      Restores Timeline.Representable ∧ Restores Series.Representable ∧
      Restores Command.Representable ∧
      Restores (fun commands : List (Command Binary64) =>
        ∀ command ∈ commands, command.Representable) ∧
      Restores Point.Representable ∧ Restores Rect.Representable ∧
      Restores Viewport.Representable ∧
      Restores (fun _ : Paint => True) ∧ Restores (fun _ : Category => True) ∧
      Restores (fun _ : Token => True) ∧ Restores (fun _ : Align => True) :=
  ⟨Lawful.restores, Lawful.restores, Lawful.restores, Lawful.restores, Lawful.restores,
    Lawful.restores, Lawful.restores, Lawful.restores, Lawful.restores, Lawful.restores,
    Lawful.restores, Lawful.restores, Lawful.restores, Lawful.restores, Lawful.restores⟩

example : read? .nearest (write (⟨.zero true, 3⟩ : Event Binary64)) =
    some (⟨.zero true, 3⟩ : Event Binary64) := by decide +kernel

end TraceChart
