import TraceChart.Proofs.Chart.Extent
import TraceChart.Proofs.CommandLine.Plan
import TraceChart.Proofs.Record.Rereading
import TraceChart.Proofs.Trace.Order

/-!
# Exported series

What an export prints is the series of the timeline spread over lines, so a reader that takes every
numeral for the number nearest to it gets them back, and from each series the intervals of its
counter. A reader that rounds digits first gets them back but for their numbers, which it takes for
what it reads of their digits. Only durations set a condition: starts are times of events and thus
finite, while the time between two events may be too long for a number.
-/

namespace TraceChart

/-! ### What series are made of -/

/-- The numbers of a series are those of the intervals, and zero stands for none. -/
theorem Series.numbers_ofTrack {α : Type} [Scalar α] {track : Track α} {holds : α → Prop}
    (zero : holds 0.0)
    (each : ∀ interval ∈ track.intervals, holds interval.start ∧ holds interval.duration) :
    (∀ duration ∈ (Series.ofTrack track).durations, holds duration) ∧
      ∀ base ∈ (Series.ofTrack track).bases, holds base := by
  unfold Series.ofTrack
  split
  · exact ⟨List.forall_mem_singleton.mpr zero, List.forall_mem_singleton.mpr zero⟩
  · constructor
    · intro duration member
      obtain ⟨interval, included, rfl⟩ := List.mem_map.mp member
      exact (each interval included).2
    · intro base member
      obtain ⟨interval, included, rfl⟩ := List.mem_map.mp member
      exact (each interval included).1

namespace Counter

variable {α : Type} [Scalar α] {counter : Counter α} {palette : Palette}
  {intervals : List (Interval α)}

theorem start_finite (returned : counter.intervals palette = .ok intervals) :
    ∀ interval ∈ intervals, Scalar.isFinite interval.start = true := by
  obtain ⟨sound, described⟩ := (intervals_ok_iff _ _ _).mp returned
  intro interval member
  obtain ⟨_, _, event, _, _, found, _, _, _, _, start, _⟩ :=
    forall₂_exists described.flip interval member
  rw [start]
  exact sound.finite event (List.mem_of_getElem? found)

/-- Intervals name their counter, so nothing is lost where the name is kept elsewhere. -/
theorem map_track_intervals (returned : counter.intervals palette = .ok intervals) :
    (intervals.map fun interval => { interval with track := counter.name }) = intervals := by
  obtain ⟨_, described⟩ := (intervals_ok_iff _ _ _).mp returned
  have named : ∀ interval ∈ intervals, { interval with track := counter.name } = interval := by
    intro interval member
    obtain ⟨_, _, _, _, _, _, _, _, _, track, _⟩ := forall₂_exists described.flip interval member
    rw [← track]
  rw [List.map_congr_left named, List.map_id']

end Counter

namespace Timeline

variable {counters : List (Counter Binary64)} {timeline : Timeline Binary64}

theorem representable_series (built : ofCounters .standard counters = .ok timeline)
    (finite : ∀ interval ∈ timeline.intervals, interval.duration.isFinite = true) :
    ∀ series ∈ timeline.series, series.Representable := by
  obtain ⟨_, rows⟩ := (ofCounters_ok_iff _ _ _).mp built
  intro series member
  obtain ⟨track, listed, rfl⟩ := List.mem_map.mp member
  obtain ⟨counter, _, _, returned⟩ := forall₂_exists rows.flip track listed
  refine Series.numbers_ofTrack rfl fun interval included => ⟨?_, ?_⟩
  · exact Counter.start_finite returned interval included
  · exact finite interval (List.mem_flatMap.mpr ⟨track, listed, included⟩)

theorem isShort_series {timeline : Timeline Binary64}
    (short : ∀ interval ∈ timeline.intervals, interval.start.IsShort ∧ interval.duration.IsShort) :
    ∀ series ∈ timeline.series, series.IsShort := by
  intro series member
  obtain ⟨track, listed, rfl⟩ := List.mem_map.mp member
  exact Series.numbers_ofTrack Binary64.isShort_zero fun interval included =>
    short interval (List.mem_flatMap.mpr ⟨track, listed, included⟩)

/-- Each counter has a series of its name, which holds the intervals that the counter has. -/
theorem intervals?_series (built : ofCounters .standard counters = .ok timeline) :
    List.Forall₂ (fun counter series => series.track = counter.name ∧
      ∃ intervals, counter.intervals .standard = .ok intervals ∧
        series.intervals? = some intervals) counters timeline.series := by
  obtain ⟨_, rows⟩ := (ofCounters_ok_iff _ _ _).mp built
  rw [series, List.forall₂_map_right_iff]
  apply rows.imp
  rintro counter track ⟨named, returned⟩
  refine ⟨by rw [Series.track_ofTrack, named], track.intervals, returned, ?_⟩
  rw [Series.intervals?_ofTrack, named, Counter.map_track_intervals returned]

end Timeline

namespace CommandLine

open Codec

theorem run_of_export {arguments : List String} {directory : Directory} {options : Options}
    {counters : List (Counter Binary64)} {timeline : Timeline Binary64}
    (requested : Request.ofArguments arguments = .ok (.chart options))
    (exported : options.output = .json)
    (holds : directory.Holds options.input counters timeline) :
    (run arguments directory).exit = exitSuccess ∧
      (run arguments directory).stdout = Plan.jsonText timeline ∧
      (run arguments directory).directory = directory := by
  rw [run_of_chart requested, Plan.perform, Plan.ending_of_holds holds, Plan.endingOf, exported]
  exact ⟨rfl, rfl, rfl⟩

/-- Where no duration is out of range, an export prints one document and a line break, and reading
what it prints gives the series of the timeline. They have the names that the trace has, in its
order, and each gives all the intervals of its counter. That is so if numerals are read as the
numbers nearest to them. If digits are rounded first, reading gives the same series with other
numbers, of which every one is finite, and one that is written with few digits is what it was. -/
theorem series_of_export {arguments : List String} {directory : Directory} {options : Options}
    {content : List UInt8} {counters : List (Counter Binary64)} {timeline : Timeline Binary64}
    (requested : Request.ofArguments arguments = .ok (.chart options))
    (exported : options.output = .json)
    (read : directory.read options.input = .ok content)
    (parsed : readTrace .stepwise content = .ok counters)
    (built : Timeline.ofCounters .standard counters = .ok timeline)
    (finite : ∀ interval ∈ timeline.intervals, interval.duration.isFinite = true) :
    (run arguments directory).exit = exitSuccess ∧
    (∃ text, (run arguments directory).stdout = text ++ "\n" ∧
      read? .nearest text = some timeline.series ∧
      read? .stepwise text = some (timeline.series.map Series.reread)) ∧
    read? .nearest (run arguments directory).stdout = some timeline.series ∧
    read? .stepwise (run arguments directory).stdout =
      some (timeline.series.map Series.reread) ∧
    (∀ series ∈ timeline.series, series.reread.Representable) ∧
    ((∀ interval ∈ timeline.intervals, interval.start.IsShort ∧ interval.duration.IsShort) →
      read? .stepwise (run arguments directory).stdout = some timeline.series) ∧
    (∃ drafts, TraceDocument .stepwise drafts content ∧
      timeline.series.map Series.track = drafts.map Prod.fst) ∧
    List.Forall₂ (fun counter series => series.track = counter.name ∧
      ∃ intervals, counter.intervals .standard = .ok intervals ∧
        series.intervals? = some intervals ∧
        series.reread.intervals? = some (intervals.map Interval.reread)) counters
      timeline.series := by
  obtain ⟨exit, stdout, _⟩ :=
    run_of_export requested exported ⟨⟨content, read, parsed⟩, built⟩
  have representable := Timeline.representable_series built finite
  obtain ⟨alone, ended⟩ := read?_pretty (δ := List (Series Binary64)) representable 0
  obtain ⟨aloneAgain, endedAgain⟩ := read?_pretty_series representable 0
  have restored := Timeline.intervals?_series built
  have names : timeline.series.map Series.track = counters.map Counter.name := by
    rw [← List.forall₂_eq_eq_eq, List.forall₂_map_left_iff, List.forall₂_map_right_iff]
    exact restored.flip.imp fun _ _ held => held.1
  obtain ⟨drafts, document, order⟩ := exists_document parsed
  rw [stdout]
  refine ⟨exit, ⟨_, rfl, alone, aloneAgain⟩, ended, endedAgain, ?regular, ?short,
    ⟨drafts, document, names.trans order⟩, ?intervals⟩
  case regular => exact fun series member => (representable series member).reread
  case short =>
    intro short
    have same : timeline.series.map Series.reread = timeline.series :=
      (List.map_congr_left fun series member =>
        (Timeline.isShort_series short series member).reread_eq).trans timeline.series.map_id
    exact endedAgain.trans (congrArg some same)
  case intervals =>
    refine restored.imp fun counter series => ?_
    rintro ⟨named, intervals, returned, held⟩
    exact ⟨named, intervals, returned, held, Series.intervals?_reread held⟩

/-- A track whose name has a control character, a quotation mark and a letter that is not ASCII, and
a track without intervals. -/
theorem series_of_quoted_names :
    let content := ("\x7b\"\\u0001\\\"é\": [3, [[2, 1.5], [1, 2.0]]], " ++
      "\"<x>\": \x7b\"counter type\": 0\x7d\x7d").toUTF8.toList
    let directory : Directory := ⟨[(["t.json"], content)]⟩
    let arguments := ["--export-json", "-i", "t.json"]
    let counters : List (Counter Binary64) :=
      [⟨"\x01\"é", .computeUnit, [⟨1.5, 2⟩, ⟨2.0, 1⟩]⟩, ⟨"<x>", .system, []⟩]
    let timeline : Timeline Binary64 :=
      ⟨[⟨"\x01\"é", [⟨"\x01\"é", 1.5, 0.5, "CU_EXECUTION", "darkviolet"⟩]⟩, ⟨"<x>", []⟩]⟩
    Request.ofArguments arguments = .ok (.chart ⟨"t.json", .json, 1200.0, false, 0⟩) ∧
    directory.read "t.json" = .ok content ∧ readTrace .stepwise content = .ok counters ∧
    Timeline.ofCounters .standard counters = .ok timeline ∧
    (∀ interval ∈ timeline.intervals, interval.duration.isFinite = true) ∧
    (∀ interval ∈ timeline.intervals, interval.start.IsShort ∧ interval.duration.IsShort) ∧
    read? .nearest (run arguments directory).stdout = some timeline.series ∧
    read? .stepwise (run arguments directory).stdout = some timeline.series := by
  intro content directory arguments counters timeline
  have requested : Request.ofArguments arguments =
      .ok (.chart ⟨"t.json", .json, 1200.0, false, 0⟩) := by decide +kernel
  have read : directory.read "t.json" = .ok content := by
    rw [Directory.read, show "t.json".splitOn "/" = ["t.json"] by
      simp +decide [String.splitOn, String.splitOnAux]]
    decide +kernel
  have parsed : readTrace .stepwise content = .ok counters := by decide +kernel
  have built : Timeline.ofCounters .standard counters = .ok timeline := by decide +kernel
  have finite : ∀ interval ∈ timeline.intervals, interval.duration.isFinite = true := by
    decide +kernel
  have short : ∀ interval ∈ timeline.intervals,
      interval.start.IsShort ∧ interval.duration.IsShort := by
    decide +kernel
  obtain ⟨_, _, restored, _, _, kept, _⟩ :=
    series_of_export requested rfl read parsed built finite
  exact ⟨requested, read, parsed, built, finite, short, restored, kept short⟩

/-- The difference of 0.3 and 0.1 is written with seventeen digits. Rounded first, they make it two
tenths, which is the number above it. -/
theorem series_of_long_difference :
    let content := "\x7b\"A\":[3,[[2,0.1],[1,0.3]]]\x7d".toUTF8.toList
    let directory : Directory := ⟨[(["t.json"], content)]⟩
    let arguments := ["--export-json", "-i", "t.json"]
    let counters : List (Counter Binary64) := [⟨"A", .computeUnit, [⟨0.1, 2⟩, ⟨0.3, 1⟩]⟩]
    let timeline : Timeline Binary64 :=
      ⟨[⟨"A", [⟨"A", 0.1, 0.19999999999999998, "CU_EXECUTION", "darkviolet"⟩]⟩]⟩
    let series : Series Binary64 := ⟨"A", [0.2], ["A"], [0.1],
      ["CU_EXECUTION [0.19999999999999998 s]"], ["CU_EXECUTION"], [some "darkviolet"], false⟩
    Request.ofArguments arguments = .ok (.chart ⟨"t.json", .json, 1200.0, false, 0⟩) ∧
    directory.read "t.json" = .ok content ∧ readTrace .stepwise content = .ok counters ∧
    Timeline.ofCounters .standard counters = .ok timeline ∧
    (∀ interval ∈ timeline.intervals, interval.duration.isFinite = true) ∧
    read? .stepwise (run arguments directory).stdout = some [series] ∧
    [series] ≠ timeline.series := by
  intro content directory arguments counters timeline series
  have requested : Request.ofArguments arguments =
      .ok (.chart ⟨"t.json", .json, 1200.0, false, 0⟩) := by decide +kernel
  have read : directory.read "t.json" = .ok content := by
    rw [Directory.read, show "t.json".splitOn "/" = ["t.json"] by
      simp +decide [String.splitOn, String.splitOnAux]]
    decide +kernel
  have parsed : readTrace .stepwise content = .ok counters := by decide +kernel
  have built : Timeline.ofCounters .standard counters = .ok timeline := by decide +kernel
  have finite : ∀ interval ∈ timeline.intervals, interval.duration.isFinite = true := by
    decide +kernel
  have reread : timeline.series.map Series.reread = [series] := by decide +kernel
  obtain ⟨_, stdout, _⟩ := run_of_export requested rfl ⟨⟨content, read, parsed⟩, built⟩
  have ended := (read?_pretty_series (Timeline.representable_series built finite) 0).2
  refine ⟨requested, read, parsed, built, finite, ?_, by decide +kernel⟩
  rw [stdout, ← reread]
  exact ended

end CommandLine

end TraceChart
