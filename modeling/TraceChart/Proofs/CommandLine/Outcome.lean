import TraceChart.Proofs.CommandLine.Directory
import TraceChart.Proofs.CommandLine.Plan
import TraceChart.Proofs.Record.Restoring
import TraceChart.Proofs.Trace.Order

/-!
# All or nothing

A run that draws or exports puts out everything or nothing. It looks at all that its input holds
before it puts anything out, so a defect of one track leaves no trace of the others, wherever that
track stands. There are four reasons for a failure. A drawing that asks a label for more decimal
places than there are ends in a breach instead, before its file is touched.
-/

namespace TraceChart.CommandLine

namespace Outcome

/-- The file under a path has been replaced by a text, and nothing else has changed. -/
def Replaced (before after : Directory) (path text : String) : Prop :=
  after.read path = .ok text.toUTF8.toList ∧ ∃ place, before.target path = .ok place ∧
    after.content? place = some text.toUTF8.toList ∧
    ∀ other, other ≠ place → after.content? other = before.content? other

/-- How a run ends that draws or exports. -/
structure AllOrNothing (directory : Directory) (options : Options) (outcome : Outcome) :
    Prop where
  ended : outcome.exit = exitSuccess ∨ outcome.exit = exitFailure ∨ outcome.exit = exitAbort
  failed_iff : outcome.exit = exitFailure ↔
    (∃ failure, directory.Lacks options.input failure) ∨
    ∃ counters timeline path text error, directory.Holds options.input counters timeline ∧
      options.output = .svg path ∧ Plan.svgText options timeline = .ok text ∧
      ∀ content, directory.write path content = .error error
  aborted_iff : outcome.exit = exitAbort ↔
    ∃ counters timeline path fault, directory.Holds options.input counters timeline ∧
      options.output = .svg path ∧ Plan.svgText options timeline = .error fault
  nothing : outcome.exit ≠ exitSuccess → outcome.stdout = "" ∧ outcome.directory = directory
  drawn : ∀ path, options.output = .svg path → outcome.exit = exitSuccess →
    outcome.stdout = "" ∧ ∃ counters timeline text,
      directory.Holds options.input counters timeline ∧
      Plan.svgText options timeline = .ok text ∧ Replaced directory outcome.directory path text
  exported : options.output = .json → outcome.exit = exitSuccess →
    outcome.directory = directory ∧ ∃ counters timeline,
      directory.Holds options.input counters timeline ∧
      outcome.stdout = (Codec.encode timeline.series).pretty 0 ++ "\n" ∧
      Json.Value.ofString? outcome.stdout = some (.array (timeline.series.map Codec.encode))

end Outcome

namespace Directory

variable {directory : Directory} {path : String} {counters : List (Counter Binary64)}
  {timeline : Timeline Binary64}

theorem Holds.not_lacks (holds : directory.Holds path counters timeline) (failure : Failure) :
    ¬directory.Lacks path failure := by
  obtain ⟨⟨content, read, parsed⟩, built⟩ := holds
  intro lacks
  cases lacks with
  | unreadable refused => cases read.symm.trans refused
  | malformed readAgain refused =>
    cases read.symm.trans readAgain
    cases parsed.symm.trans refused
  | unplottable readAgain parsedAgain refused =>
    cases read.symm.trans readAgain
    cases parsed.symm.trans parsedAgain
    cases built.symm.trans refused

/-- Every draft of a document that leads to a timeline resolves to a counter with intervals. -/
theorem Holds.resolved (holds : directory.Holds path counters timeline) {content : List UInt8}
    {drafts : Roster String DraftCounter} (read : directory.read path = .ok content)
    (document : TraceDocument .stepwise drafts content) :
    ∀ entry ∈ drafts, ∃ counter intervals, entry.2.resolve entry.1 = .ok counter ∧
      counter.intervals .standard = .ok intervals := by
  obtain ⟨⟨bytes, readAgain, parsed⟩, built⟩ := holds
  cases read.symm.trans readAgain
  rw [readTrace_of_document document, mapM_ok_iff] at parsed
  intro entry listed
  obtain ⟨counter, member, resolved⟩ := forall₂_exists parsed entry listed
  obtain ⟨intervals, returned⟩ :=
    ((Timeline.exists_ofCounters_iff _ _).mp ⟨timeline, built⟩).2 counter member
  exact ⟨counter, intervals, resolved, returned⟩

end Directory

namespace Outcome

/-! ### The five ways to end -/

variable {directory : Directory} {options : Options} {counters : List (Counter Binary64)}
  {timeline : Timeline Binary64} {path text : String}

theorem allOrNothing_of_lacks {failure : Failure}
    (lacks : directory.Lacks options.input failure) (log : String) :
    AllOrNothing directory options ⟨exitFailure, "", log, directory⟩ where
  ended := .inr (.inl rfl)
  failed_iff := iff_of_true rfl (.inl ⟨failure, lacks⟩)
  aborted_iff := iff_of_false nofun fun ⟨_, _, _, _, holds, _⟩ => holds.not_lacks failure lacks
  nothing _ := ⟨rfl, rfl⟩
  drawn _ _ := nofun
  exported _ := nofun

theorem allOrNothing_of_json (holds : directory.Holds options.input counters timeline)
    (json : options.output = .json) (log : String) :
    AllOrNothing directory options ⟨exitSuccess, Plan.jsonText timeline, log, directory⟩ where
  ended := .inl rfl
  failed_iff := by
    refine iff_of_false nofun ?_
    rintro (⟨failure, lacks⟩ | ⟨_, _, _, _, _, _, svg, _⟩)
    · exact holds.not_lacks failure lacks
    · cases json.symm.trans svg
  aborted_iff := by
    refine iff_of_false nofun ?_
    rintro ⟨_, _, _, _, _, svg, _⟩
    cases json.symm.trans svg
  nothing := nofun
  drawn path svg := by cases json.symm.trans svg
  exported _ _ := ⟨rfl, counters, timeline, holds, rfl,
    (Json.ofString?_pretty (Codec.Lawful.writable timeline.series) 0).2⟩

theorem allOrNothing_of_fault (holds : directory.Holds options.input counters timeline)
    (svg : options.output = .svg path) {fault : Fault}
    (broken : Plan.svgText options timeline = .error fault) (log : String) :
    AllOrNothing directory options ⟨exitAbort, "", log, directory⟩ where
  ended := .inr (.inr rfl)
  failed_iff := by
    refine iff_of_false nofun ?_
    rintro (⟨failure, lacks⟩ | ⟨_, _, _, _, _, again, _, drawn, _⟩)
    · exact holds.not_lacks failure lacks
    · obtain ⟨rfl, rfl⟩ := holds.unique again
      cases broken.symm.trans drawn
  aborted_iff := iff_of_true rfl ⟨counters, timeline, path, fault, holds, svg, broken⟩
  nothing _ := ⟨rfl, rfl⟩
  drawn _ _ := nofun
  exported _ := nofun

theorem allOrNothing_of_unwritable (holds : directory.Holds options.input counters timeline)
    (svg : options.output = .svg path) (drawn : Plan.svgText options timeline = .ok text)
    {error : FileError} (refused : directory.target path = .error error) (log : String) :
    AllOrNothing directory options ⟨exitFailure, "", log, directory⟩ where
  ended := .inr (.inl rfl)
  failed_iff := iff_of_true rfl (.inr ⟨counters, timeline, path, text, error, holds, svg, drawn,
    fun content => (Directory.write_error_iff path content error).mpr refused⟩)
  aborted_iff := by
    refine iff_of_false nofun ?_
    rintro ⟨_, _, _, _, again, _, broken⟩
    obtain ⟨rfl, rfl⟩ := holds.unique again
    cases drawn.symm.trans broken
  nothing _ := ⟨rfl, rfl⟩
  drawn _ _ := nofun
  exported _ := nofun

theorem allOrNothing_of_written (holds : directory.Holds options.input counters timeline)
    (svg : options.output = .svg path) (drawn : Plan.svgText options timeline = .ok text)
    {written : Directory} (returned : directory.write path text.toUTF8.toList = .ok written)
    (log : String) : AllOrNothing directory options ⟨exitSuccess, "", log, written⟩ where
  ended := .inl rfl
  failed_iff := by
    refine iff_of_false nofun ?_
    rintro (⟨failure, lacks⟩ | ⟨_, _, _, _, _, _, other, _, refused⟩)
    · exact holds.not_lacks failure lacks
    · cases svg.symm.trans other
      cases returned.symm.trans (refused _)
  aborted_iff := by
    refine iff_of_false nofun ?_
    rintro ⟨_, _, _, _, again, _, broken⟩
    obtain ⟨rfl, rfl⟩ := holds.unique again
    cases drawn.symm.trans broken
  nothing := nofun
  drawn other same _ := by
    cases svg.symm.trans same
    exact ⟨rfl, counters, timeline, text, holds, drawn, Directory.read_of_write returned⟩
  exported json := by cases svg.symm.trans json

end Outcome

theorem allOrNothing_run {arguments : List String} {options : Options}
    (requested : Request.ofArguments arguments = .ok (.chart options))
    (unattended : options.output ≠ .viewer) (directory : Directory) :
    Outcome.AllOrNothing directory options (run arguments directory) := by
  rw [run_of_chart requested, Plan.perform]
  rcases directory.holds_or_lacks options.input with ⟨counters, timeline, holds⟩ | ⟨failure, lacks⟩
  · rw [Plan.ending_of_holds holds, Plan.endingOf]
    cases output : options.output with
    | viewer => exact absurd output unattended
    | json => exact Outcome.allOrNothing_of_json holds output _
    | svg path =>
      cases drawn : Plan.svgText options timeline with
      | error fault => exact Outcome.allOrNothing_of_fault holds output drawn _
      | ok text =>
        dsimp only
        cases returned : directory.write path text.toUTF8.toList with
        | error error =>
          rw [Directory.write_error_iff] at returned
          exact Outcome.allOrNothing_of_unwritable holds output drawn returned _
        | ok written => exact Outcome.allOrNothing_of_written holds output drawn returned _
  · rw [Plan.ending_of_lacks lacks]
    exact Outcome.allOrNothing_of_lacks lacks _

/-- A run that draws or exports puts out everything or nothing: all tracks of the timeline, which
are all counters of the input, and nothing where one track of its input is at fault, be it that its
codes cannot be read or that its events give no intervals. -/
theorem outcome_of_run {arguments : List String} {options : Options}
    (requested : Request.ofArguments arguments = .ok (.chart options))
    (unattended : options.output ≠ .viewer) (directory : Directory) :
    Outcome.AllOrNothing directory options (run arguments directory) ∧
    (∀ counters timeline, directory.Holds options.input counters timeline →
      List.Forall₂ (fun counter track => track.name = counter.name ∧
        counter.intervals .standard = .ok track.intervals) counters timeline.tracks ∧
      (counters.length < rowLimit → ∀ text, Plan.svgText options timeline = .ok text →
        ∃ commands rows ruler, Chart.Parts timeline.tracks commands rows ruler ∧
          text = Svg.document (if options.dark then .dark else .light) options.width
            (Chart.height timeline.series.length) commands)) ∧
    ∀ content drafts, directory.read options.input = .ok content →
      TraceDocument .stepwise drafts content →
      (∃ entry ∈ drafts, ∀ counter intervals, entry.2.resolve entry.1 = .ok counter →
        counter.intervals .standard ≠ .ok intervals) →
      (run arguments directory).exit = exitFailure ∧ (run arguments directory).stdout = "" ∧
        (run arguments directory).directory = directory := by
  have settled := allOrNothing_run requested unattended directory
  refine ⟨settled, ?_, ?_⟩
  · intro counters timeline holds
    obtain ⟨-, each⟩ := (Timeline.ofCounters_ok_iff _ _ _).mp holds.built
    exact ⟨each, fun small text drawn => Plan.parts_of_svgText (each.length_eq ▸ small) drawn⟩
  · rintro content drafts read document ⟨entry, listed, fault⟩
    -- An input that leads to a timeline has no such track.
    rcases directory.holds_or_lacks options.input with ⟨counters, timeline, holds⟩ | lacks
    · obtain ⟨counter, intervals, resolved, returned⟩ := holds.resolved read document entry listed
      exact absurd returned (fault counter intervals resolved)
    · have failed := settled.failed_iff.mpr (.inl lacks)
      exact ⟨failed, settled.nothing (by rw [failed]; decide)⟩

/-- A drawing is to replace its own input, whose last track has an event of no known kind. -/
theorem outcome_of_bad_last_track :
    let content := "\x7b\"A\": [3, [[2, 0], [1, 1]]], \"B\": [3, [[9, 0]]]\x7d".toUTF8.toList
    let directory : Directory := ⟨[(["t.json"], content)]⟩
    let arguments := ["-i", "t.json", "--svg", "t.json"]
    let options : Options := ⟨"t.json", .svg "t.json", 1200.0, false, 0⟩
    Request.ofArguments arguments = .ok (.chart options) ∧ options.output ≠ .viewer ∧
    (run arguments directory).exit = exitFailure ∧ (run arguments directory).stdout = "" ∧
      (run arguments directory).directory = directory := by
  intro content directory arguments options
  have requested : Request.ofArguments arguments = .ok (.chart options) := by decide +kernel
  have read : directory.read "t.json" = .ok content := by
    rw [Directory.read, show "t.json".splitOn "/" = ["t.json"] by
      simp +decide [String.splitOn, String.splitOnAux]]
    decide +kernel
  have parsed : readTrace .stepwise content = .ok [⟨"A", .computeUnit, [⟨0.0, 2⟩, ⟨1.0, 1⟩]⟩,
      ⟨"B", .computeUnit, [⟨0.0, 9⟩]⟩] := by decide +kernel
  have unattended : options.output ≠ .viewer := by simp [options]
  obtain ⟨settled, -, -⟩ := outcome_of_run requested unattended directory
  have failed := settled.failed_iff.mpr (.inl ⟨.unplottable "t.json" (.unknownEvent .computeUnit 9),
    .unplottable read parsed (by decide +kernel)⟩)
  exact ⟨requested, unattended, failed, settled.nothing (by rw [failed]; decide)⟩

/-- The only step of a ruler over so short a time is zero, whose label would need endlessly many
decimal places. A file that cannot be written is not even tried. -/
theorem outcome_of_endless_label :
    let content := "\x7b\"A\": [3, [[2, 0], [1, 1e-323]]]\x7d".toUTF8.toList
    let directory : Directory := ⟨[(["t.json"], content)]⟩
    let arguments := ["-i", "t.json", "--svg", "missing/o.svg"]
    Request.ofArguments arguments =
      .ok (.chart ⟨"t.json", .svg "missing/o.svg", 1200.0, false, 0⟩) ∧
    (∀ bytes, directory.write "missing/o.svg" bytes = .error .notFound) ∧
    (run arguments directory).exit = exitAbort ∧ (run arguments directory).exit ≠ exitFailure := by
  intro content directory arguments
  have requested : Request.ofArguments arguments =
      .ok (.chart ⟨"t.json", .svg "missing/o.svg", 1200.0, false, 0⟩) := by decide +kernel
  have read : directory.read "t.json" = .ok content := by
    rw [Directory.read, show "t.json".splitOn "/" = ["t.json"] by
      simp +decide [String.splitOn, String.splitOnAux]]
    decide +kernel
  have refused : directory.target "missing/o.svg" = .error .notFound := by
    rw [Directory.target, show "missing/o.svg".splitOn "/" = ["missing", "o.svg"] by
      simp +decide [String.splitOn, String.splitOnAux]]
    decide +kernel
  have holds : directory.Holds "t.json" [⟨"A", .computeUnit, [⟨0.0, 2⟩, ⟨1e-323, 1⟩]⟩]
      ⟨[⟨"A", [⟨"A", 0.0, 1e-323, "CU_EXECUTION", "darkviolet"⟩]⟩]⟩ :=
    ⟨⟨content, read, by decide +kernel⟩, by decide +kernel⟩
  have aborted := (allOrNothing_run requested (by simp) directory).aborted_iff.mpr
    ⟨_, _, "missing/o.svg", .tooManyPlaces, holds, rfl, by decide +kernel⟩
  refine ⟨requested, fun bytes => ?_, aborted, by rw [aborted]; decide⟩
  exact (Directory.write_error_iff _ _ _).mpr refused

end TraceChart.CommandLine
