import TraceChart.CommandLine.Run
import TraceChart.Proofs.Chart.Assembly
import TraceChart.Proofs.Chart.Room

/-!
# What an input holds

A path leads to a timeline, or one thing is wrong with it: it cannot be read, it is no trace, or
its counters make up no timeline. Which of these it is settles how a plan ends, whatever the
options are.
-/

namespace TraceChart.CommandLine

/-- The file under a path is a trace of these counters, and they make up this timeline. -/
structure Directory.Holds (directory : Directory) (path : String)
    (counters : List (Counter Binary64)) (timeline : Timeline Binary64) : Prop where
  read : ∃ content, directory.read path = .ok content ∧ readTrace .stepwise content = .ok counters
  built : Timeline.ofCounters .standard counters = .ok timeline

/-- What is wrong with a path that leads to no timeline. -/
inductive Directory.Lacks (directory : Directory) (path : String) : Failure → Prop
  | unreadable {error : FileError} (refused : directory.read path = .error error) :
      directory.Lacks path (.unreadable path error)
  | malformed {content : List UInt8} {problem : TraceProblem}
      (read : directory.read path = .ok content)
      (refused : readTrace .stepwise content = .error problem) :
      directory.Lacks path (.malformed path problem)
  | unplottable {content : List UInt8} {counters : List (Counter Binary64)}
      {problem : Problem Binary64} (read : directory.read path = .ok content)
      (parsed : readTrace .stepwise content = .ok counters)
      (refused : Timeline.ofCounters .standard counters = .error problem) :
      directory.Lacks path (.unplottable path problem)

namespace Directory

variable {directory : Directory} {path : String} {counters : List (Counter Binary64)}
  {timeline : Timeline Binary64}

theorem holds_or_lacks (directory : Directory) (path : String) :
    (∃ counters timeline, directory.Holds path counters timeline) ∨
      ∃ failure, directory.Lacks path failure := by
  cases read : directory.read path with
  | error error => exact .inr ⟨_, .unreadable read⟩
  | ok content =>
    cases parsed : readTrace .stepwise content with
    | error problem => exact .inr ⟨_, .malformed read parsed⟩
    | ok counters =>
      cases built : Timeline.ofCounters .standard counters with
      | error problem => exact .inr ⟨_, .unplottable read parsed built⟩
      | ok timeline => exact .inl ⟨counters, timeline, ⟨content, read, parsed⟩, built⟩

/-- What a path leads to is one list of counters and one timeline. -/
theorem Holds.unique {other : List (Counter Binary64)} {next : Timeline Binary64}
    (holds : directory.Holds path counters timeline) (again : directory.Holds path other next) :
    other = counters ∧ next = timeline := by
  obtain ⟨⟨content, read, parsed⟩, built⟩ := holds
  obtain ⟨⟨bytes, readAgain, parsedAgain⟩, builtAgain⟩ := again
  cases read.symm.trans readAgain
  cases parsed.symm.trans parsedAgain
  cases built.symm.trans builtAgain
  exact ⟨rfl, rfl⟩

end Directory

namespace Plan

variable {directory : Directory} {options : Options}

theorem ending_of_lacks {failure : Failure} (lacks : directory.Lacks options.input failure) :
    (ofInput options (directory.read options.input)).ending = .fail failure := by
  cases lacks with
  | unreadable refused => simp only [ofInput, refused]
  | malformed read refused => simp only [ofInput, read, refused]
  | unplottable read parsed refused => simp only [ofInput, ofCounters, read, parsed, refused]

theorem ending_of_holds {counters : List (Counter Binary64)} {timeline : Timeline Binary64}
    (holds : directory.Holds options.input counters timeline) :
    (ofInput options (directory.read options.input)).ending = endingOf options timeline := by
  obtain ⟨⟨content, read, parsed⟩, built⟩ := holds
  simp only [ofInput, ofCounters, read, parsed, built]

/-- A drawing that is put out is the document of a row for each track. -/
theorem parts_of_svgText {timeline : Timeline Binary64} {text : String}
    (small : timeline.tracks.length < rowLimit) (drawn : svgText options timeline = .ok text) :
    ∃ commands rows ruler, Chart.Parts timeline.tracks commands rows ruler ∧
      text = Svg.document (if options.dark then .dark else .light) options.width
        (Chart.height timeline.series.length) commands := by
  obtain ⟨commands, drawing, rfl⟩ := (Timeline.svg_ok_iff _ _ _ _).mp drawn
  obtain ⟨rows, ruler, parts⟩ := Timeline.parts_of_tracks small drawing
  exact ⟨commands, rows, ruler, parts, rfl⟩

end Plan

theorem run_of_chart {arguments : List String} {options : Options}
    (requested : Request.ofArguments arguments = .ok (.chart options)) (directory : Directory) :
    run arguments directory = (Plan.ofInput options (directory.read options.input)).perform
      options.verbosity directory := by
  rw [run, requested]

end TraceChart.CommandLine
