import TraceChart.CommandLine.Directory
import TraceChart.CommandLine.Log
import TraceChart.CommandLine.Options
import TraceChart.Record.Trace
import TraceChart.Svg.Chart
import TraceChart.Terminal.Viewer
import TraceChart.Trace.Document

/-!
Plans: what a run does once it has looked at its input. The whole trace is read and built before
anything is put out, so a plan that fails puts nothing out.
-/

namespace TraceChart.CommandLine

/-- Why a run puts nothing out. -/
inductive Failure where
  | unreadable (path : String) (error : FileError)
  | malformed (path : String) (problem : TraceProblem)
  | unplottable (path : String) (problem : Problem Binary64)
  | unwritable (path : String) (error : FileError)
  | noTerminal
deriving DecidableEq

/-- The texts of a problem of a trace, from the outermost cause inwards. -/
def causesOfTrace : TraceProblem → List String
  | .counter track problem => [TraceProblem.message (.counter track problem), problem.message]
  | problem => [problem.message]

namespace Failure

/-- The texts of a failure, from the outermost cause inwards. A text that tells its own cause is
followed by it all the same. -/
def causes : Failure → List String
  | .unreadable path error => [s!"cannot read {path}: {error.message}", error.message]
  | .malformed path problem => s!"{path}: {problem.message}" :: causesOfTrace problem
  | .unplottable path problem => [s!"cannot plot {path}", problem.message]
  | .unwritable path error => [s!"cannot write {path}", error.message]
  | .noTerminal => [FileError.noDevice.message]

def line (failure : Failure) : String :=
  "traceplot: " ++ ": ".intercalate failure.causes ++ "\n"

end Failure

/-- What remains to be done. -/
inductive Ending where
  | fail (failure : Failure)
  /-- A breach that a trace and its options can lead to. -/
  | abort (fault : Fault)
  | print (text : String)
  /-- Write a drawing of a number of tracks. -/
  | save (path content : String) (tracks : Nat)
  | view (viewer : Terminal.Viewer Binary64)
deriving DecidableEq

structure Plan where
  reports : List (Report Binary64)
  ending : Ending
deriving DecidableEq

namespace Plan

def jsonText (timeline : Timeline Binary64) : String :=
  (Codec.encode timeline.series).pretty 0 ++ "\n"

def svgText (options : Options) (timeline : Timeline Binary64) : Except Fault String :=
  timeline.svg (if options.dark then .dark else .light) options.width

def endingOf (options : Options) (timeline : Timeline Binary64) : Ending :=
  match options.output with
  | .json => .print (jsonText timeline)
  | .svg path =>
    match svgText options timeline with
    | .ok text => .save path text timeline.tracks.length
    | .error fault => .abort fault
  | .viewer =>
    let (start, finish) := timeline.window
    .view (.ofSeries timeline.series start finish)

def ofCounters (options : Options) (counters : List (Counter Binary64)) : Plan :=
  let events := counters.flatMap Counter.events
  let reports := .read counters.length events.length :: countersReports .standard counters
  match Timeline.ofCounters .standard counters with
  | .error problem => ⟨reports, .fail (.unplottable options.input problem)⟩
  | .ok timeline =>
    ⟨reports ++ [.built timeline.tracks.length timeline.intervalCount],
      endingOf options timeline⟩

def ofInput (options : Options) (input : Except FileError (List UInt8)) : Plan :=
  match input with
  | .error error => ⟨[], .fail (.unreadable options.input error)⟩
  | .ok content =>
    match readTrace .stepwise content with
    | .error problem => ⟨[], .fail (.malformed options.input problem)⟩
    | .ok counters => ofCounters options counters

end Plan

end TraceChart.CommandLine
