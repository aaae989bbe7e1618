import TraceChart.Chart.Timeline
import TraceChart.Text.Steering

/-!
The log of a run: what is reported, in which order, and from which verbosity on.
-/

namespace TraceChart.CommandLine

inductive Level where
  | info
  | debug
  | trace
deriving DecidableEq, Repr

namespace Level

def label : Level → String
  | .info => "INFO "
  | .debug => "DEBUG"
  | .trace => "TRACE"

def verbosity : Level → Nat
  | .info => 1
  | .debug => 2
  | .trace => 3

end Level

inductive Report (α : Type) where
  | read (counters events : Nat)
  /-- A boundary marker, which opens no interval. -/
  | skipped (counter : String) (marker : String) (time : α)
  | counted (counter : Counter α) (intervals : Nat)
  | built (tracks intervals : Nat)
  | written (tracks : Nat) (path : String)
deriving DecidableEq, Repr

namespace Report

variable {α : Type}

def level : Report α → Level
  | .read .. => .info
  | .skipped .. => .trace
  | .counted .. => .debug
  | .built .. => .debug
  | .written .. => .info

def source : Report α → String
  | .read .. => "traceplot_core::parsers::trace"
  | .skipped .. => "traceplot_core::reconstruct"
  | .counted .. => "traceplot_core::reconstruct"
  | .built .. => "traceplot_core::pipeline"
  | .written .. => "traceplot"

def message [Scalar α] : Report α → String
  | .read counters events => s!"parsed {counters} counters, {events} events"
  | .skipped counter marker time =>
    s!"{counter}: skipping {marker} at {Scalar.plainText time} s"
  | .counted counter intervals =>
    s!"{counter.name} ({counter.category.name}): {counter.events.length} events -> " ++
      s!"{intervals} intervals"
  | .built tracks intervals => s!"timeline: {tracks} tracks, {intervals} intervals"
  | .written tracks path => s!"wrote {tracks} tracks to {path}"

/-- Further lines of a message are moved in by four blanks. -/
def indent (text : List Char) : List Char :=
  text.flatMap fun char => if char = '\n' then ['\n', ' ', ' ', ' ', ' '] else [char]

/-- A report as a line of the log, without what could steer a terminal. -/
def line [Scalar α] (report : Report α) : String :=
  let front := s!"[{report.level.label} {report.source}] "
  String.ofList (steady (front.toList ++ indent report.message.toList ++ ['\n']))

def isShown (verbosity : Nat) (report : Report α) : Bool :=
  decide (report.level.verbosity ≤ verbosity)

def log [Scalar α] (verbosity : Nat) (reports : List (Report α)) : String :=
  String.join ((reports.filter (isShown verbosity)).map line)

end Report

variable {α : Type}

/-- The boundary marker that an event stands for, if it is one. -/
def boundary? (counter : Counter α) (event : Event α) : Option Marker :=
  (counter.category.marker? event.code).filter Marker.boundary

/-- What there is to report of a counter with its intervals. The last event is never skipped, for
it could not open an interval. -/
def counterReports (counter : Counter α) (intervals : List (Interval α)) : List (Report α) :=
  let skipped := counter.events.dropLast.filterMap fun event =>
    (boundary? counter event).map fun marker => .skipped counter.name marker.name event.time
  skipped ++ [.counted counter intervals.length]

variable [Scalar α]

/-- The reports on counters up to the first that has no intervals to be drawn. -/
def countersReports (palette : Palette) : List (Counter α) → List (Report α)
  | [] => []
  | counter :: counters =>
    match counter.intervals palette with
    | .ok intervals => counterReports counter intervals ++ countersReports palette counters
    | .error _ => []

end TraceChart.CommandLine
