import TraceChart.CommandLine.Plan

/-!
Runs of the program in a directory, without a terminal: from the arguments and the files to the
exit code, what is put out, and the files afterwards.
-/

namespace TraceChart.CommandLine

def versionText : String :=
  "traceplot 0.1.0\n"

def helpText : String :=
  "Plot counter traces as a Gantt-style timeline\n\n" ++
  "Usage: traceplot [OPTIONS] --input <FILE>\n\n" ++
  "Options:\n" ++
  "  -i, --input <FILE>   Trace file to plot\n" ++
  "      --svg <PATH>     Write the timeline as an SVG file instead of opening the viewer\n" ++
  "      --width <WIDTH>  SVG width in pixels [default: 1200]\n" ++
  "      --dark           Use the dark palette for SVG output\n" ++
  "      --export-json    Print the per-track bar series as JSON on stdout\n" ++
  "  -v, --verbose...     Raise log verbosity (-v info, -vv debug, -vvv trace)\n" ++
  "  -h, --help           Print help\n" ++
  "  -V, --version        Print version\n"

/-- The exit codes: all went well, the run failed, a breach, and a wrong command line. -/
def exitSuccess : Nat := 0
def exitFailure : Nat := 1
def exitUsage : Nat := 2
def exitAbort : Nat := 101

def UsageError.line (error : UsageError) : String :=
  s!"error: {error.message}\n"

def faultLine (fault : Fault) : String :=
  s!"traceplot: {fault.message}\n"

/-- What a run leaves behind. -/
structure Outcome where
  exit : Nat
  stdout : String
  stderr : String
  directory : Directory
deriving DecidableEq

namespace Plan

def perform (plan : Plan) (verbosity : Nat) (directory : Directory) : Outcome :=
  let log := Report.log verbosity plan.reports
  match plan.ending with
  | .fail failure => ⟨exitFailure, "", log ++ failure.line, directory⟩
  | .abort fault => ⟨exitAbort, "", log ++ faultLine fault, directory⟩
  | .print text => ⟨exitSuccess, text, log, directory⟩
  | .save path content tracks =>
    match directory.write path content.toUTF8.toList with
    | .error error =>
      ⟨exitFailure, "", log ++ (Failure.unwritable path error).line, directory⟩
    | .ok written =>
      let report : Report Binary64 := .written tracks path
      ⟨exitSuccess, "", log ++ Report.log verbosity [report], written⟩
  | .view _ => ⟨exitFailure, "", log ++ Failure.noTerminal.line, directory⟩

end Plan

def run (arguments : List String) (directory : Directory) : Outcome :=
  match Request.ofArguments arguments with
  | .error error => ⟨exitUsage, "", error.line, directory⟩
  | .ok .help => ⟨exitSuccess, helpText, "", directory⟩
  | .ok .version => ⟨exitSuccess, versionText, "", directory⟩
  | .ok (.chart options) =>
    (Plan.ofInput options (directory.read options.input)).perform options.verbosity directory

end TraceChart.CommandLine
