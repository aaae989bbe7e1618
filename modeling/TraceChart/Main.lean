import TraceChart.CommandLine.Run
import TraceChart.Terminal.Ansi
import TraceChart.Terminal.Frame

/-!
The program: carries out plans on real files, and shows the viewer on a terminal that hands over
its input line by line.
-/

namespace TraceChart.Program

open CommandLine Terminal

def fileError : IO.Error → FileError
  | .noFileOrDirectory .. => .notFound
  | .permissionDenied _ number reason => ⟨reason, number.toNat⟩
  | .inappropriateType _ number reason => ⟨reason, number.toNat⟩
  | .otherError number reason => ⟨reason, number.toNat⟩
  | error => ⟨error.toString, 0⟩

def readInput (path : String) : IO (Except FileError (List UInt8)) := do
  try
    let content ← IO.FS.readBinFile path
    return .ok content.toList
  catch error => return .error (fileError error)

def writeOutput (path content : String) : IO (Except FileError Unit) := do
  try
    IO.FS.writeFile path content
    return .ok ()
  catch error => return .error (fileError error)

def sizeOf (name : String) (standard : Nat) : IO Nat := do
  let value ← IO.getEnv name
  return (value.bind fun text => readNatural? text.toList).getD standard

/-- Show a viewer until its input ends or quits. -/
partial def serve (viewer : Viewer Binary64) (width height : Nat) : IO (Except Fault Unit) := do
  match viewer.frame width height with
  | .error fault => return .error fault
  | .ok screen =>
    IO.print screen.sequence
    (← IO.getStdout).flush
    let line ← (← IO.getStdin).getLine
    let inputs := Input.ofChars line.toList
    if line.isEmpty || inputs.any Input.quits then return .ok ()
    match viewer.takeAll height inputs with
    | .error fault => return .error fault
    | .ok next => serve next width height

def exit (code : Nat) : IO UInt32 :=
  return code.toUInt32

def abort (fault : Fault) : IO UInt32 := do
  IO.eprint (faultLine fault)
  exit exitAbort

def fail (failure : Failure) : IO UInt32 := do
  IO.eprint failure.line
  exit exitFailure

def perform (plan : Plan) (verbosity : Nat) : IO UInt32 := do
  IO.eprint (Report.log verbosity plan.reports)
  match plan.ending with
  | .fail failure => fail failure
  | .abort fault => abort fault
  | .print text => do
    IO.print text
    exit exitSuccess
  | .save path content tracks => do
    match ← writeOutput path content with
    | .error error => fail (.unwritable path error)
    | .ok () => do
      let report : Report Binary64 := .written tracks path
      IO.eprint (Report.log verbosity [report])
      exit exitSuccess
  | .view viewer => do
    if ← (← IO.getStdin).isTty then
      match ← serve viewer (← sizeOf "COLUMNS" 80) (← sizeOf "LINES" 24) with
      | .error fault => abort fault
      | .ok () => exit exitSuccess
    else fail .noTerminal

end TraceChart.Program

open TraceChart CommandLine in
def main (arguments : List String) : IO UInt32 := do
  match Request.ofArguments arguments with
  | .error error => do
    IO.eprint error.line
    Program.exit exitUsage
  | .ok .help => do
    IO.print helpText
    Program.exit exitSuccess
  | .ok .version => do
    IO.print versionText
    Program.exit exitSuccess
  | .ok (.chart options) => do
    let input ← Program.readInput options.input
    Program.perform (Plan.ofInput options input) options.verbosity
