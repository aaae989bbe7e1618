import TraceChart.Number.Reading

/-!
Options of the command line. Arguments are taken one at a time from the left. An option with a
value takes it from the same argument or from the next one; short options without value may stand
together. Every option but the one for verbosity may be given once.
-/

namespace TraceChart.CommandLine

inductive OptionName where
  | input
  | svg
  | width
  | dark
  | exportJson
  | verbose
  | help
  | version
deriving DecidableEq, Repr

namespace OptionName

def all : List OptionName :=
  [.input, .svg, .width, .dark, .exportJson, .verbose, .help, .version]

def long : OptionName → String
  | .input => "input"
  | .svg => "svg"
  | .width => "width"
  | .dark => "dark"
  | .exportJson => "export-json"
  | .verbose => "verbose"
  | .help => "help"
  | .version => "version"

def short? : OptionName → Option Char
  | .input => some 'i'
  | .verbose => some 'v'
  | .help => some 'h'
  | .version => some 'V'
  | _ => none

def ofLong? (name : String) : Option OptionName :=
  all.find? fun option => option.long == name

def ofShort? (letter : Char) : Option OptionName :=
  all.find? fun option => option.short? == some letter

end OptionName

inductive UsageError where
  | unknown (argument : String)
  | missingValue (option : OptionName)
  | unexpectedValue (option : OptionName)
  | repeated (option : OptionName)
  | invalidValue (option : OptionName) (value : String)
  | missingInput
  | conflict (first second : OptionName)
deriving DecidableEq, Repr

def UsageError.message : UsageError → String
  | .unknown argument => s!"unexpected argument {argument}"
  | .missingValue option => s!"--{option.long} needs a value"
  | .unexpectedValue option => s!"--{option.long} takes no value"
  | .repeated option => s!"--{option.long} is given more than once"
  | .invalidValue option value => s!"--{option.long} cannot be {value}"
  | .missingInput => "--input is missing"
  | .conflict first second => s!"--{first.long} cannot be used with --{second.long}"

inductive Output where
  | svg (path : String)
  | json
  | viewer
deriving DecidableEq, Repr

structure Options where
  input : String
  output : Output
  /-- The width of an SVG drawing in pixels. -/
  width : Binary64
  dark : Bool
  verbosity : Nat
deriving DecidableEq

inductive Request where
  | help
  | version
  | chart (options : Options)
deriving DecidableEq

structure Draft where
  input : Option String := none
  svg : Option String := none
  width : Option Binary64 := none
  dark : Bool := false
  exportJson : Bool := false
  verbosity : Nat := 0
deriving DecidableEq

namespace Draft

/-- A path has at least one character. -/
def checkPath (option : OptionName) (value : String) : Except UsageError String :=
  if value = "" then .error (.invalidValue option value) else .ok value

def assign (draft : Draft) (option : OptionName) (value : String) : Except UsageError Draft :=
  match option with
  | .input => do
    if draft.input.isSome then throw (.repeated option)
    let path ← checkPath option value
    pure { draft with input := some path }
  | .svg => do
    if draft.svg.isSome then throw (.repeated option)
    let path ← checkPath option value
    pure { draft with svg := some path }
  | .width => do
    if draft.width.isSome then throw (.repeated option)
    match readBinary64? value.toList with
    | some width => pure { draft with width := some width }
    | none => throw (.invalidValue option value)
  | _ => .error (.unexpectedValue option)

def standardWidth : Binary64 := 1200.0

def finish (draft : Draft) : Except UsageError Request :=
  match draft.input with
  | none => .error .missingInput
  | some input =>
    let chart (output : Output) : Request :=
      .chart ⟨input, output, draft.width.getD standardWidth, draft.dark, draft.verbosity⟩
    match draft.svg, draft.exportJson with
    | some _, true => .error (.conflict .svg .exportJson)
    | some path, false => .ok (chart (.svg path))
    | none, true => .ok (chart .json)
    | none, false => .ok (chart .viewer)

end Draft

inductive State where
  | ready (draft : Draft)
  /-- The next argument must be a value. -/
  | awaitValue (draft : Draft) (option : OptionName)
  /-- No more options may come. -/
  | closed (draft : Draft)
  /-- The rest does not matter. -/
  | settled (request : Request)
deriving DecidableEq

inductive Argument where
  | plain
  /-- Two hyphens, which end the options. -/
  | close
  | long (name : String) (value : Option String)
  | short (letters : List Char)
deriving DecidableEq, Repr

/-- The shape of an argument. A lone hyphen is plain. -/
def Argument.ofList : List Char → Argument
  | ['-', '-'] => .close
  | '-' :: '-' :: text =>
    let name := String.ofList (text.takeWhile fun char => char != '=')
    match text.dropWhile fun char => char != '=' with
    | [] => .long name none
    | _ :: value => .long name (some (String.ofList value))
  | '-' :: letter :: letters => .short (letter :: letters)
  | _ => .plain

namespace State

def raise (draft : Draft) : OptionName → Except UsageError State
  | .dark =>
    if draft.dark then .error (.repeated .dark) else .ok (.ready { draft with dark := true })
  | .exportJson =>
    if draft.exportJson then .error (.repeated .exportJson)
    else .ok (.ready { draft with exportJson := true })
  | .verbose => .ok (.ready { draft with verbosity := draft.verbosity + 1 })
  | .help => .ok (.settled .help)
  | .version => .ok (.settled .version)
  | option => .ok (.awaitValue draft option)

def assign (draft : Draft) (option : OptionName) (value : String) : Except UsageError State := do
  let draft ← draft.assign option value
  pure (.ready draft)

/-- Take the letters of short options. What follows an option with a value is its value, after an
equals sign or at once. -/
def takeLetters (state : State) : List Char → Except UsageError State
  | [] => .ok state
  | letter :: letters =>
    match state with
    | .ready draft =>
      match OptionName.ofShort? letter with
      | none => .error (.unknown (String.ofList ['-', letter]))
      | some option => do
        let next ← raise draft option
        takeLetters next letters
    | .awaitValue draft option =>
      assign draft option (String.ofList (if letter = '=' then letters else letter :: letters))
    | other => .ok other

def take (state : State) (argument : String) : Except UsageError State :=
  match state, Argument.ofList argument.toList with
  | .settled request, _ => .ok (.settled request)
  | .closed _, _ => .error (.unknown argument)
  | .awaitValue draft option, .plain => assign draft option argument
  | .awaitValue _ option, _ => .error (.missingValue option)
  | .ready draft, .close => .ok (.closed draft)
  | .ready _, .plain => .error (.unknown argument)
  | .ready draft, .short letters => takeLetters (.ready draft) letters
  | .ready draft, .long name value =>
    match OptionName.ofLong? name, value with
    | none, _ => .error (.unknown argument)
    | some option, none => raise draft option
    | some option, some value => assign draft option value

def finish : State → Except UsageError Request
  | .ready draft => draft.finish
  | .closed draft => draft.finish
  | .awaitValue _ option => .error (.missingValue option)
  | .settled request => .ok request

end State

def Request.ofArguments (arguments : List String) : Except UsageError Request := do
  let state ← arguments.foldlM State.take (.ready {})
  state.finish

end TraceChart.CommandLine
