import TraceChart.Json.Fields
import TraceChart.Json.Reader
import TraceChart.Roster
import TraceChart.Trace.Code
import TraceChart.Trace.Counter
import TraceChart.Trace.Problem

/-!
Trace documents. A trace is a JSON object from track names to counters; the order of the names is
the order of the tracks. A name that comes again keeps its place and replaces its counter. The
shape of the whole document is settled before any code is looked at.
-/

namespace TraceChart

/-- An event whose code has not been looked at. -/
structure DraftEvent where
  code : Code
  time : Binary64
deriving DecidableEq

/-- A counter whose codes have not been looked at. -/
structure DraftCounter where
  category : Code
  events : List DraftEvent
deriving DecidableEq

/-- What is wrong with a document that gives no counters. -/
inductive TraceProblem where
  /-- It is no JSON, or JSON of another shape. -/
  | malformed
  /-- A code does not stand for an integer. -/
  | invalidCode (track field value : String)
  | counter (track : String) (problem : Problem Binary64)
deriving DecidableEq

def TraceProblem.message : TraceProblem → String
  | .malformed => "invalid JSON"
  | .invalidCode track field value =>
    s!"track {quoted track}: {field} {quoted value} is not an integer"
  | .counter track problem => s!"track {quoted track}: {problem.message}"

/-- A time is a number within the finite ones. -/
def timeOfJson? (convert : Conversion) : Json.Value → Option Binary64
  | .number numeral =>
    let value := convert numeral
    if value.isFinite then some value else none
  | _ => none

namespace DraftEvent

def ofJson? (convert : Conversion) (value : Json.Value) : Option DraftEvent := do
  match ← value.fields? ["type", "value"] with
  | [some code, some time] => do
    let code ← Code.ofJson? convert code
    let time ← timeOfJson? convert time
    pure ⟨code, time⟩
  | _ => none

end DraftEvent

def eventsOfJson? (convert : Conversion) : Json.Value → Option (List DraftEvent)
  | .array items => items.mapM (DraftEvent.ofJson? convert)
  | _ => none

namespace DraftCounter

/-- The fields of a counter. An array may leave out the events. -/
def fields? : Json.Value → Option (List (Option Json.Value))
  | .array [category] => some [some category, none]
  | value => value.fields? ["counter type", "events"]

/-- A counter may have no events. -/
def ofJson? (convert : Conversion) (value : Json.Value) : Option DraftCounter := do
  match ← fields? value with
  | [some category, events] => do
    let category ← Code.ofJson? convert category
    let events ← match events with
      | some events => eventsOfJson? convert events
      | none => pure []
    pure ⟨category, events⟩
  | _ => none

end DraftCounter

def entryOfJson? (convert : Conversion) (member : Json.Text × Json.Value) :
    Option (String × DraftCounter) := do
  let name ← member.1
  let counter ← DraftCounter.ofJson? convert member.2
  pure (name, counter)

/-- The counters of a document, each under its name. -/
def draftsOfJson? (convert : Conversion) : Json.Value → Option (Roster String DraftCounter)
  | .object members => do
    let entries ← members.mapM (entryOfJson? convert)
    pure (entries.foldl (fun roster (name, counter) => Roster.put name counter roster) [])
  | _ => none

/-- The integer of a code, or what is wrong with it. -/
def Code.resolve (track field : String) (code : Code) : Except TraceProblem Int :=
  match code.toInt? with
  | some value => .ok value
  | none => .error (.invalidCode track field code.describe)

def DraftEvent.resolve (track : String) (event : DraftEvent) :
    Except TraceProblem (Event Binary64) := do
  let code ← event.code.resolve track "event type"
  pure ⟨event.time, code⟩

/-- The counter of a draft: its category is looked at first, then its events in order. -/
def DraftCounter.resolve (track : String) (draft : DraftCounter) :
    Except TraceProblem (Counter Binary64) := do
  let code ← draft.category.resolve track "counter type"
  match Category.ofCode? code with
  | none => throw (.counter track (.unknownCategory code))
  | some category => do
    let events ← draft.events.mapM (DraftEvent.resolve track)
    pure ⟨track, category, events⟩

def countersOfJson (convert : Conversion) (value : Json.Value) :
    Except TraceProblem (List (Counter Binary64)) :=
  match draftsOfJson? convert value with
  | none => .error .malformed
  | some drafts => drafts.mapM fun (name, draft) => draft.resolve name

/-- The counters that a document describes, in the order of the document. -/
def readTrace (convert : Conversion) (bytes : List UInt8) :
    Except TraceProblem (List (Counter Binary64)) :=
  match Json.Value.ofBytes? bytes with
  | none => .error .malformed
  | some value => countersOfJson convert value

end TraceChart
