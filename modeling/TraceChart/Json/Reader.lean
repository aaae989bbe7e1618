import TraceChart.Json.Token

/-!
Reading JSON documents. A machine with an explicit stack takes one token at a time, so documents
may nest to any depth. The stack holds what each open array and object has collected so far.
-/

namespace TraceChart.Json

/-- An open array or object around the value that is being read, its items last first. -/
inductive Frame where
  | array (reversed : List Value)
  | object (reversed : List (Text × Value)) (key : Text)

/-- What has been read, and with it what may come next. -/
inductive State where
  | awaitValue (frames : List Frame)
  | arrayOpened (frames : List Frame)
  | inArray (reversed : List Value) (frames : List Frame)
  | objectOpened (frames : List Frame)
  /-- A comma asks for one more member. -/
  | awaitKey (reversed : List (Text × Value)) (frames : List Frame)
  | awaitColon (reversed : List (Text × Value)) (key : Text) (frames : List Frame)
  /-- An object has its first members. -/
  | inObject (reversed : List (Text × Value)) (frames : List Frame)
  | done (value : Value)

namespace State

/-- Hand a complete value to the innermost open array or object. -/
def complete (value : Value) : List Frame → State
  | [] => .done value
  | .array reversed :: frames => .inArray (value :: reversed) frames
  | .object reversed key :: frames => .inObject ((key, value) :: reversed) frames

def takeValue (frames : List Frame) : Token → Option State
  | .openArray => some (.arrayOpened frames)
  | .openObject => some (.objectOpened frames)
  | .null => some (complete .null frames)
  | .bool value => some (complete (.bool value) frames)
  | .number numeral => some (complete (.number numeral) frames)
  | .string text => some (complete (.string text) frames)
  | _ => none

def step : State → Token → Option State
  | .awaitValue frames, token => takeValue frames token
  | .arrayOpened frames, .closeArray => some (complete (.array []) frames)
  | .arrayOpened frames, token => takeValue (.array [] :: frames) token
  | .inArray reversed frames, .comma => some (.awaitValue (.array reversed :: frames))
  | .inArray reversed frames, .closeArray => some (complete (.array reversed.reverse) frames)
  | .objectOpened frames, .closeObject => some (complete (.object []) frames)
  | .objectOpened frames, .string key => some (.awaitColon [] key frames)
  | .awaitKey reversed frames, .string key => some (.awaitColon reversed key frames)
  | .awaitColon reversed key frames, .colon => some (.awaitValue (.object reversed key :: frames))
  | .inObject reversed frames, .comma => some (.awaitKey reversed frames)
  | .inObject reversed frames, .closeObject =>
    some (complete (.object reversed.reverse) frames)
  | _, _ => none

def value? : State → Option Value
  | .done value => some value
  | _ => none

end State

def Value.ofTokens? (tokens : List Token) : Option Value := do
  let state ← tokens.foldlM State.step (.awaitValue [])
  state.value?

/-- The value that a document holds, unless it is no JSON. -/
def Value.ofBytes? (bytes : List UInt8) : Option Value := do
  let tokens ← Token.readAll bytes
  ofTokens? tokens

def Value.ofString? (text : String) : Option Value :=
  ofBytes? text.toUTF8.toList

end TraceChart.Json
