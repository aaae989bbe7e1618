import TraceChart.Chart.Drawing
import TraceChart.Record.Codec

/-!
The serialized forms of drawings.
-/

namespace TraceChart

open Codec

def Token.all : List Token :=
  [.background, .border, .laneBackground, .laneBorder, .laneHeaderBackground, .laneHeaderText,
    .textPrimary, .textMuted, .placeholder, .selectionHighlight]

def Token.serialName : Token → String
  | .background => "Background"
  | .border => "Border"
  | .laneBackground => "LaneBackground"
  | .laneBorder => "LaneBorder"
  | .laneHeaderBackground => "LaneHeaderBackground"
  | .laneHeaderText => "LaneHeaderText"
  | .textPrimary => "TextPrimary"
  | .textMuted => "TextMuted"
  | .placeholder => "Placeholder"
  | .selectionHighlight => "SelectionHighlight"

def Align.all : List Align :=
  [.left, .center, .right]

def Align.serialName : Align → String
  | .left => "Left"
  | .center => "Center"
  | .right => "Right"

instance : Codec Token where
  encode token := .ofString token.serialName
  decode? _ := choose? (Token.all.map fun token => (token.serialName, token))

instance : Codec Align where
  encode align := .ofString align.serialName
  decode? _ := choose? (Align.all.map fun align => (align.serialName, align))

instance : Codec Paint where
  encode
    | .token token => tagged "Token" (encode token)
    | .named name => tagged "Named" (encode name)
  decode? convert value := do
    match ← alternative? value with
    | ("Token", some content) => (decode? convert content).map .token
    | ("Named", some content) => (decode? convert content).map .named
    | _ => none

instance : Codec (Point Binary64) where
  encode point := members [("x", encode point.x), ("y", encode point.y)]
  decode? convert value := do
    match ← value.fields? ["x", "y"] with
    | [x, y] => do
      let x ← required? convert x
      let y ← required? convert y
      pure ⟨x, y⟩
    | _ => none

instance : Codec (Rect Binary64) where
  encode rect := members [("x", encode rect.x), ("y", encode rect.y), ("w", encode rect.width),
    ("h", encode rect.height)]
  decode? convert value := do
    match ← value.fields? ["x", "y", "w", "h"] with
    | [x, y, width, height] => do
      let x ← required? convert x
      let y ← required? convert y
      let width ← required? convert width
      let height ← required? convert height
      pure ⟨x, y, width, height⟩
    | _ => none

instance : Codec (Viewport Binary64) where
  encode viewport := members [("width", encode viewport.width), ("height", encode viewport.height)]
  decode? convert value := do
    match ← value.fields? ["width", "height"] with
    | [width, height] => do
      let width ← required? convert width
      let height ← required? convert height
      pure ⟨width, height⟩
    | _ => none

namespace Codec

def rectCommand? (convert : Conversion) (value : Json.Value) :
    Option (Command Binary64) := do
  match ← value.fields? ["rect", "fill", "border_color", "label", "hover"] with
  | [rect, fill, edge, label, hover] => do
    let rect ← required? convert rect
    let fill ← required? convert fill
    let edge ← optional? convert edge
    let label ← optional? convert label
    let hover ← optional? convert hover
    pure (.rect rect fill edge label hover)
  | _ => none

def textCommand? (convert : Conversion) (value : Json.Value) :
    Option (Command Binary64) := do
  match ← value.fields? ["position", "text", "color", "font_size", "align"] with
  | [position, text, color, size, align] => do
    let position ← required? convert position
    let text ← required? convert text
    let color ← required? convert color
    let size ← required? convert size
    let align ← required? convert align
    pure (.text position text color size align)
  | _ => none

def lineCommand? (convert : Conversion) (value : Json.Value) :
    Option (Command Binary64) := do
  match ← value.fields? ["from", "to", "color", "width"] with
  | [start, finish, color, width] => do
    let start ← required? convert start
    let finish ← required? convert finish
    let color ← required? convert color
    let width ← required? convert width
    pure (.line start finish color width)
  | _ => none

def groupCommand? (convert : Conversion) (value : Json.Value) :
    Option (Command Binary64) := do
  match ← value.fields? ["id", "label"] with
  | [id, label] => do
    let id ← required? convert id
    let label ← optional? convert label
    pure (.beginGroup id label)
  | _ => none

end Codec

instance : Codec (Command Binary64) where
  encode
    | .rect rect fill edge label hover =>
      tagged "DrawRect" (members [("rect", encode rect), ("fill", encode fill),
        ("border_color", encode edge), ("label", encode label), ("hover", encode hover)])
    | .text position text color size align =>
      tagged "DrawText" (members [("position", encode position), ("text", encode text),
        ("color", encode color), ("font_size", encode size), ("align", encode align)])
    | .line start finish color width =>
      tagged "DrawLine" (members [("from", encode start), ("to", encode finish),
        ("color", encode color), ("width", encode width)])
    | .beginGroup id label =>
      tagged "BeginGroup" (members [("id", encode id), ("label", encode label)])
    | .endGroup => .ofString "EndGroup"
  decode? convert value := do
    match ← alternative? value with
    | ("DrawRect", some content) => rectCommand? convert content
    | ("DrawText", some content) => textCommand? convert content
    | ("DrawLine", some content) => lineCommand? convert content
    | ("BeginGroup", some content) => groupCommand? convert content
    | ("EndGroup", none) => some .endGroup
    | ("EndGroup", some .null) => some .endGroup
    | _ => none

end TraceChart
