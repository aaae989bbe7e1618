import TraceChart.Number.Scalar
import TraceChart.Svg.Markup
import TraceChart.Svg.Theme

/-!
Drawings as SVG documents. Each command becomes its own elements, in order; a text that shows on
pointing becomes a title, and a label is written into its rectangle if some of it fits.
-/

namespace TraceChart.Svg

variable {α : Type} [Scalar α]

def number (name : String) (value : α) : Attribute :=
  ⟨name, Scalar.plainText value⟩

/-- The most characters that are counted. -/
def mostCharacters : Int := 18446744073709551615

/-- The number of characters that fit into a width. -/
def capacity (width : α) : Nat :=
  ((Scalar.truncate (width / 7.0)).within 0 mostCharacters).toNat

/-- A label cut to a number of characters, an ellipsis in the place of the last. A cut to fewer
than three is no use and is not made. -/
def cutLabel (label : String) (capacity : Nat) : String :=
  if capacity < label.length ∧ 2 < capacity then
    String.ofList (label.toList.take (capacity - 1) ++ ['…'])
  else label

/-- The label inside a rectangle that is wide enough to show some of it. -/
def labelMarkup (theme : Theme) (rect : Rect α) (fill : Paint) (label : String) : List Markup :=
  if Scalar.lt 30.0 rect.width then
    [.start "text"
      [number "x" (rect.x + 3.0), number "y" (rect.y + rect.height * 0.75),
        ⟨"fill", theme.inkOn fill⟩, ⟨"style", "pointer-events:none"⟩],
      .text (cutLabel label (capacity rect.width)), .finish "text"]
  else []

def borderAttributes (theme : Theme) : Option Token → List Attribute
  | some edge => [⟨"stroke", theme.color edge⟩, ⟨"stroke-width", "0.5"⟩]
  | none => []

def titleMarkup : Option String → List Markup
  | some hover => [.start "title" [], .text hover, .finish "title"]
  | none => []

def anchor : Align → String
  | .left => "start"
  | .center => "middle"
  | .right => "end"

def markup (theme : Theme) : Command α → List Markup
  | .rect rect fill border label hover =>
    [.start "rect"
      ([number "x" rect.x, number "y" rect.y, number "width" rect.width,
        number "height" rect.height, ⟨"fill", theme.paint fill⟩] ++
          borderAttributes theme border)] ++
      titleMarkup hover ++ [.finish "rect"] ++
      (label.elim [] (labelMarkup theme rect fill))
  | .line start finish color width =>
    [.empty "line"
      [number "x1" start.x, number "y1" start.y, number "x2" finish.x, number "y2" finish.y,
        ⟨"stroke", theme.color color⟩, number "stroke-width" width]]
  | .text position text color size align =>
    [.start "text"
      [number "x" position.x, number "y" position.y, ⟨"fill", theme.paint color⟩,
        number "font-size" size, ⟨"text-anchor", anchor align⟩],
      .text text, .finish "text"]
  | .beginGroup id _ => [.start "g" [⟨"id", id⟩]]
  | .endGroup => [.finish "g"]

/-- What stands at the front of every document: its size, and a background. -/
def opening (theme : Theme) (width height : α) : List Markup :=
  let widthText := Scalar.plainText width
  let heightText := Scalar.plainText height
  [.start "svg"
    [⟨"xmlns", "http://www.w3.org/2000/svg"⟩, ⟨"viewBox", s!"0 0 {widthText} {heightText}"⟩,
      ⟨"width", widthText⟩, ⟨"height", heightText⟩,
      ⟨"style", "font-family:system-ui,-apple-system,sans-serif;font-size:11px"⟩],
    .empty "rect"
      [⟨"width", widthText⟩, ⟨"height", heightText⟩, ⟨"fill", theme.color .background⟩]]

def documentMarkup (theme : Theme) (width height : α) (commands : List (Command α)) :
    List Markup :=
  opening theme width height ++ commands.flatMap (markup theme) ++ [.finish "svg"]

def document (theme : Theme) (width height : α) (commands : List (Command α)) : String :=
  Markup.write (documentMarkup theme width height commands)

end TraceChart.Svg
