/-!
Drawings: what views hand to the parts that draw. A drawing is a list of commands, each of which
carries all that it needs; lengths are in pixels.
-/

namespace TraceChart

structure Point (α : Type) where
  x : α
  y : α
deriving DecidableEq, Repr

structure Rect (α : Type) where
  x : α
  y : α
  width : α
  height : α
deriving DecidableEq, Repr

def Rect.bottom {α : Type} [Add α] (rect : Rect α) : α :=
  rect.y + rect.height

structure Viewport (α : Type) where
  width : α
  height : α
deriving DecidableEq, Repr

/-- A role of a color, which a theme fills. -/
inductive Token where
  | background
  | border
  | laneBackground
  | laneBorder
  | laneHeaderBackground
  | laneHeaderText
  | textPrimary
  | textMuted
  /-- The mark of a track without intervals. -/
  | placeholder
  | selectionHighlight
deriving DecidableEq, Repr

inductive Paint where
  | token (token : Token)
  | named (name : String)
deriving DecidableEq, Repr

inductive Align where
  | left
  | center
  | right
deriving DecidableEq, Repr

inductive Command (α : Type) where
  /-- A filled rectangle, with a text inside and a text that shows on pointing at it. -/
  | rect (rect : Rect α) (fill : Paint) (border : Option Token) (label hover : Option String)
  | text (position : Point α) (text : String) (color : Paint) (size : α) (align : Align)
  | line (start finish : Point α) (color : Token) (width : α)
  | beginGroup (id : String) (label : Option String)
  | endGroup
deriving DecidableEq, Repr

end TraceChart
