import TraceChart.Chart.Series
import TraceChart.Terminal.View

/-!
The viewer: the series of a chart, a view of them, and what keys and the mouse do to it.
-/

namespace TraceChart.Terminal

inductive Input where
  | char (char : Char)
  | left
  | right
  | up
  | down
  | escape
  | scrollLeft
  | scrollRight
  | scrollUp
  | scrollDown
  | click
deriving DecidableEq, Repr

structure Viewer (α : Type) where
  series : List (Series α)
  view : View α
deriving DecidableEq, Repr

/-- The input of a key that sends a character. Control characters stand for the letter that is
typed together with the control key, and act like it. -/
def Input.ofChar (char : Char) : Input :=
  if char = '\x1b' then .escape
  else if char = '\t' ∨ char = '\r' then .char char
  else if 1 ≤ char.toNat ∧ char.toNat ≤ 26 then .char (Char.ofNat (char.toNat + 96))
  else .char char

def Input.quits : Input → Bool
  | .char 'q' => true
  | .escape => true
  | _ => false

/-- How many rows a screen shows; the first and the last line are taken. -/
def visibleRows (height : Nat) : Nat :=
  height - 2

variable {α : Type}

def Viewer.selection (viewer : Viewer α) (height : Nat) (delta : Int) : Action α :=
  .select delta viewer.series.length (visibleRows height)

variable [Scalar α]

def zoomStep : α := 1.3

namespace Viewer

def ofSeries (series : List (Series α)) (start finish : α) : Viewer α :=
  ⟨series, .ofRange start finish⟩

/-- What an input asks for, if anything. -/
def action? (viewer : Viewer α) (height : Nat) : Input → Option (Action α)
  | .left => some (.pan (0.0 - 0.1))
  | .right => some (.pan 0.1)
  | .scrollLeft => some (.pan (0.0 - 0.05))
  | .scrollRight => some (.pan 0.05)
  | .char '[' => some (.moveCursor (0.0 - 0.02))
  | .char ']' => some (.moveCursor 0.02)
  | .char '+' => some (.zoom zoomStep)
  | .char '=' => some (.zoom zoomStep)
  | .char '-' => some (.zoom (1.0 / zoomStep))
  | .up => some (viewer.selection height (-1))
  | .down => some (viewer.selection height 1)
  | .scrollUp => some (viewer.selection height (-1))
  | .scrollDown => some (viewer.selection height 1)
  | _ => none

def take (viewer : Viewer α) (height : Nat) (input : Input) : Except Fault (Viewer α) :=
  match viewer.action? height input with
  | some action => do
    let view ← viewer.view.perform action
    pure { viewer with view := view }
  | none => .ok viewer

/-- Take inputs up to the first that quits. -/
def takeAll (viewer : Viewer α) (height : Nat) : List Input → Except Fault (Viewer α)
  | [] => .ok viewer
  | input :: inputs =>
    if input.quits then .ok viewer
    else do
      let next ← viewer.take height input
      next.takeAll height inputs

end Viewer

end TraceChart.Terminal
