import TraceChart.Fault
import TraceChart.Number.Scalar

/-!
The view of a chart in the terminal: a window over the full range of time, a cursor inside the
window, and a window over the rows that follows the selected one.

Rows are counted in naturals. The same moves in machine words may fail, or end elsewhere, where the
end of the window over the rows is no word; no list of rows that fits into memory is that long.
-/

namespace TraceChart.Terminal

structure View (α : Type) where
  fullStart : α
  fullFinish : α
  /-- The start of the window. -/
  start : α
  /-- How many times the window goes into the full range, at least one. -/
  zoom : α
  /-- The time that the cursor points at. -/
  cursor : α
  selected : Nat
  /-- The first row that is shown. -/
  scroll : Nat
deriving DecidableEq, Repr

/-- What can be done to a view. Fractions are parts of the window. -/
inductive Action (α : Type) where
  | pan (fraction : α)
  | zoom (factor : α)
  | moveCursor (fraction : α)
  /-- Move the selection among a number of rows, of which some are visible at a time. -/
  | select (delta : Int) (rows visible : Nat)
deriving DecidableEq, Repr

variable {α : Type}

/-- Move the selection, and scroll by as little as brings it into sight. -/
def View.select (view : View α) (delta : Int) (rows visible : Nat) : View α :=
  if rows = 0 then view
  else
    let selected := min (view.selected + delta).toNat (rows - 1)
    let scroll :=
      if selected < view.scroll then selected
      else if 0 < visible ∧ view.scroll + visible ≤ selected then selected + 1 - visible
      else view.scroll
    { view with selected := selected, scroll := scroll }

/-! ### Words -/

/-- How many machine words there are. -/
def wordCount : Nat := 18446744073709551616

/-- The sum of two words, unless it is too large for one. -/
def addWords? (left right : Nat) : Option Nat :=
  if left + right < wordCount then some (left + right) else none

/-- The difference of two words, unless it is negative. -/
def subtractWords? (left right : Nat) : Option Nat :=
  if right ≤ left then some (left - right) else none

/-- The word that is nearest to the sum of a word and a word with a sign. -/
def shiftWord (word : Nat) (delta : Int) : Nat :=
  min (word + delta).toNat (wordCount - 1)

/-- A move of the selection in words, which fails where a sum or a difference that it forms is no
word. The end of the window is formed only where the selection is compared with it. -/
def View.selectInWords? (view : View α) (delta : Int) (rows visible : Nat) : Option (View α) :=
  if rows = 0 then some view
  else do
    let last ← subtractWords? rows 1
    let selected := min (shiftWord view.selected delta) last
    let scroll ←
      if selected < view.scroll then some selected
      else if 0 < visible then do
        let finish ← addWords? view.scroll visible
        if finish ≤ selected then do
          let next ← addWords? selected 1
          subtractWords? next visible
        else some view.scroll
      else some view.scroll
    some { view with selected := selected, scroll := scroll }

/-- The same move where a sum or a difference that is no word loses what is too much for one. -/
def View.selectWrapping (view : View α) (delta : Int) (rows visible : Nat) : View α :=
  if rows = 0 then view
  else
    let selected := min (shiftWord view.selected delta) (rows - 1)
    let scroll :=
      if selected < view.scroll then selected
      else if 0 < visible ∧ (view.scroll + visible) % wordCount ≤ selected then
        (selected + 1 + (wordCount - visible)) % wordCount
      else view.scroll
    { view with selected := selected, scroll := scroll }

/-! ### Actions -/

variable [Scalar α]

/-- The number of a range that is nearest to a value. -/
def clamp (value low high : α) : Except Fault α :=
  match Scalar.clamp? value low high with
  | some value => .ok value
  | none => .error .unorderedRange

namespace View

def ofRange (start finish : α) : View α where
  fullStart := start
  fullFinish := finish
  start := start
  zoom := 1.0
  cursor := start
  selected := 0
  scroll := 0

def duration (view : View α) : α :=
  (view.fullFinish - view.fullStart) / view.zoom

def finish (view : View α) : α :=
  view.start + view.duration

/-- Move the window within the full range, and the cursor along where it would be left behind. -/
def pan (view : View α) (fraction : α) : Except Fault (View α) := do
  -- A window longer than the full range has its latest start before the range, and starts with it.
  let latest := view.fullFinish - view.duration
  let start ← clamp (view.start + view.duration * fraction) view.fullStart
    (Scalar.larger latest view.fullStart)
  let moved := { view with start := start }
  let cursor ← clamp moved.cursor moved.start moved.finish
  pure { moved with cursor := cursor }

/-- Change the length of the window, with the cursor in its middle as far as the range allows. -/
def zoomBy (view : View α) (factor : α) : Except Fault (View α) :=
  let zoomed := { view with zoom := Scalar.larger (view.zoom * factor) 1.0 }
  -- The middle may lie too near to an end for the window; a move by nothing brings it back.
  { zoomed with start := view.cursor - zoomed.duration / 2.0 }.pan 0.0

/-- A window that starts or ends at the cursor, where the cursor lies outside. -/
def follow (view : View α) : View α :=
  if Scalar.lt view.cursor view.start then { view with start := view.cursor }
  else if Scalar.lt view.finish view.cursor then
    { view with start := view.cursor - view.duration }
  else view

/-- Move the cursor within the full range, and the window along with it. -/
def moveCursor (view : View α) (fraction : α) : Except Fault (View α) := do
  let cursor ← clamp (view.cursor + view.duration * fraction) view.fullStart view.fullFinish
  { view with cursor := cursor }.follow.pan 0.0

/-- Perform an action with its numbers of rows as naturals. -/
def perform (view : View α) : Action α → Except Fault (View α)
  | .pan fraction => view.pan fraction
  | .zoom factor => view.zoomBy factor
  | .moveCursor fraction => view.moveCursor fraction
  | .select delta rows visible => .ok (view.select delta rows visible)

/-- Perform an action with its numbers of rows in machine words, whose overflow is a breach. -/
def performInWords (view : View α) (action : Action α) : Except Fault (View α) :=
  match action with
  | .select delta rows visible =>
    match view.selectInWords? delta rows visible with
    | some next => .ok next
    | none => .error .wordOverflow
  | _ => view.perform action

/-- Perform an action with its numbers of rows in machine words, whose overflow goes unnoticed. -/
def performWrapping (view : View α) (action : Action α) : Except Fault (View α) :=
  match action with
  | .select delta rows visible => .ok (view.selectWrapping delta rows visible)
  | _ => view.perform action

end View

end TraceChart.Terminal
