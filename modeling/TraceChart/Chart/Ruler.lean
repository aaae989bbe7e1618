import TraceChart.Chart.Drawing
import TraceChart.Fault
import TraceChart.Number.Scalar

/-!
The ruler above a chart. Ticks stand at whole multiples of a minor step; every few of them is a
major tick with a label in seconds and a line down the chart. The major step is one, two or five
times a power of ten, the least that keeps labels a readable distance apart.
-/

namespace TraceChart.Ruler

variable {α : Type} [Scalar α]

def height : α := 24.0
def majorTickHeight : α := 10.0
def minorTickHeight : α := 4.0
def fontSize : α := 10.0
def labelDrop : α := 12.0
def labelIndent : α := 3.0
/-- The distance of labels that is aimed at. -/
def spacing : α := 80.0

/-- The distance of major ticks in seconds, and the number of parts that minor ticks cut it in. -/
structure Step (α : Type) where
  major : α
  parts : Nat

/-- The part of a duration that falls on one label, were they evenly spread. -/
def share (duration width : α) : α :=
  duration / Scalar.larger (width / spacing) 2.0

def candidates : List (α × Nat) :=
  [(1.0, 2), (2.0, 2), (5.0, 5), (10.0, 2)]

/-- The least step that is at least as long as the share of one label. -/
def chooseStep (duration width : α) : Step α :=
  let share := share duration width
  let unit := Scalar.powerOfTen (Scalar.decade share)
  match candidates.find? fun (candidate : α × Nat) => Scalar.le share (candidate.1 * unit) with
  | some (factor, parts) => ⟨factor * unit, parts⟩
  | none => ⟨10.0 * unit, 2⟩

def Step.minor (step : Step α) : α :=
  step.major / Scalar.ofNat step.parts

def lowestTick : Int := -9223372036854775808
def highestTick : Int := 9223372036854775807

def firstTick (step start : α) : Int :=
  (Scalar.ceil (start / step)).within lowestTick highestTick

def lastTick (step finish : α) : Int :=
  (Scalar.floor (finish / step)).within lowestTick highestTick

/-- How many decimal places the labels of a step need. A step of zero would need endlessly many. -/
def labelPlaces? (major : α) : Option Nat :=
  match Scalar.decade major with
  | .below => none
  | .at exponent => some (-exponent).toNat
  | _ => some 0

/-- The label of a time, with just the decimals that the step needs. -/
def label (time major : α) : Except Fault String :=
  match labelPlaces? major with
  | some places =>
    if Scalar.takesPlaces α places then
      -- Zero is reached by steps that are rounded, so it may be missed by a little.
      let shown := if Scalar.lt (Scalar.magnitude time) (major * 1e-6) then 0.0 else time
      .ok (Scalar.fixedText places shown ++ "s")
    else .error .tooManyPlaces
  | none => .error .tooManyPlaces

def minorCommands (x baseline : α) : List (Command α) :=
  [.line ⟨x, baseline - minorTickHeight⟩ ⟨x, baseline⟩ .textMuted 0.5]

def majorCommands (area : Rect α) (gridHeight x baseline time major : α) :
    Except Fault (List (Command α)) := do
  let label ← label time major
  let grid : List (Command α) :=
    if Scalar.lt 0.0 gridHeight then
      [.line ⟨x, baseline⟩ ⟨x, baseline + gridHeight⟩ .laneBorder 0.5]
    else []
  pure ([.line ⟨x, baseline - majorTickHeight⟩ ⟨x, baseline⟩ .laneBorder 1.0,
    .text ⟨x + labelIndent, area.y + labelDrop⟩ label (.token .textPrimary) fontSize .left] ++
      grid)

def tickCommands (area : Rect α) (start scale gridHeight : α) (step : Step α) (tick : Int) :
    Except Fault (List (Command α)) :=
  let time := Scalar.ofInt tick * step.minor
  let x := area.x + (time - start) * scale
  let baseline := area.y + height
  if tick % step.parts = 0 then majorCommands area gridHeight x baseline time step.major
  else .ok (minorCommands x baseline)

/-- A number of ticks from one on, after those drawn already, which are last first. The first tick
that has no label ends the drawing. -/
def tickCommandsFrom (area : Rect α) (start scale gridHeight : α) (step : Step α) (tick : Int)
    (reversed : List (List (Command α))) : Nat → Except Fault (List (Command α))
  | 0 => .ok reversed.reverse.flatten
  | count + 1 => do
    let drawn ← tickCommands area start scale gridHeight step tick
    tickCommandsFrom area start scale gridHeight step (tick + 1) (drawn :: reversed) count

def groundCommand (area : Rect α) : Command α :=
  .rect ⟨area.x, area.y, area.width, height⟩ (.token .laneHeaderBackground) (some .laneBorder)
    none none

/-- The ruler over an area for a window of time; nothing where either is empty. -/
def commands (area : Rect α) (start finish gridHeight : α) :
    Except Fault (List (Command α)) :=
  let duration := finish - start
  if Scalar.le duration 0.0 || Scalar.le area.width 0.0 then .ok []
  else do
    let scale := area.width / duration
    let step := chooseStep duration area.width
    let first := firstTick step.minor start
    let last := lastTick step.minor finish
    let drawn ← tickCommandsFrom area start scale gridHeight step first [] (last + 1 - first).toNat
    pure (groundCommand area :: drawn)

end TraceChart.Ruler
