import TraceChart.Proofs.Number.Order
import TraceChart.Proofs.Traversal
import TraceChart.Terminal.View

/-!
# Views stay in range

Whatever is done to the view of a full range, the window and the cursor stay inside it and no range
that a value is brought into is ever out of order. An action breaks this on its way: a change of
zoom and a move of the cursor set the start of the window without regard to the full range, and
leave it to a last move by nothing to put it right. What they do keep is held apart as `Held`.
-/

namespace TraceChart.Terminal

open Scalar OrderedScalar

variable {α : Type} [Scalar α]

/-- An action whose fraction is finite. A factor may be anything. -/
def Action.IsFinite : Action α → Prop
  | .pan fraction => isFinite fraction = true
  | .zoom _ => True
  | .moveCursor fraction => isFinite fraction = true
  | .select _ _ _ => True

/-- A full range: finite ends in order, a finite time apart. -/
structure FullRange (start finish : α) : Prop where
  startFinite : isFinite start = true
  finishFinite : isFinite finish = true
  ordered : le start finish = true
  lengthFinite : isFinite (finish - start) = true

namespace View

/-- What every part of an action keeps: the full range, a zoom of at least one, and a cursor inside
the full range. -/
structure Held (start finish : α) (view : View α) : Prop where
  fullStart : view.fullStart = start
  fullFinish : view.fullFinish = finish
  zoomed : le 1.0 view.zoom = true
  start_le_cursor : le start view.cursor = true
  cursor_le_finish : le view.cursor finish = true

/-- What holds before and after every action: the window starts inside the full range too, and the
cursor lies inside the window. -/
structure InRange (start finish : α) (view : View α) : Prop extends Held start finish view where
  start_le : le start view.start = true
  start_le_finish : le view.start finish = true
  window_le_cursor : le view.start view.cursor = true
  cursor_le_window : le view.cursor view.finish = true

/-- A move that returns has brought the start and then the cursor into range, and keeps the rest. -/
theorem pan_ok {view moved : View α} {fraction : α} (panned : view.pan fraction = .ok moved) :
    ∃ start cursor, clamp (view.start + view.duration * fraction) view.fullStart
        (larger (view.fullFinish - view.duration) view.fullStart) = .ok start ∧
      clamp view.cursor start (start + view.duration) = .ok cursor ∧
      moved = { view with start := start, cursor := cursor } := by
  obtain ⟨start, found, rest⟩ := (bind_ok_iff _ _ _).mp panned
  obtain ⟨cursor, taken, returned⟩ := (bind_ok_iff _ _ _).mp rest
  cases returned
  exact ⟨start, cursor, found, taken, rfl⟩

variable [OrderedScalar α] {start finish : α} {view : View α}

/-! ### The length of the window -/

theorem zero_le_duration (zoomed : le 1.0 view.zoom = true)
    (ordered : le 0.0 (view.fullFinish - view.fullStart) = true)
    (number : le view.duration view.duration = true) : le 0.0 view.duration = true :=
  zero_le_div ordered zoomed number

theorem Held.zero_le_duration (range : FullRange start finish) (held : view.Held start finish) :
    le 0.0 view.duration = true := by
  have length := zero_le_sub range.startFinite range.finishFinite range.ordered
  have shrunk := div_le range.lengthFinite length held.zoomed
  apply View.zero_le_duration held.zoomed
  · rwa [held.fullStart, held.fullFinish]
  · rw [duration, held.fullStart, held.fullFinish]
    exact number_left shrunk

theorem Held.finite_duration (range : FullRange start finish) (held : view.Held start finish) :
    isFinite view.duration = true := by
  have length := zero_le_sub range.startFinite range.finishFinite range.ordered
  have shrunk := div_le range.lengthFinite length held.zoomed
  have duration : view.duration = (finish - start) / view.zoom := by
    rw [View.duration, held.fullStart, held.fullFinish]
  exact finite_between finite_zero range.lengthFinite (held.zero_le_duration range)
    (duration ▸ shrunk)

theorem Held.finite_cursor (range : FullRange start finish) (held : view.Held start finish) :
    isFinite view.cursor = true :=
  finite_between range.startFinite range.finishFinite held.start_le_cursor held.cursor_le_finish

theorem InRange.finite_start (range : FullRange start finish) (within : view.InRange start finish) :
    isFinite view.start = true :=
  finite_between range.startFinite range.finishFinite within.start_le within.start_le_finish

/-! ### Moving the window -/

theorem clamp_of_number {value low high : α} (number : le value value = true)
    (ordered : le low high = true) : ∃ result, clamp value low high = .ok result ∧
      le low result = true ∧ le result high = true ∧
      ∀ bound, le low bound = true → le value bound = true → le result bound = true := by
  obtain ⟨result, clamped, within⟩ := clamp?_of_number number ordered
  exact ⟨result, by simp [clamp, clamped], within⟩

/-- A move puts any window right, if only its new start is a number before it is brought into
range. -/
theorem Held.pan (range : FullRange start finish) (held : view.Held start finish) (fraction : α)
    (number : le (view.start + view.duration * fraction) (view.start + view.duration * fraction) =
      true) : ∃ moved, view.pan fraction = .ok moved ∧ moved.InRange start finish := by
  have nonneg := held.zero_le_duration range
  obtain rfl := held.fullStart
  obtain rfl := held.fullFinish
  have startNumber := number_of_finite range.startFinite
  have latest : le (larger (view.fullFinish - view.duration) view.fullStart) view.fullFinish =
      true := larger_le (fun _ => sub_le range.finishFinite nonneg) range.ordered
  obtain ⟨moved, found, start_le, le_latest, _⟩ := clamp_of_number number
    (le_larger (view.fullFinish - view.duration) startNumber)
  have le_finish := le_trans le_latest latest
  have finite := finite_between range.startFinite range.finishFinite start_le le_finish
  -- The cursor was inside the full range, so it stays there when the window takes it along.
  obtain ⟨cursor, taken, moved_le, le_window, bounded⟩ := clamp_of_number
    (number_left held.cursor_le_finish) (le_add finite nonneg)
  refine ⟨{ view with start := moved, cursor := cursor }, ?_, ?_⟩
  · have carried : clamp view.cursor moved { view with start := moved }.finish = .ok cursor := taken
    simp only [View.pan, found, ok_bind, carried]
    rfl
  · exact {
      fullStart := held.fullStart
      fullFinish := held.fullFinish
      zoomed := held.zoomed
      start_le_cursor := le_trans start_le moved_le
      cursor_le_finish := bounded _ le_finish held.cursor_le_finish
      start_le := start_le
      start_le_finish := le_finish
      window_le_cursor := moved_le
      cursor_le_window := le_window }

/-- A move by nothing puts right a window that starts at any number at all. -/
theorem Held.pan_zero (range : FullRange start finish) (held : view.Held start finish)
    (number : le view.start view.start = true) :
    ∃ moved, view.pan 0.0 = .ok moved ∧ moved.InRange start finish := by
  have still := finite_mul_zero (held.finite_duration range)
  exact held.pan range 0.0 (number_add_finite number still)

theorem InRange.pan (range : FullRange start finish) (within : view.InRange start finish)
    {fraction : α} (finite : isFinite fraction = true) :
    ∃ moved, view.pan fraction = .ok moved ∧ moved.InRange start finish := by
  have shift := number_mul (within.toHeld.finite_duration range) finite
  exact within.toHeld.pan range fraction (number_add (within.finite_start range) shift)

/-! ### Changing the zoom -/

theorem InRange.zoomBy (range : FullRange start finish) (within : view.InRange start finish)
    (factor : α) : ∃ zoomed, view.zoomBy factor = .ok zoomed ∧ zoomed.InRange start finish := by
  let zoomed : View α := { view with zoom := larger (view.zoom * factor) 1.0 }
  have held : zoomed.Held start finish :=
    { within.toHeld with zoomed := le_larger _ (number_left (one_le_two (α := α))) }
  -- Half of the window is not negative, so the window starts at a number before the cursor.
  have half := div_le (held.finite_duration range) (held.zero_le_duration range) one_le_two
  have nonneg := zero_le_div (held.zero_le_duration range) one_le_two (number_left half)
  have before := sub_le (within.toHeld.finite_cursor range) nonneg
  let centred : View α := { zoomed with start := view.cursor - zoomed.duration / 2.0 }
  have kept : centred.Held start finish := { held with }
  exact kept.pan_zero range (number_left before)

/-! ### Moving the cursor -/

omit [OrderedScalar α] in
theorem Held.follow (held : view.Held start finish) : view.follow.Held start finish := by
  unfold View.follow
  split
  · exact { held with }
  · split <;> exact { held with }

theorem Held.number_follow (range : FullRange start finish) (held : view.Held start finish)
    (number : le view.start view.start = true) :
    le view.follow.start view.follow.start = true := by
  unfold View.follow
  split
  · exact number_left held.cursor_le_finish
  · split
    · exact number_left (sub_le (held.finite_cursor range) (held.zero_le_duration range))
    · exact number

theorem InRange.moveCursor (range : FullRange start finish) (within : view.InRange start finish)
    {fraction : α} (finite : isFinite fraction = true) :
    ∃ moved, view.moveCursor fraction = .ok moved ∧ moved.InRange start finish := by
  have shift := number_mul (within.toHeld.finite_duration range) finite
  have number := number_add (within.toHeld.finite_cursor range) shift
  obtain rfl := within.fullStart
  obtain rfl := within.fullFinish
  obtain ⟨cursor, found, start_le, le_finish, _⟩ := clamp_of_number number range.ordered
  let moved : View α := { view with cursor := cursor }
  have held : moved.Held view.fullStart view.fullFinish :=
    { within.toHeld with start_le_cursor := start_le, cursor_le_finish := le_finish }
  have followed := held.number_follow range (number_left within.start_le_finish)
  obtain ⟨result, panned, inside⟩ := held.follow.pan_zero range followed
  refine ⟨result, ?_, inside⟩
  simp only [View.moveCursor, found, ok_bind]
  exact panned

/-! ### Runs -/

omit [OrderedScalar α] in
/-- Only times are in range or not, whatever rows are shown. -/
theorem InRange.scrolled (within : view.InRange start finish) (selected scroll : Nat) :
    { view with selected := selected, scroll := scroll }.InRange start finish :=
  { within with }

omit [OrderedScalar α] in
theorem InRange.select (within : view.InRange start finish) (delta : Int) (rows visible : Nat) :
    (view.select delta rows visible).InRange start finish := by
  unfold View.select
  split
  · exact within
  · exact within.scrolled _ _

theorem InRange.perform (range : FullRange start finish) (within : view.InRange start finish)
    {action : Action α} (finite : action.IsFinite) :
    ∃ next, view.perform action = .ok next ∧ next.InRange start finish := by
  cases action with
  | pan fraction => exact within.pan range finite
  | zoom factor => exact within.zoomBy range factor
  | moveCursor fraction => exact within.moveCursor range finite
  | select delta rows visible => exact ⟨_, rfl, within.select delta rows visible⟩

theorem inRange_ofRange (range : FullRange start finish) :
    (ofRange start finish).InRange start finish := by
  have number := number_of_finite range.startFinite
  have held : (ofRange start finish).Held start finish :=
    { fullStart := rfl
      fullFinish := rfl
      zoomed := number_left (one_le_two (α := α))
      start_le_cursor := number
      cursor_le_finish := range.ordered }
  exact { held with
    start_le := number
    start_le_finish := range.ordered
    window_le_cursor := number
    cursor_le_window := le_add range.startFinite (held.zero_le_duration range) }

theorem InRange.performAll (range : FullRange start finish) (within : view.InRange start finish)
    (actions : List (Action α)) (finite : ∀ action ∈ actions, action.IsFinite) :
    ∃ last, actions.foldlM View.perform view = .ok last ∧ last.InRange start finish :=
  exists_foldlM_ok (fun _ inside action member => inside.perform range (finite action member))
    within

end View

end TraceChart.Terminal
