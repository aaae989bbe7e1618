import Mathlib
import TraceChart.Terminal.View

/-!
# The selection of rows

A move of the selection scrolls the rows by as little as brings the selected one into sight.
Wherever the rows were, a move puts the selection among the rows that are shown, if any are. As long
as the number of rows that are shown does not change, the window does not reach past the last row.
None of the numbers that a move forms on its way is too large or too small for a machine word, so
the moves may as well be made in words.
-/

namespace TraceChart.Terminal

variable {α : Type}

/-! ### Moves -/

/-- The selection is one of a number of rows, and among those that are visible. -/
structure View.InSight (rows visible : Nat) (view : View α) : Prop where
  selected_lt : view.selected < rows
  scroll_le : view.scroll ≤ view.selected
  lt_scroll : view.selected < view.scroll + visible

/-- The selection is one of a number of rows, and no row before it is hidden behind it. -/
structure View.Placed (rows : Nat) (view : View α) : Prop where
  selected_lt : view.selected < rows
  scroll_le : view.scroll ≤ view.selected

namespace View

variable {rows visible : Nat}

@[simp] theorem select_of_no_rows (view : View α) (delta : Int) (visible : Nat) :
    view.select delta 0 visible = view := rfl

theorem selected_select (view : View α) (filled : 0 < rows) (delta : Int) (visible : Nat) :
    (view.select delta rows visible).selected =
      min (view.selected + delta).toNat (rows - 1) := by
  rw [select, if_neg filled.ne']

theorem scroll_select (view : View α) (filled : 0 < rows) (delta : Int) (visible : Nat) :
    (view.select delta rows visible).scroll =
      let selected := (view.select delta rows visible).selected
      if selected < view.scroll then selected
      else if 0 < visible ∧ view.scroll + visible ≤ selected then selected + 1 - visible
      else view.scroll := by
  rw [view.selected_select filled, select, if_neg filled.ne']

theorem selected_select_lt (view : View α) (filled : 0 < rows) (delta : Int) (visible : Nat) :
    (view.select delta rows visible).selected < rows := by
  rw [view.selected_select filled]
  omega

/-- The three ways to scroll: up to the selection, down to it, or not at all. -/
theorem scroll_cases (view : View α) (filled : 0 < rows) (delta : Int) (visible : Nat) :
    let next := view.select delta rows visible
    (next.selected < view.scroll ∧ next.scroll = next.selected) ∨
      (0 < visible ∧ view.scroll + visible ≤ next.selected ∧
        next.scroll = next.selected + 1 - visible) ∨
      (view.scroll ≤ next.selected ∧ (0 < visible → next.selected < view.scroll + visible) ∧
        next.scroll = view.scroll) := by
  intro next
  have scrolled : next.scroll = _ := view.scroll_select filled delta visible
  dsimp only at scrolled
  split at scrolled
  next above => exact Or.inl ⟨above, scrolled⟩
  next notAbove =>
    split at scrolled
    next below => exact Or.inr (Or.inl ⟨below.1, below.2, scrolled⟩)
    next notBelow =>
      refine Or.inr (Or.inr ⟨Nat.le_of_not_lt notAbove, fun shown => ?_, scrolled⟩)
      exact Nat.lt_of_not_le fun below => notBelow ⟨shown, below⟩

/-- A move leaves no trace of where the rows were, except where it need not scroll. -/
theorem placed_select (view : View α) (filled : 0 < rows) (delta : Int) (visible : Nat) :
    (view.select delta rows visible).Placed rows := by
  refine ⟨view.selected_select_lt filled delta visible, ?_⟩
  rcases view.scroll_cases filled delta visible with ⟨_, scrolled⟩ | ⟨_, _, scrolled⟩ |
    ⟨_, _, scrolled⟩ <;> omega

theorem inSight_select (view : View α) (filled : 0 < rows) (shown : 0 < visible) (delta : Int) :
    (view.select delta rows visible).InSight rows visible := by
  obtain ⟨selected_lt, scroll_le⟩ := view.placed_select filled delta visible
  refine ⟨selected_lt, scroll_le, ?_⟩
  rcases view.scroll_cases filled delta visible with ⟨_, scrolled⟩ | ⟨_, _, scrolled⟩ |
    ⟨_, within, scrolled⟩
  · omega
  · omega
  · rw [scrolled]
    exact within shown

theorem InSight.select {view : View α} (inSight : view.InSight rows visible) (delta : Int) :
    (view.select delta rows visible).InSight rows visible := by
  obtain ⟨selected_lt, scroll_le, lt_scroll⟩ := inSight
  exact view.inSight_select (by omega) (by omega) delta

/-- A window that does not reach past the last row does not come to do so. -/
theorem scroll_select_le (view : View α) (filled : 0 < rows)
    (within : view.scroll ≤ rows - visible) (delta : Int) :
    (view.select delta rows visible).scroll ≤ rows - visible := by
  have selected_lt := view.selected_select_lt filled delta visible
  rcases view.scroll_cases filled delta visible with ⟨_, scrolled⟩ | ⟨_, _, scrolled⟩ |
    ⟨_, _, scrolled⟩ <;> omega

/-- The rows stay where they are if that is enough. -/
theorem scroll_select_of_within (view : View α) (filled : 0 < rows) (delta : Int)
    (scroll_le : view.scroll ≤ (view.select delta rows visible).selected)
    (lt_scroll : (view.select delta rows visible).selected < view.scroll + visible) :
    (view.select delta rows visible).scroll = view.scroll := by
  rcases view.scroll_cases filled delta visible with ⟨_, _⟩ | ⟨_, _, _⟩ | ⟨_, _, scrolled⟩
  · omega
  · omega
  · exact scrolled

end View

/-! ### Words -/

theorem wordCount_eq : wordCount = 2 ^ 64 := by
  norm_num [wordCount]

theorem addWords?_of_lt {left right : Nat} (small : left + right < 2 ^ 64) :
    addWords? left right = some (left + right) :=
  if_pos small

theorem subtractWords?_of_le {left right : Nat} (ordered : right ≤ left) :
    subtractWords? left right = some (left - right) :=
  if_pos ordered

/-- Below the last row it does not matter where the words end. -/
theorem min_shiftWord {word last : Nat} {delta : Int} (small : last < 2 ^ 64) :
    min (shiftWord word delta) last = min (word + delta).toNat last := by
  rw [shiftWord, wordCount_eq]
  omega

namespace View

variable {rows visible : Nat}

/-- A move of the selection would form the end of a window over the rows that is no word. -/
def WindowOverflows (view : View α) (delta : Int) (rows visible : Nat) : Prop :=
  0 < rows ∧ view.scroll ≤ min (view.selected + delta).toNat (rows - 1) ∧ 0 < visible ∧
    2 ^ 64 ≤ view.scroll + visible

theorem selectInWords?_of_overflow {view : View α} {delta : Int}
    (overflows : view.WindowOverflows delta rows visible) (small : rows < 2 ^ 64) :
    view.selectInWords? delta rows visible = none := by
  obtain ⟨filled, reached, shown, large⟩ := overflows
  have end_none : addWords? view.scroll visible = none := if_neg (Nat.not_lt.mpr large)
  unfold selectInWords?
  rw [if_neg filled.ne', subtractWords?_of_le filled]
  simp only [Option.bind_eq_bind, Option.bind_some, min_shiftWord (by omega : rows - 1 < 2 ^ 64)]
  rw [if_neg (Nat.not_lt.mpr reached), if_pos shown, end_none]
  rfl

/-- Where the end of the window is a word, so is all else that a move forms. -/
theorem selectInWords?_of_not_overflow {view : View α} {delta : Int}
    (fits : ¬view.WindowOverflows delta rows visible) (small : rows < 2 ^ 64) :
    view.selectInWords? delta rows visible = some (view.select delta rows visible) := by
  unfold selectInWords? select
  by_cases empty : rows = 0
  · rw [if_pos empty, if_pos empty]
  · have filled : 1 ≤ rows := Nat.one_le_iff_ne_zero.mpr empty
    rw [if_neg empty, if_neg empty, subtractWords?_of_le filled]
    simp only [Option.bind_eq_bind, Option.bind_some, min_shiftWord (by omega : rows - 1 < 2 ^ 64)]
    have chosen : min (view.selected + delta).toNat (rows - 1) < rows := by omega
    unfold WindowOverflows at fits
    generalize min (view.selected + delta).toNat (rows - 1) = selected at chosen fits
    by_cases above : selected < view.scroll
    · simp only [if_pos above]
    · rw [if_neg above, if_neg above]
      by_cases shown : 0 < visible
      · rw [if_pos shown, addWords?_of_lt (by omega), Option.bind_some]
        by_cases below : view.scroll + visible ≤ selected
        · -- The end of the window is at most the selection, so the last difference is not negative.
          rw [if_pos below, if_pos ⟨shown, below⟩, addWords?_of_lt (by omega), Option.bind_some,
            subtractWords?_of_le (by omega), Option.bind_some]
        · rw [if_neg below, if_neg fun both => below both.2]
      · rw [if_neg shown, if_neg fun both => shown both.1]

theorem selectWrapping_of_not_overflow {view : View α} {delta : Int}
    (fits : ¬view.WindowOverflows delta rows visible) (small : rows < 2 ^ 64) :
    view.selectWrapping delta rows visible = view.select delta rows visible := by
  unfold selectWrapping select
  by_cases empty : rows = 0
  · rw [if_pos empty, if_pos empty]
  · rw [if_neg empty, if_neg empty, min_shiftWord (by omega : rows - 1 < 2 ^ 64), wordCount_eq]
    have chosen : min (view.selected + delta).toNat (rows - 1) < rows := by omega
    unfold WindowOverflows at fits
    generalize min (view.selected + delta).toNat (rows - 1) = selected at chosen fits
    dsimp only
    by_cases above : selected < view.scroll
    · rw [if_pos above, if_pos above]
    · have kept (shown : 0 < visible) : (view.scroll + visible) % 2 ^ 64 = view.scroll + visible :=
        Nat.mod_eq_of_lt (by omega)
      rw [if_neg above, if_neg above]
      by_cases below : 0 < visible ∧ view.scroll + visible ≤ selected
      · have whole : (selected + 1 + (2 ^ 64 - visible)) % 2 ^ 64 = selected + 1 - visible := by
          omega
        rw [if_pos below, if_pos ⟨below.1, (kept below.1).trans_le below.2⟩, whole]
      · rw [if_neg below, if_neg fun both => below ⟨both.1, (kept both.1).ge.trans both.2⟩]

theorem Placed.selectInWords?_eq {view : View α} (placed : view.Placed rows)
    (small : rows < 2 ^ 63) (few : visible < 2 ^ 63) (delta : Int) :
    view.selectInWords? delta rows visible = some (view.select delta rows visible) := by
  obtain ⟨selected_lt, scroll_le⟩ := placed
  refine selectInWords?_of_not_overflow ?_ (by omega)
  rintro ⟨_, _, _, large⟩
  omega

end View

/-! ### Runs -/

/-- A move of the selection on a screen that shows a number of rows. -/
structure Move where
  delta : Int
  visible : Nat
deriving DecidableEq, Repr

def View.selectAll (rows : Nat) (view : View α) (moves : List Move) : View α :=
  moves.foldl (fun view move => view.select move.delta rows move.visible) view

def View.selectAllInWords? (rows : Nat) (view : View α) (moves : List Move) : Option (View α) :=
  moves.foldlM (fun view move => view.selectInWords? move.delta rows move.visible) view

namespace View

variable {rows : Nat} {view : View α}

theorem selectAll_concat (rows : Nat) (view : View α) (moves : List Move) (move : Move) :
    view.selectAll rows (moves ++ [move]) =
      (view.selectAll rows moves).select move.delta rows move.visible := by
  simp [selectAll]

theorem Placed.selectAll (placed : view.Placed rows) (moves : List Move) :
    (view.selectAll rows moves).Placed rows := by
  have filled : 0 < rows := by
    have := placed.selected_lt
    omega
  induction moves using List.reverseRecOn with
  | nil => exact placed
  | append_singleton moves move =>
    rw [selectAll_concat]
    exact placed_select _ filled move.delta move.visible

theorem Placed.selectAllInWords?_eq (placed : view.Placed rows) (small : rows < 2 ^ 63)
    (moves : List Move) (few : ∀ move ∈ moves, move.visible < 2 ^ 63) :
    view.selectAllInWords? rows moves = some (view.selectAll rows moves) := by
  induction moves generalizing view with
  | nil => rfl
  | cons move moves ih =>
    have filled : 0 < rows := by
      have := placed.selected_lt
      omega
    obtain ⟨first, rest⟩ := List.forall_mem_cons.mp few
    have moved := placed.selectInWords?_eq small first move.delta
    rw [selectAllInWords?, List.foldlM_cons, moved]
    exact ih (view.placed_select filled move.delta move.visible) rest

theorem scroll_selectAll_le (filled : 0 < rows) {visible : Nat}
    (within : view.scroll ≤ rows - visible) (moves : List Move)
    (same : ∀ move ∈ moves, move.visible = visible) :
    (view.selectAll rows moves).scroll ≤ rows - visible := by
  induction moves generalizing view with
  | nil => exact within
  | cons move moves ih =>
    obtain ⟨rfl, rest⟩ := List.forall_mem_cons.mp same
    exact ih (view.scroll_select_le filled within move.delta) rest

variable [Scalar α]

theorem placed_ofRange (start finish : α) (filled : 0 < rows) :
    (ofRange start finish).Placed rows :=
  ⟨filled, Nat.le_refl 0⟩

/-- Whatever the moves of the selection among some rows, all that is formed on the way fits into
words, and the selection is one of the rows. A move on a screen that shows any rows leaves the
selection in its window. Screens that all show the same number of rows do not scroll past the last
row. The rows do not scroll where the selection stays in the window, and without rows nothing
changes. -/
theorem selection_of_moves (start finish : α) (rows : Nat) (filled : 0 < rows)
    (small : rows < 2 ^ 63) (moves : List Move) (few : ∀ move ∈ moves, move.visible < 2 ^ 63) :
    (ofRange start finish).selectAllInWords? rows moves =
      some ((ofRange start finish).selectAll rows moves) ∧
    ((ofRange start finish).selectAll rows moves).selected < rows ∧
    (∀ earlier move, moves = earlier ++ [move] → 0 < move.visible →
      ((ofRange start finish).selectAll rows moves).scroll ≤
          ((ofRange start finish).selectAll rows moves).selected ∧
        ((ofRange start finish).selectAll rows moves).selected <
          ((ofRange start finish).selectAll rows moves).scroll + move.visible) ∧
    (∀ visible, (∀ move ∈ moves, move.visible = visible) →
      ((ofRange start finish).selectAll rows moves).scroll ≤ rows - visible) ∧
    (∀ view : View α, ∀ delta visible,
      view.scroll ≤ (view.select delta rows visible).selected →
      (view.select delta rows visible).selected < view.scroll + visible →
        (view.select delta rows visible).scroll = view.scroll) ∧
    ∀ view : View α, ∀ delta visible, view.select delta 0 visible = view := by
  have placed := placed_ofRange start finish filled
  refine ⟨?_, (placed.selectAll moves).selected_lt, ?_, ?_, ?_, ?_⟩
  · exact placed.selectAllInWords?_eq small moves few
  · rintro earlier move rfl shown
    rw [selectAll_concat]
    obtain ⟨_, scroll_le, lt_scroll⟩ :=
      inSight_select ((ofRange start finish).selectAll rows earlier) filled shown move.delta
    exact ⟨scroll_le, lt_scroll⟩
  · intro visible same
    exact scroll_selectAll_le filled (Nat.zero_le _) moves same
  · exact fun view delta visible => view.scroll_select_of_within filled delta
  · exact select_of_no_rows

/-- A jump beyond the last row, two moves on screens without rows, and one on a screen of two. -/
theorem selection_of_shrinking_screens :
    let moves : List Move := [⟨2 ^ 63 - 1, 3⟩, ⟨-8, 0⟩, ⟨4, 0⟩, ⟨1, 2⟩]
    0 < 10 ∧ 10 < 2 ^ 63 ∧ (∀ move ∈ moves, move.visible < 2 ^ 63) ∧
      ∃ last, (ofRange (0.0 : Binary64) 1.0).selectAllInWords? 10 moves = some last ∧
        last.selected = 6 ∧ last.scroll = 5 ∧ last.selected < 10 ∧ last.scroll ≤ last.selected ∧
        last.selected < last.scroll + 2 := by
  intro moves
  have few : ∀ move ∈ moves, move.visible < 2 ^ 63 := by decide
  obtain ⟨words, selected_lt, inSight, _⟩ :=
    selection_of_moves (0.0 : Binary64) 1.0 10 (by decide) (by decide) moves few
  obtain ⟨scroll_le, lt_scroll⟩ := inSight [⟨2 ^ 63 - 1, 3⟩, ⟨-8, 0⟩, ⟨4, 0⟩] ⟨1, 2⟩ rfl (by decide)
  exact ⟨by decide, by decide, few, _, words, by decide, by decide, selected_lt, scroll_le,
    lt_scroll⟩

end View

end TraceChart.Terminal
