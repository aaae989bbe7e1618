import TraceChart.Proofs.Terminal.Selection
import TraceChart.Proofs.Terminal.View

/-!
# Actions in words

There are two ways for an action to break: a value is brought into a range that has no order, or the
end of the window over the rows is too large for a machine word. The view of a full range rules out
the first, whatever is done to it. The second takes a window that reaches past the last word, and a
check that notices it; without one, the rows are scrolled elsewhere and the times stay what they
are. It cannot happen while the numbers of rows are less than half of all words, as the sizes of
lists and of screens are: what the rows are scrolled by is then never more than such a size.
-/

namespace TraceChart.Terminal

variable {α : Type}

/-! ### Numbers of rows -/

/-- An action whose numbers of rows are words. -/
def Action.InWords : Action α → Prop
  | .select _ rows visible => rows < 2 ^ 64 ∧ visible < 2 ^ 64
  | _ => True

/-- An action whose numbers of rows are sizes of lists and screens. -/
def Action.IsSized : Action α → Prop
  | .select _ rows visible => rows < 2 ^ 63 ∧ visible < 2 ^ 63
  | _ => True

/-- An action that forms the end of a window over the rows which is no word. -/
def Action.Overflows (view : View α) : Action α → Prop
  | .select delta rows visible => view.WindowOverflows delta rows visible
  | _ => False

theorem Action.IsSized.inWords {action : Action α} (sized : action.IsSized) : action.InWords := by
  cases action with
  | select delta rows visible =>
    obtain ⟨few, shown⟩ := sized
    exact ⟨by omega, by omega⟩
  | _ => exact trivial

theorem Action.IsSized.not_overflows {action : Action α} {view : View α} (sized : action.IsSized)
    (scrolled : view.scroll < 2 ^ 63) : ¬action.Overflows view := by
  cases action with
  | select delta rows visible =>
    obtain ⟨_, shown⟩ := sized
    rintro ⟨_, _, _, large⟩
    omega
  | _ => exact id

namespace View

variable [Scalar α] {view next : View α} {action : Action α}

/-! ### One action -/

theorem performInWords_of_overflows (words : action.InWords) (overflows : action.Overflows view) :
    view.performInWords action = .error .wordOverflow := by
  cases action with
  | select delta rows visible =>
    rw [performInWords, selectInWords?_of_overflow overflows words.1]
  | _ => exact overflows.elim

/-- Only the selection makes a difference, and only where the end of its window is no word. -/
theorem performInWords_of_not_overflows (words : action.InWords)
    (fits : ¬action.Overflows view) : view.performInWords action = view.perform action := by
  cases action with
  | select delta rows visible =>
    rw [performInWords, selectInWords?_of_not_overflow fits words.1]
    rfl
  | _ => rfl

/-- What does not overflow is the same whether an overflow is noticed or not. -/
theorem performWrapping_of_not_overflows (words : action.InWords)
    (fits : ¬action.Overflows view) : view.performWrapping action = view.perform action := by
  cases action with
  | select delta rows visible =>
    rw [performWrapping, selectWrapping_of_not_overflow fits words.1]
    rfl
  | _ => rfl

theorem performWrapping_of_performInWords (words : action.InWords)
    (performed : view.performInWords action = .ok next) : view.performWrapping action = .ok next := by
  by_cases overflows : action.Overflows view
  · rw [performInWords_of_overflows words overflows] at performed
    cases performed
  · rwa [performWrapping_of_not_overflows words overflows,
      ← performInWords_of_not_overflows words overflows]

theorem scroll_of_pan {fraction : α} (panned : view.pan fraction = .ok next) :
    next.scroll = view.scroll := by
  obtain ⟨start, cursor, _, _, rfl⟩ := pan_ok panned
  rfl

theorem scroll_follow (view : View α) : view.follow.scroll = view.scroll := by
  unfold follow
  split
  · rfl
  · split <;> rfl

omit [Scalar α] in
/-- A move of the selection scrolls by no more than a number of rows, or not at all. -/
theorem scroll_select_lt {rows : Nat} (scrolled : view.scroll < 2 ^ 63) (sized : rows < 2 ^ 63)
    (delta : Int) (visible : Nat) : (view.select delta rows visible).scroll < 2 ^ 63 := by
  rcases Nat.eq_zero_or_pos rows with rfl | filled
  · exact scrolled
  · obtain ⟨selected_lt, scroll_le⟩ := view.placed_select filled delta visible
    omega

theorem scroll_perform_lt (sized : action.IsSized) (scrolled : view.scroll < 2 ^ 63)
    (performed : view.perform action = .ok next) : next.scroll < 2 ^ 63 := by
  cases action with
  | pan fraction =>
    rwa [scroll_of_pan performed]
  | zoom factor =>
    -- A change of zoom ends with a move of the window, before which it leaves the rows alone.
    rw [scroll_of_pan performed]
    exact scrolled
  | moveCursor fraction =>
    obtain ⟨cursor, _, panned⟩ := (bind_ok_iff _ _ _).mp performed
    rw [scroll_of_pan panned, scroll_follow]
    exact scrolled
  | select delta rows visible =>
    cases performed
    exact scroll_select_lt scrolled sized.1 delta visible

/-! ### Runs -/

/-- A run that no overflow ends is the same where none would be noticed. -/
theorem performAllWrapping_of_performAllInWords {actions : List (Action α)}
    (words : ∀ action ∈ actions, action.InWords)
    (performed : actions.foldlM View.performInWords view = .ok next) :
    actions.foldlM View.performWrapping view = .ok next := by
  induction actions generalizing view with
  | nil => exact performed
  | cons action actions ih =>
    obtain ⟨first, rest⟩ := List.forall_mem_cons.mp words
    rw [List.foldlM_cons, bind_ok_iff] at performed ⊢
    obtain ⟨between, returned, onward⟩ := performed
    exact ⟨between, performWrapping_of_performInWords first returned, ih rest onward⟩

/-- While the numbers of rows are sizes, no action overflows and the words make no difference. -/
theorem performAllInWords_eq (view : View α) (scrolled : view.scroll < 2 ^ 63)
    {actions : List (Action α)} (sized : ∀ action ∈ actions, action.IsSized) :
    actions.foldlM View.performInWords view = actions.foldlM View.perform view := by
  induction actions generalizing view with
  | nil => rfl
  | cons action actions ih =>
    obtain ⟨first, rest⟩ := List.forall_mem_cons.mp sized
    rw [List.foldlM_cons, List.foldlM_cons,
      performInWords_of_not_overflows first.inWords (first.not_overflows scrolled)]
    cases performed : view.perform action with
    | error fault => rfl
    | ok next => exact ih next (scroll_perform_lt first scrolled performed) rest

variable [OrderedScalar α] {start finish : α}

theorem InRange.performInWords (range : FullRange start finish) (within : view.InRange start finish)
    (finite : action.IsFinite) (words : action.InWords) :
    (action.Overflows view ∧ view.performInWords action = .error .wordOverflow) ∨
      ∃ next, view.performInWords action = .ok next ∧ next.InRange start finish := by
  by_cases overflows : action.Overflows view
  · exact .inl ⟨overflows, performInWords_of_overflows words overflows⟩
  · rw [performInWords_of_not_overflows words overflows]
    exact .inr (within.perform range finite)

omit [OrderedScalar α] in
theorem InRange.selectWrapping (within : view.InRange start finish) (delta : Int)
    (rows visible : Nat) : (view.selectWrapping delta rows visible).InRange start finish := by
  unfold View.selectWrapping
  split
  · exact within
  · exact within.scrolled _ _

theorem InRange.performWrapping (range : FullRange start finish)
    (within : view.InRange start finish) (finite : action.IsFinite) :
    ∃ next, view.performWrapping action = .ok next ∧ next.InRange start finish := by
  cases action with
  | select delta rows visible => exact ⟨_, rfl, within.selectWrapping delta rows visible⟩
  | _ => exact within.perform range finite

theorem InRange.performAllWrapping (range : FullRange start finish)
    (within : view.InRange start finish) {actions : List (Action α)}
    (finite : ∀ action ∈ actions, action.IsFinite) :
    ∃ last, actions.foldlM View.performWrapping view = .ok last ∧ last.InRange start finish :=
  exists_foldlM_ok
    (fun _ inside action member => inside.performWrapping range (finite action member)) within

/-- How the view of a full range fares under some actions whose numbers of rows are words. -/
structure Fares (start finish : α) (actions : List (Action α)) : Prop where
  /-- Where an overflow goes unnoticed, nothing breaks and the view is in range. -/
  wrapping : ∃ view, actions.foldlM View.performWrapping (ofRange start finish) = .ok view ∧
    view.InRange start finish
  /-- Where it is a breach, nothing breaks either while the numbers of rows are sizes. -/
  sized : (∀ action ∈ actions, action.IsSized) →
    ∃ view, actions.foldlM View.performInWords (ofRange start finish) = .ok view ∧
      actions.foldlM View.perform (ofRange start finish) = .ok view
  /-- Every view that is reached is in range, and only an action that overflows breaks there. -/
  reached : ∀ view, actions.foldlM View.performInWords (ofRange start finish) = .ok view →
    actions.foldlM View.performWrapping (ofRange start finish) = .ok view ∧
    view.InRange start finish ∧ ∀ action : Action α, action.IsFinite → action.InWords →
      (action.Overflows view ∧ view.performInWords action = .error .wordOverflow) ∨
        ∃ next, view.performInWords action = .ok next

theorem fares_ofRange (range : FullRange start finish) {actions : List (Action α)}
    (proper : ∀ action ∈ actions, action.IsFinite ∧ action.InWords) :
    Fares start finish actions := by
  have opened := inRange_ofRange range
  have finite := fun action member => (proper action member).1
  have words := fun action member => (proper action member).2
  have unnoticed := opened.performAllWrapping range finite
  refine ⟨unnoticed, fun sized => ?_, fun view performed => ?_⟩
  · obtain ⟨view, performed, _⟩ := opened.performAll range actions finite
    have narrow : (ofRange start finish).scroll < 2 ^ 63 := Nat.two_pow_pos 63
    exact ⟨view, (performAllInWords_eq _ narrow sized).trans performed, performed⟩
  -- The run is also one in which overflows go unnoticed, and those are in range to their end.
  · have same := performAllWrapping_of_performAllInWords words performed
    obtain ⟨last, returned, within⟩ := unnoticed
    cases same.symm.trans returned
    refine ⟨same, within, fun action finite words => ?_⟩
    rcases within.performInWords range finite words with broken | ⟨next, returned, _⟩
    · exact .inl broken
    · exact .inr ⟨next, returned⟩

/-- Whatever is done to the view of a full range, the view stays in range, with numbers that are
rounded as well as with exact ones. A run may stop anywhere, so this is said of the view after every
action. Nothing breaks but a selection on a window over the rows whose end is no word, and this only
where such an overflow is noticed. -/
theorem inRange_of_actions :
    (∀ (start finish : Binary64) (actions : List (Action Binary64)), FullRange start finish →
      (∀ action ∈ actions, action.IsFinite ∧ action.InWords) → Fares start finish actions) ∧
    ∀ (start finish : Rat) (actions : List (Action Rat)), FullRange start finish →
      (∀ action ∈ actions, action.IsFinite ∧ action.InWords) → Fares start finish actions :=
  ⟨fun _ _ _ range proper => fares_ofRange range proper,
    fun _ _ _ range proper => fares_ofRange range proper⟩

/-- A zoom by what is no number, one into a window of no length, and a cursor that is sent beyond
the end; then a selection on a screen of as many rows as there are words. -/
theorem inRange_of_extreme_factors :
    (FullRange (2.5 : Binary64) 10.0 ∧
      ∃ view, [.zoom .nan, .moveCursor 0.5, .zoom (.infinite false), .pan 0.1, .moveCursor 100.0,
          .zoom 0.0, .select 5 10 2].foldlM View.performInWords (.ofRange (2.5 : Binary64) 10.0) =
            .ok view ∧ view.InRange 2.5 10.0 ∧
          view.performInWords (.select 0 10 (2 ^ 64 - 1)) = .error .wordOverflow) ∧
    (∃ view, [.zoom .nan, .moveCursor 0.5, .zoom (.infinite false), .pan 0.1, .moveCursor 100.0,
        .zoom 0.0, .select 5 10 2, .select 0 10 (2 ^ 64 - 1)].foldlM View.performWrapping
          (.ofRange (2.5 : Binary64) 10.0) = .ok view ∧ view.InRange 2.5 10.0) ∧
    (FullRange (-1 : Rat) 10 ∧
      ∃ view, [.zoom 2, .moveCursor 3, .zoom (-1), .pan (1 / 2), .select (-1) 3 2].foldlM
          View.performInWords (.ofRange (-1 : Rat) 10) = .ok view ∧ view.InRange (-1) 10) := by
  have binary : FullRange (2.5 : Binary64) 10.0 := ⟨rfl, by decide, by decide, by decide⟩
  have rational : FullRange (-1 : Rat) 10 := ⟨rfl, rfl, by norm_num, rfl⟩
  refine ⟨⟨binary, ?breaks⟩, ?wraps, rational, ?exact⟩
  case breaks =>
    have fares := inRange_of_actions.1 2.5 10.0
      [.zoom .nan, .moveCursor 0.5, .zoom (.infinite false), .pan 0.1, .moveCursor 100.0,
        .zoom 0.0, .select 5 10 2] binary (by
          simp only [Action.IsFinite, Action.InWords, List.forall_mem_cons, List.not_mem_nil,
            false_imp_iff, forall_true_iff, and_true, true_and]
          decide)
    obtain ⟨view, performed, _⟩ := fares.sized (by simp [Action.IsSized])
    have broken : (match [.zoom .nan, .moveCursor 0.5, .zoom (.infinite false), .pan 0.1,
        .moveCursor 100.0, .zoom 0.0, .select 5 10 2].foldlM View.performInWords
          (.ofRange (2.5 : Binary64) 10.0) with
      | .ok view => (view.selectInWords? 0 10 (2 ^ 64 - 1)).isNone
      | .error _ => false) = true := by
      decide +kernel
    rw [performed, Option.isNone_iff_eq_none] at broken
    exact ⟨view, performed, (fares.reached view performed).2.1,
      by rw [View.performInWords, broken]⟩
  case wraps =>
    have fares := inRange_of_actions.1 2.5 10.0
      [.zoom .nan, .moveCursor 0.5, .zoom (.infinite false), .pan 0.1, .moveCursor 100.0,
        .zoom 0.0, .select 5 10 2, .select 0 10 (2 ^ 64 - 1)] binary (by
          simp only [Action.IsFinite, Action.InWords, List.forall_mem_cons, List.not_mem_nil,
            false_imp_iff, forall_true_iff, and_true, true_and]
          decide)
    exact fares.wrapping
  case exact =>
    have fares := inRange_of_actions.2 (-1) 10
      [.zoom 2, .moveCursor 3, .zoom (-1), .pan (1 / 2), .select (-1) 3 2] rational
      (by simp [Action.IsFinite, Action.InWords])
    obtain ⟨view, performed, _⟩ := fares.sized (by simp [Action.IsSized])
    exact ⟨view, performed, (fares.reached view performed).2.1⟩

end View

end TraceChart.Terminal
