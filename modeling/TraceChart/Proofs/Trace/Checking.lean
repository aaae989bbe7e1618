import TraceChart.Proofs.Traversal
import TraceChart.Trace.Interval

/-!
# Checking counters

A counter is checked event by event, the last one included: the code of an event first, then its
time, then its time against the event before. So a check fails with the first event that is at
fault, whatever is wrong with later ones, and with the first thing that is wrong with it.
-/

namespace TraceChart

variable {α : Type}

/-! ### Markers -/

theorem Category.resolve_ok_iff (category : Category) (code : Int) (marker : Marker) :
    (category.resolve code : Except (Problem α) Marker) = .ok marker ↔
      category.marker? code = some marker := by
  unfold Category.resolve
  split
  next marker found => simp [found]
  next absent => simp [absent]

theorem Category.resolve_error_iff (category : Category) (code : Int) (problem : Problem α) :
    (category.resolve code : Except (Problem α) Marker) = .error problem ↔
      category.marker? code = none ∧ problem = .unknownEvent category code := by
  unfold Category.resolve
  split
  next marker found => simp [found]
  next absent => simp [absent, eq_comm]

variable [Scalar α]

namespace Counter

/-! ### Events at fault -/

/-- The event at an index is at fault: its code has no marker, or its time is not finite, or it lies
before the event that precedes it. -/
def Offends (counter : Counter α) (index : Nat) : Prop :=
  ∃ event, counter.events[index]? = some event ∧
    (counter.category.marker? event.code = none ∨ Scalar.isFinite event.time = false ∨
      ∃ previous, 0 < index ∧ counter.events[index - 1]? = some previous ∧
        Scalar.lt event.time previous.time = true)

/-- What is reported of an event at fault. Its code comes before its time, and whether the time is
finite before its order. -/
inductive Offence (counter : Counter α) (index : Nat) : Problem α → Prop
  | unknownEvent {event : Event α} (found : counter.events[index]? = some event)
      (unmarked : counter.category.marker? event.code = none) :
      Offence counter index (.unknownEvent counter.category event.code)
  | nonFiniteTime {event : Event α} {marker : Marker}
      (found : counter.events[index]? = some event)
      (marked : counter.category.marker? event.code = some marker)
      (infinite : Scalar.isFinite event.time = false) :
      Offence counter index (.nonFiniteTime counter.name index)
  | decreasingTime {previous event : Event α} {marker : Marker} (later : 0 < index)
      (before : counter.events[index - 1]? = some previous)
      (found : counter.events[index]? = some event)
      (marked : counter.category.marker? event.code = some marker)
      (finite : Scalar.isFinite event.time = true)
      (below : Scalar.lt event.time previous.time = true) :
      Offence counter index (.decreasingTime counter.name index previous.time event.time)

/-- An event is at fault exactly if something is reported of it. -/
theorem offends_iff (counter : Counter α) (index : Nat) :
    counter.Offends index ↔ ∃ problem, counter.Offence index problem := by
  constructor
  · rintro ⟨event, found, wrong⟩
    cases marked : counter.category.marker? event.code with
    | none => exact ⟨_, .unknownEvent found marked⟩
    | some marker =>
      cases finite : Scalar.isFinite event.time with
      | false => exact ⟨_, .nonFiniteTime found marked finite⟩
      | true =>
        -- The code and the time are as they should be, so it is the order that is wrong.
        obtain ⟨previous, later, before, below⟩ : ∃ previous, 0 < index ∧
            counter.events[index - 1]? = some previous ∧
            Scalar.lt event.time previous.time = true := by
          simpa [marked, finite] using wrong
        exact ⟨_, .decreasingTime later before found marked finite below⟩
  · rintro ⟨_, offence⟩
    cases offence with
    | unknownEvent found unmarked => exact ⟨_, found, Or.inl unmarked⟩
    | nonFiniteTime found _ infinite => exact ⟨_, found, Or.inr (Or.inl infinite)⟩
    | decreasingTime later before found _ _ below =>
      exact ⟨_, found, Or.inr (Or.inr ⟨_, later, before, below⟩)⟩

/-! ### The check of one event -/

theorem checkEvent_ok_iff (counter : Counter α) (index : Nat) (previous : Option α)
    (event : Event α) : counter.checkEvent index previous event = .ok () ↔
      (∃ marker, counter.category.marker? event.code = some marker) ∧
        Scalar.isFinite event.time = true ∧
        ∀ earlier, previous = some earlier → Scalar.lt event.time earlier = false := by
  simp only [checkEvent, bind_ok_iff, Category.resolve_ok_iff]
  cases finite : Scalar.isFinite event.time with
  | false => simp
  | true =>
    cases previous with
    | none => simp
    | some earlier => cases below : Scalar.lt event.time earlier <;> simp [below]

/-- What an event that is refused is refused for. -/
theorem checkEvent_error_iff (counter : Counter α) (index : Nat) (previous : Option α)
    (event : Event α) (problem : Problem α) :
    counter.checkEvent index previous event = .error problem ↔
      (counter.category.marker? event.code = none ∧
        problem = .unknownEvent counter.category event.code) ∨
      ∃ marker, counter.category.marker? event.code = some marker ∧
        ((Scalar.isFinite event.time = false ∧ problem = .nonFiniteTime counter.name index) ∨
          Scalar.isFinite event.time = true ∧ ∃ earlier, previous = some earlier ∧
            Scalar.lt event.time earlier = true ∧
            problem = .decreasingTime counter.name index earlier event.time) := by
  simp only [checkEvent, bind_error_iff, Category.resolve_error_iff, Category.resolve_ok_iff]
  refine or_congr_right (exists_congr fun marker => and_congr_right fun _ => ?_)
  cases finite : Scalar.isFinite event.time with
  | false => simp [@eq_comm _ problem]
  | true =>
    cases previous with
    | none => simp
    | some earlier =>
      cases below : Scalar.lt event.time earlier <;> simp [below, @eq_comm _ problem]

/-- The check of the event that stands behind some others reports what is to be reported of it. -/
private theorem checkEvent_behind {counter : Counter α} {front rest : List (Event α)}
    {event : Event α} (split : counter.events = front ++ event :: rest) (problem : Problem α) :
    counter.checkEvent front.length (front.getLast?.map Event.time) event = .error problem ↔
      counter.Offence front.length problem := by
  have found : counter.events[front.length]? = some event := by simp [split]
  have before : ∀ previous, front.getLast? = some previous ↔
      0 < front.length ∧ counter.events[front.length - 1]? = some previous := by
    intro previous
    rw [List.getLast?_eq_getElem?, split]
    rcases List.eq_nil_or_concat front with rfl | ⟨front, last, rfl⟩
    · simp
    · simp
  rw [checkEvent_error_iff]
  constructor
  · rintro (⟨unmarked, rfl⟩ |
      ⟨marker, marked, ⟨infinite, rfl⟩ | ⟨finite, earlier, last, below, rfl⟩⟩)
    · exact .unknownEvent found unmarked
    · exact .nonFiniteTime found marked infinite
    · obtain ⟨previous, known, rfl⟩ := Option.map_eq_some_iff.mp last
      obtain ⟨later, before⟩ := (before previous).mp known
      exact .decreasingTime later before found marked finite below
  · intro offence
    cases offence with
    | unknownEvent also unmarked =>
      obtain rfl := Option.some.inj (found.symm.trans also)
      exact Or.inl ⟨unmarked, rfl⟩
    | nonFiniteTime also marked infinite =>
      obtain rfl := Option.some.inj (found.symm.trans also)
      exact Or.inr ⟨_, marked, Or.inl ⟨infinite, rfl⟩⟩
    | decreasingTime later earlier also marked finite below =>
      obtain rfl := Option.some.inj (found.symm.trans also)
      have last := (before _).mpr ⟨later, earlier⟩
      exact Or.inr ⟨_, marked, Or.inr ⟨finite, _, by rw [last]; rfl, below, rfl⟩⟩

/-! ### The check of all events -/

theorem checkFrom_ok_iff (counter : Counter α) (index : Nat) (previous : Option α)
    (events : List (Event α)) : counter.checkFrom index previous events = .ok () ↔
      (∀ event ∈ events, ∃ marker, counter.category.marker? event.code = some marker) ∧
        (∀ event ∈ events, Scalar.isFinite event.time = true) ∧
        (previous.toList ++ events.map Event.time).IsChain
          fun earlier time => Scalar.lt time earlier = false := by
  induction events generalizing index previous with
  | nil => cases previous <;> simp [checkFrom]
  | cons event events ih =>
    simp only [checkFrom, check_bind_ok_iff, checkEvent_ok_iff, ih, List.forall_mem_cons]
    cases previous with
    | none => simp [and_assoc, and_left_comm]
    | some earlier => simp [List.isChain_cons_cons, and_assoc, and_left_comm]

/-- From any event on, the check fails with the first event at fault. -/
private theorem checkFrom_behind {counter : Counter α} {front rest : List (Event α)}
    (split : counter.events = front ++ rest) (problem : Problem α) :
    counter.checkFrom front.length (front.getLast?.map Event.time) rest = .error problem ↔
      ∃ index, front.length ≤ index ∧ counter.Offence index problem ∧
        ∀ earlier, front.length ≤ earlier → earlier < index → ¬counter.Offends earlier := by
  induction rest generalizing front with
  | nil =>
    constructor
    · exact nofun
    · rintro ⟨index, behind, offence, _⟩
      -- Behind the last event there is none that could be at fault.
      obtain ⟨event, found, _⟩ := (counter.offends_iff index).mpr ⟨problem, offence⟩
      have below := (List.getElem?_eq_some_iff.mp found).1
      rw [split, List.append_nil] at below
      omega
  | cons event rest ih =>
    have checked := checkEvent_behind split
    have later := @ih (front ++ [event]) (by simp [split])
    simp only [List.length_append, List.length_singleton, List.getLast?_concat,
      Option.map_some] at later
    rw [checkFrom, bind_error_iff, checked, later]
    constructor
    · rintro (offence | ⟨_, passed, index, behind, offence, first⟩)
      · exact ⟨_, Nat.le_refl _, offence, fun earlier above below => by omega⟩
      · refine ⟨index, by omega, offence, fun earlier above below => ?_⟩
        rcases above.eq_or_lt with rfl | above
        · rw [counter.offends_iff]
          rintro ⟨other, offence⟩
          rw [← checked, passed] at offence
          cases offence
        · exact first earlier above below
    · rintro ⟨index, behind, offence, first⟩
      rcases behind.eq_or_lt with rfl | behind
      · exact Or.inl offence
      · have passed : ∃ value,
            counter.checkEvent front.length (front.getLast?.map Event.time) event = .ok value := by
          rw [exists_ok_iff]
          intro other failed
          exact first _ (Nat.le_refl _) behind
            ((counter.offends_iff _).mpr ⟨other, (checked other).mp failed⟩)
        obtain ⟨value, passed⟩ := passed
        exact Or.inr ⟨value, passed, index, behind, offence,
          fun earlier above below => first earlier (by omega) below⟩

theorem check_ok_iff (counter : Counter α) : counter.check = .ok () ↔
    (∀ event ∈ counter.events, ∃ marker, counter.category.marker? event.code = some marker) ∧
      (∀ event ∈ counter.events, Scalar.isFinite event.time = true) ∧
      (counter.events.map Event.time).IsChain fun earlier time =>
        Scalar.lt time earlier = false :=
  checkFrom_ok_iff counter 0 none counter.events

/-- The check fails with the first event at fault. -/
theorem check_error_iff (counter : Counter α) (problem : Problem α) :
    counter.check = .error problem ↔ ∃ index, counter.Offence index problem ∧
      ∀ earlier < index, ¬counter.Offends earlier := by
  have checked := @checkFrom_behind α _ counter [] counter.events rfl problem
  simp only [List.length_nil, Nat.zero_le, true_and, forall_const] at checked
  exact checked

/-- Of the events at fault there is a first one. -/
theorem exists_first_offence (counter : Counter α) {index : Nat} (offends : counter.Offends index) :
    ∃ first problem, counter.Offence first problem ∧
      ∀ earlier < first, ¬counter.Offends earlier := by
  classical
  have some_offends : ∃ index, counter.Offends index := ⟨index, offends⟩
  obtain ⟨problem, offence⟩ := (counter.offends_iff _).mp (Nat.find_spec some_offends)
  exact ⟨Nat.find some_offends, problem, offence, fun _ => Nat.find_min some_offends⟩

/-- The check passes where no event is at fault. -/
theorem check_ok_iff_not_offends (counter : Counter α) :
    counter.check = .ok () ↔ ∀ index, ¬counter.Offends index := by
  constructor
  · intro passed index offends
    obtain ⟨first, problem, offence, least⟩ := counter.exists_first_offence offends
    have failed := (counter.check_error_iff problem).mpr ⟨first, offence, least⟩
    rw [passed] at failed
    cases failed
  · intro sound
    obtain ⟨value, passed⟩ : ∃ value, counter.check = .ok value := by
      rw [exists_ok_iff]
      intro problem failed
      obtain ⟨index, offence, _⟩ := (counter.check_error_iff problem).mp failed
      exact sound index ((counter.offends_iff index).mpr ⟨problem, offence⟩)
    exact passed

end Counter

end TraceChart
