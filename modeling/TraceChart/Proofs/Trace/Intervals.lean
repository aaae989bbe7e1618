import TraceChart.Proofs.Number.Order
import TraceChart.Proofs.Trace.Checking

/-!
# Intervals by index

The intervals of a counter are found in one pass over neighbouring events, after another pass has
checked them all. Here they are described without a pass: the indices at which intervals open are
listed, and each interval is what its index and the next one say.

The main result for binary64 numbers adds what follows for the times of intervals from the order
of the events.
-/

namespace TraceChart

variable {α : Type}

/-! ### Colors -/

/-- The first entry of a name has this color. -/
def Palette.Assigns (palette : Palette) (name color : String) : Prop :=
  ∃ before after, palette.entries = before ++ (name, color) :: after ∧
    ∀ entry ∈ before, entry.1 ≠ name

private theorem lookup_eq_some_iff (entries : List (String × String)) (name color : String) :
    entries.lookup name = some color ↔
      ∃ before after, entries = before ++ (name, color) :: after ∧
        ∀ entry ∈ before, entry.1 ≠ name := by
  induction entries with
  | nil => simp
  | cons entry entries ih =>
    obtain ⟨key, found⟩ := entry
    by_cases same : name = key
    · subst same
      simp only [List.lookup_cons, beq_self_eq_true, Option.some.injEq]
      constructor
      · rintro rfl
        exact ⟨[], entries, rfl, by simp⟩
      · rintro ⟨before, after, split, absent⟩
        cases before with
        | nil => exact (Prod.mk.inj (List.cons.inj split).1).2
        | cons first before =>
          obtain ⟨rfl, _⟩ := List.cons.inj split
          exact absurd rfl (absent _ List.mem_cons_self)
    · simp only [List.lookup_cons, beq_false_of_ne same, ih]
      constructor
      · rintro ⟨before, after, rfl, absent⟩
        exact ⟨(key, found) :: before, after, rfl, by simpa [Ne.symm same] using absent⟩
      · rintro ⟨before, after, split, absent⟩
        cases before with
        | nil => exact absurd (Prod.mk.inj (List.cons.inj split).1).1.symm same
        | cons first before =>
          obtain ⟨rfl, rfl⟩ := List.cons.inj split
          have absentLater := fun entry member => absent entry (List.mem_cons_of_mem _ member)
          exact ⟨before, after, rfl, absentLater⟩

theorem Palette.color?_eq_some_iff (palette : Palette) (name color : String) :
    palette.color? name = some color ↔ palette.Assigns name color :=
  lookup_eq_some_iff palette.entries name color

theorem Palette.resolve_ok_iff (palette : Palette) (name color : String) :
    (palette.resolve name : Except (Problem α) String) = .ok color ↔
      palette.Assigns name color := by
  rw [← palette.color?_eq_some_iff]
  unfold Palette.resolve
  split
  next color found => simp [found]
  next absent => simp [absent]

theorem Palette.resolve_error_iff (palette : Palette) (name : String) (problem : Problem α) :
    (palette.resolve name : Except (Problem α) String) = .error problem ↔
      palette.color? name = none ∧ problem = .unknownColor name := by
  unfold Palette.resolve
  split
  next color found => simp [found]
  next absent => simp [absent, eq_comm]

/-! ### Openings -/

/-- Whether the marker of an event is one of work. -/
def Category.opens (category : Category) (event : Event α) : Bool :=
  (category.marker? event.code).any fun marker => !marker.boundary

/-- The indices of the events that open intervals, in order. The last event is none of them. -/
def Category.openings (category : Category) (events : List (Event α)) : List Nat :=
  (List.range (events.length - 1)).filter fun index => events[index]?.any category.opens

theorem Category.mem_openings_iff (category : Category) (events : List (Event α)) (index : Nat) :
    index ∈ category.openings events ↔ ∃ event next marker,
      events[index]? = some event ∧ events[index + 1]? = some next ∧
        category.marker? event.code = some marker ∧ marker.boundary = false := by
  simp only [openings, opens, List.mem_filter, List.mem_range, Option.any_eq_true,
    Bool.not_eq_true']
  constructor
  · rintro ⟨below, event, found, marker, resolved, work⟩
    have next : index + 1 < events.length := by omega
    exact ⟨event, events[index + 1], marker, found, List.getElem?_eq_getElem next, resolved, work⟩
  · rintro ⟨event, next, marker, found, after, resolved, work⟩
    have below := (List.getElem?_eq_some_iff.mp after).1
    exact ⟨by omega, event, found, marker, resolved, work⟩

theorem Category.openings_below (category : Category) (events : List (Event α)) (index : Nat)
    (member : index ∈ category.openings events) : index + 1 < events.length := by
  obtain ⟨_, _, _, _, after, _⟩ := (category.mem_openings_iff events index).mp member
  exact (List.getElem?_eq_some_iff.mp after).1

theorem Category.openings_sorted (category : Category) (events : List (Event α)) :
    (category.openings events).Pairwise (· < ·) :=
  List.pairwise_lt_range.filter _

theorem Category.openings_of_short (category : Category) (events : List (Event α))
    (short : events.length < 2) : category.openings events = [] := by
  apply List.eq_nil_iff_forall_not_mem.mpr
  intro index member
  have below := category.openings_below events index member
  omega

theorem Category.openings_of_boundaries (category : Category) (events : List (Event α))
    (boundaries : ∀ event ∈ events, ∀ marker,
      category.marker? event.code = some marker → marker.boundary = true) :
    category.openings events = [] := by
  apply List.eq_nil_iff_forall_not_mem.mpr
  intro index member
  obtain ⟨event, _, marker, found, _, known, work⟩ :=
    (category.mem_openings_iff events index).mp member
  have boundary := boundaries event (List.mem_of_getElem? found) marker known
  rw [work] at boundary
  cases boundary

private theorem openings_cons_cons (category : Category) (event next : Event α)
    (events : List (Event α)) : category.openings (event :: next :: events) =
      (if category.opens event then [0] else []) ++
        (category.openings (next :: events)).map Nat.succ := by
  have shift : List.range ((event :: next :: events).length - 1) =
      0 :: (List.range ((next :: events).length - 1)).map Nat.succ := by
    simp [List.range_succ_eq_map]
  have later : ((fun index => (event :: next :: events)[index]?.any category.opens) ∘ Nat.succ) =
      fun index => (next :: events)[index]?.any category.opens := by
    funext index
    simp
  rw [Category.openings, shift, List.filter_cons, List.filter_map, later]
  cases opened : category.opens event <;> simp [Category.openings, opened]

variable [Scalar α]

namespace Counter

/-! ### The intervals of events -/

/-- The interval that opens at an index: from its event to the next, under the name and in the
color of the marker. -/
def OpenedAt (counter : Counter α) (palette : Palette) (events : List (Event α)) (index : Nat)
    (interval : Interval α) : Prop :=
  ∃ event next marker, events[index]? = some event ∧ events[index + 1]? = some next ∧
    counter.category.marker? event.code = some marker ∧ marker.boundary = false ∧
    interval.track = counter.name ∧ interval.start = event.time ∧
    interval.duration = next.time - event.time ∧ interval.label = marker.name ∧
    palette.Assigns marker.name interval.color

private theorem opened_ok_iff (counter : Counter α) (palette : Palette) (event next : Event α)
    (events : List (Event α)) (marker : Marker) (found : Option (Interval α))
    (resolved : counter.category.marker? event.code = some marker) :
    counter.opened palette event next = .ok found ↔
      if marker.boundary then found = none
      else ∃ interval, found = some interval ∧
        counter.OpenedAt palette (event :: next :: events) 0 interval := by
  have known : (counter.category.resolve event.code : Except (Problem α) Marker) = .ok marker :=
    (Category.resolve_ok_iff _ _ _).mpr resolved
  simp only [opened, known, ok_bind]
  cases work : marker.boundary with
  | true => simp [eq_comm]
  | false =>
    simp only [Bool.false_eq_true, if_false, bind_ok_iff, Palette.resolve_ok_iff, pure_eq_ok,
      Except.ok.injEq]
    constructor
    · rintro ⟨color, assigned, rfl⟩
      exact ⟨_, rfl, event, next, marker, rfl, rfl, resolved, work, rfl, rfl, rfl, rfl, assigned⟩
    · rintro ⟨⟨track, start, duration, label, color⟩, rfl, event', next', marker', first, second,
        resolved', _, rfl, rfl, rfl, rfl, assigned⟩
      obtain rfl : event = event' := by simpa using first
      obtain rfl : next = next' := by simpa using second
      obtain rfl : marker = marker' := by simpa [resolved] using resolved'
      exact ⟨color, assigned, rfl⟩

private theorem openedAt_succ_iff (counter : Counter α) (palette : Palette) (event : Event α)
    (events : List (Event α)) (index : Nat) (interval : Interval α) :
    counter.OpenedAt palette (event :: events) index.succ interval ↔
      counter.OpenedAt palette events index interval := by
  simp [OpenedAt]

/-- Where every code has a marker, the pass over neighbouring events gives the intervals that the
opening indices describe. -/
theorem intervalsOf_ok_iff (counter : Counter α) (palette : Palette) (events : List (Event α))
    (intervals : List (Interval α))
    (resolved : ∀ event ∈ events, ∃ marker, counter.category.marker? event.code = some marker) :
    counter.intervalsOf palette events = .ok intervals ↔
      List.Forall₂ (counter.OpenedAt palette events) (counter.category.openings events)
        intervals := by
  induction events generalizing intervals with
  | nil => simp [intervalsOf, Category.openings, eq_comm]
  | cons event events ih =>
    cases events with
    | nil => simp [intervalsOf, Category.openings, eq_comm]
    | cons next events =>
      obtain ⟨marker, known⟩ := resolved event List.mem_cons_self
      have later := fun intervals =>
        ih intervals fun event member => resolved event (List.mem_cons_of_mem _ member)
      -- The intervals behind the first event are those of the rest, one index later.
      have shifted (rest : List (Interval α)) :
          List.Forall₂ (counter.OpenedAt palette (event :: next :: events))
            ((counter.category.openings (next :: events)).map Nat.succ) rest ↔
          counter.intervalsOf palette (next :: events) = .ok rest := by
        rw [List.forall₂_map_left_iff, later]
        simp only [openedAt_succ_iff]
      rw [openings_cons_cons]
      simp only [intervalsOf, bind_ok_iff, pure_eq_ok, Except.ok.injEq,
        opened_ok_iff counter palette event next events marker _ known, ← shifted,
        Category.opens, known, Option.any_some]
      cases marker.boundary with
      | true => simp
      | false =>
        simp only [Bool.false_eq_true, if_false, Bool.not_false, if_true, List.singleton_append,
          List.forall₂_cons_left_iff]
        constructor
        · rintro ⟨_, ⟨interval, rfl, first⟩, rest, traversed, rfl⟩
          exact ⟨interval, rest, first, traversed, rfl⟩
        · rintro ⟨interval, rest, first, traversed, rfl⟩
          exact ⟨some interval, ⟨interval, rfl, first⟩, rest, traversed, rfl⟩

/-- The event at an index opens an interval, whose name has no color. -/
def Uncolored (counter : Counter α) (palette : Palette) (events : List (Event α)) (index : Nat)
    (name : String) : Prop :=
  ∃ event next marker, events[index]? = some event ∧ events[index + 1]? = some next ∧
    counter.category.marker? event.code = some marker ∧ marker.boundary = false ∧
    marker.name = name ∧ palette.color? name = none

omit [Scalar α] in
private theorem uncolored_succ_iff (counter : Counter α) (palette : Palette) (event : Event α)
    (events : List (Event α)) (index : Nat) (name : String) :
    counter.Uncolored palette (event :: events) (index + 1) name ↔
      counter.Uncolored palette events index name := by
  simp [Uncolored]

private theorem opened_error_iff (counter : Counter α) (palette : Palette) (event next : Event α)
    (events : List (Event α)) (problem : Problem α)
    (resolved : ∃ marker, counter.category.marker? event.code = some marker) :
    counter.opened palette event next = .error problem ↔ ∃ name,
      counter.Uncolored palette (event :: next :: events) 0 name ∧
        problem = .unknownColor name := by
  obtain ⟨marker, known⟩ := resolved
  have found : (counter.category.resolve event.code : Except (Problem α) Marker) = .ok marker :=
    (Category.resolve_ok_iff _ _ _).mpr known
  simp only [opened, found, ok_bind]
  cases work : marker.boundary with
  | true => simp [Uncolored, known, work]
  | false => simp [Uncolored, known, work, bind_error_iff, Palette.resolve_error_iff]

/-- The pass over neighbouring events fails with the first opening whose name has no color. -/
theorem intervalsOf_error_iff (counter : Counter α) (palette : Palette) (events : List (Event α))
    (problem : Problem α)
    (resolved : ∀ event ∈ events, ∃ marker, counter.category.marker? event.code = some marker) :
    counter.intervalsOf palette events = .error problem ↔ ∃ index name,
      counter.Uncolored palette events index name ∧
      (∀ earlier < index, ∀ other, ¬counter.Uncolored palette events earlier other) ∧
      problem = .unknownColor name := by
  induction events with
  | nil => simp [intervalsOf, Uncolored]
  | cons event events ih =>
    cases events with
    | nil => simp [intervalsOf, Uncolored]
    | cons next events =>
      obtain ⟨first, rest⟩ := List.forall_mem_cons.mp resolved
      have opened := counter.opened_error_iff palette event next events
      simp only [intervalsOf, bind_error_iff, opened _ first, ih rest]
      constructor
      · rintro (⟨name, uncolored, rfl⟩ | ⟨_, returned, ⟨index, name, uncolored, earliest, rfl⟩ |
          ⟨_, _, returned⟩⟩)
        · exact ⟨0, name, uncolored, nofun, rfl⟩
        · refine ⟨index + 1, name, (uncolored_succ_iff _ _ _ _ _ _).mpr uncolored, ?_, rfl⟩
          intro earlier below other uncolored
          cases earlier with
          | zero =>
            -- The first event would have failed.
            have failed := (opened _ first).mpr ⟨other, uncolored, rfl⟩
            rw [returned] at failed
            cases failed
          | succ earlier =>
            rw [uncolored_succ_iff] at uncolored
            exact earliest earlier (by omega) other uncolored
        · cases returned
      · rintro ⟨index, name, uncolored, earliest, rfl⟩
        cases index with
        | zero => exact Or.inl ⟨name, uncolored, rfl⟩
        | succ index =>
          rw [uncolored_succ_iff] at uncolored
          have returned : ∃ found, counter.opened palette event next = .ok found := by
            rw [exists_ok_iff]
            intro problem failed
            obtain ⟨other, uncolored, _⟩ := (opened problem first).mp failed
            exact earliest 0 (by omega) other uncolored
          obtain ⟨found, returned⟩ := returned
          refine Or.inr ⟨found, returned, Or.inl ⟨index, name, uncolored, ?_, rfl⟩⟩
          intro earlier below other uncolored
          exact earliest (earlier + 1) (by omega) other
            ((uncolored_succ_iff _ _ _ _ _ _).mpr uncolored)

/-! ### Counters -/

/-- What a counter needs for its intervals: markers for all codes, finite times none of which is
below the one before it, and colors for the markers that open intervals. -/
structure Sound (counter : Counter α) (palette : Palette) : Prop where
  resolved : ∀ event ∈ counter.events, ∃ marker,
    counter.category.marker? event.code = some marker
  finite : ∀ event ∈ counter.events, Scalar.isFinite event.time = true
  ordered : (counter.events.map Event.time).IsChain fun earlier time =>
    Scalar.lt time earlier = false
  colored : ∀ index ∈ counter.category.openings counter.events, ∀ event marker,
    counter.events[index]? = some event → counter.category.marker? event.code = some marker →
      ∃ color, palette.Assigns marker.name color

theorem intervals_ok_iff (counter : Counter α) (palette : Palette)
    (intervals : List (Interval α)) : counter.intervals palette = .ok intervals ↔
      counter.Sound palette ∧ List.Forall₂ (counter.OpenedAt palette counter.events)
        (counter.category.openings counter.events) intervals := by
  simp only [Counter.intervals, check_bind_ok_iff, check_ok_iff]
  constructor
  · rintro ⟨⟨resolved, finite, ordered⟩, traversed⟩
    have described := (intervalsOf_ok_iff _ _ _ _ resolved).mp traversed
    refine ⟨⟨resolved, finite, ordered, ?_⟩, described⟩
    -- Every opening has a color because its interval has one.
    intro index member event marker found known
    obtain ⟨interval, _, event', _, marker', found', _, known', _, _, _, _, _, assigned⟩ :=
      forall₂_exists described index member
    obtain rfl : event = event' := by simpa [found] using found'
    obtain rfl : marker = marker' := by simpa [known] using known'
    exact ⟨_, assigned⟩
  · rintro ⟨sound, described⟩
    exact ⟨⟨sound.resolved, sound.finite, sound.ordered⟩,
      (intervalsOf_ok_iff _ _ _ _ sound.resolved).mpr described⟩

/-- A counter fails with the first event at fault, and where none is, with the first opening whose
name has no color. -/
theorem intervals_error_iff (counter : Counter α) (palette : Palette) (problem : Problem α) :
    counter.intervals palette = .error problem ↔
      (∃ index, counter.Offence index problem ∧ ∀ earlier < index, ¬counter.Offends earlier) ∨
      (∀ index, ¬counter.Offends index) ∧ ∃ index name,
        counter.Uncolored palette counter.events index name ∧
        (∀ earlier < index, ∀ other, ¬counter.Uncolored palette counter.events earlier other) ∧
        problem = .unknownColor name := by
  rw [Counter.intervals, bind_error_iff, check_error_iff]
  simp only [← check_ok_iff_not_offends]
  refine or_congr_right ?_
  -- The colors only matter once every code is known to have a marker.
  constructor
  · rintro ⟨_, passed, failed⟩
    have resolved := ((check_ok_iff counter).mp passed).1
    exact ⟨passed, (intervalsOf_error_iff _ _ _ _ resolved).mp failed⟩
  · rintro ⟨passed, failed⟩
    have resolved := ((check_ok_iff counter).mp passed).1
    exact ⟨(), passed, (intervalsOf_error_iff _ _ _ _ resolved).mpr failed⟩

/-- The problems of a counter, each with what it takes for it to arise. -/
theorem intervals_error (counter : Counter α) (palette : Palette) (problem : Problem α)
    (failed : counter.intervals palette = .error problem) :
    (∃ code, problem = .unknownEvent counter.category code) ∨
      (∃ event ∈ counter.events, Scalar.isFinite event.time = false ∧
        ∃ index, problem = .nonFiniteTime counter.name index) ∨
      (∃ index previous time, problem = .decreasingTime counter.name index previous time) ∨
      (∃ index ∈ counter.category.openings counter.events, ∃ event marker,
        counter.events[index]? = some event ∧
        counter.category.marker? event.code = some marker ∧ marker.boundary = false ∧
        palette.color? marker.name = none ∧ problem = .unknownColor marker.name) := by
  rcases (counter.intervals_error_iff palette problem).mp failed with
    ⟨index, offence, _⟩ | ⟨_, index, _, ⟨event, next, marker, found, after, known, work, rfl,
      uncolored⟩, _, rfl⟩
  · cases offence with
    | unknownEvent => exact Or.inl ⟨_, rfl⟩
    | nonFiniteTime found _ infinite =>
      exact Or.inr (Or.inl ⟨_, List.mem_of_getElem? found, infinite, index, rfl⟩)
    | decreasingTime => exact Or.inr (Or.inr (Or.inl ⟨index, _, _, rfl⟩))
  · have opening := (Category.mem_openings_iff counter.category counter.events index).mpr
      ⟨event, next, marker, found, after, known, work⟩
    exact Or.inr (Or.inr (Or.inr
      ⟨index, opening, event, marker, found, known, work, uncolored, rfl⟩))

/-- Nothing but a defect of the counter or of the palette keeps the intervals back. -/
theorem Sound.exists_intervals {counter : Counter α} {palette : Palette}
    (sound : counter.Sound palette) : ∃ intervals, counter.intervals palette = .ok intervals := by
  have passed := (check_ok_iff counter).mpr ⟨sound.resolved, sound.finite, sound.ordered⟩
  simp only [Counter.intervals, passed, ok_bind, exists_ok_iff]
  intro problem failed
  obtain ⟨index, name, ⟨event, next, marker, found, after, known, work, rfl, uncolored⟩, _⟩ :=
    (intervalsOf_error_iff _ _ _ _ sound.resolved).mp failed
  have opening := (Category.mem_openings_iff counter.category counter.events index).mpr
    ⟨event, next, marker, found, after, known, work⟩
  obtain ⟨color, assigned⟩ := sound.colored index opening event marker found known
  rw [(palette.color?_eq_some_iff _ _).mpr assigned] at uncolored
  cases uncolored

/-! ### Times -/

section Times

variable [OrderedScalar α] {counter : Counter α} {palette : Palette}

/-- Of the times of a sound counter, an earlier one is at most a later one. -/
theorem Sound.times_ordered (sound : counter.Sound palette) :
    (counter.events.map Event.time).Pairwise fun earlier time =>
      Scalar.le earlier time = true := by
  have number : ∀ time ∈ counter.events.map Event.time, Scalar.le time time = true := by
    intro time member
    obtain ⟨event, included, rfl⟩ := List.mem_map.mp member
    exact OrderedScalar.number_of_finite (sound.finite event included)
  have chained : (counter.events.map Event.time).IsChain fun earlier time =>
      Scalar.le earlier time = true := by
    apply sound.ordered.imp_of_mem_imp
    intro earlier time first second notBelow
    exact Scalar.le_of_not_lt (number _ second) (number _ first) notBelow
  have transitive : IsTrans α fun earlier time => Scalar.le earlier time = true :=
    ⟨fun _ _ _ => OrderedScalar.le_trans⟩
  exact chained.pairwise

theorem Sound.time_le (sound : counter.Sound palette) {index later : Nat} {event next : Event α}
    (ordered : index ≤ later) (first : counter.events[index]? = some event)
    (second : counter.events[later]? = some next) : Scalar.le event.time next.time = true := by
  rcases ordered.eq_or_lt with rfl | less
  · obtain rfl : event = next := by simpa [first] using second
    exact OrderedScalar.number_of_finite (sound.finite event (List.mem_of_getElem? first))
  · obtain ⟨_, rfl⟩ := List.getElem?_eq_some_iff.mp first
    obtain ⟨_, rfl⟩ := List.getElem?_eq_some_iff.mp second
    exact List.pairwise_iff_getElem.mp (List.pairwise_map.mp sound.times_ordered) _ _ _ _ less

theorem Sound.duration_nonneg (sound : counter.Sound palette) {index : Nat}
    {interval : Interval α} (opened : counter.OpenedAt palette counter.events index interval) :
    Scalar.le 0.0 interval.duration = true := by
  obtain ⟨event, next, _, found, after, _, _, _, _, duration, _⟩ := opened
  rw [duration]
  exact OrderedScalar.zero_le_sub (sound.finite event (List.mem_of_getElem? found))
    (sound.finite next (List.mem_of_getElem? after)) (sound.time_le (by omega) found after)

/-- An event that is not after the opening of an interval is at most its start. -/
theorem Sound.time_le_start (sound : counter.Sound palette) {index later : Nat} {event : Event α}
    {interval : Interval α} (ordered : index ≤ later)
    (found : counter.events[index]? = some event)
    (opened : counter.OpenedAt palette counter.events later interval) :
    Scalar.le event.time interval.start = true := by
  obtain ⟨opening, _, _, foundLater, _, _, _, _, start, _⟩ := opened
  rw [start]
  exact sound.time_le ordered found foundLater

/-- The intervals of a counter start one after the other, and none is shorter than zero. -/
theorem times_of_intervals {intervals : List (Interval α)}
    (returned : counter.intervals palette = .ok intervals) :
    (intervals.Pairwise fun interval later => Scalar.le interval.start later.start = true) ∧
      ∀ interval ∈ intervals, Scalar.le 0.0 interval.duration = true := by
  obtain ⟨sound, described⟩ := (intervals_ok_iff _ _ _).mp returned
  constructor
  · obtain ⟨length, opened⟩ := List.forall₂_iff_get.mp described
    rw [List.pairwise_iff_getElem]
    intro place later below laterBelow less
    obtain ⟨_, _, _, found, _, _, _, _, start, _⟩ := opened place (by omega) below
    have sorted := List.pairwise_iff_getElem.mp (counter.category.openings_sorted counter.events)
      place later (by omega) (by omega) less
    have ordered := sound.time_le_start sorted.le found (opened later (by omega) laterBelow)
    rwa [← start] at ordered
  · intro interval member
    obtain ⟨index, _, opened⟩ := forall₂_exists described.flip interval member
    exact sound.duration_nonneg opened

end Times

/-! ### Intervals in binary64 -/

/-- The intervals of a counter exist exactly if it is sound. They are then those of its opening
indices, in order: none is shorter than zero, they start one after the other, and an interval is
closed before a later one starts. -/
theorem intervals_at_openings (counter : Counter Binary64) (palette : Palette) :
    ((∃ intervals, counter.intervals palette = .ok intervals) ↔ counter.Sound palette) ∧
    ∀ intervals, counter.intervals palette = .ok intervals →
      List.Forall₂ (counter.OpenedAt palette counter.events)
        (counter.category.openings counter.events) intervals ∧
      (∀ interval ∈ intervals, (Binary64.zero false).le interval.duration = true) ∧
      (intervals.Pairwise fun interval later => interval.start.le later.start = true) ∧
      (((counter.category.openings counter.events).zip intervals).Pairwise fun opened later =>
        ∀ closing, counter.events[opened.1 + 1]? = some closing →
          closing.time.le later.2.start = true) ∧
      (∀ index ∈ counter.category.openings counter.events, index + 1 < counter.events.length) ∧
      (counter.events.length < 2 → intervals = []) ∧
      ((∀ event ∈ counter.events, ∀ marker,
        counter.category.marker? event.code = some marker → marker.boundary = true) →
          intervals = []) := by
  refine ⟨⟨?_, Sound.exists_intervals⟩, ?_⟩
  · rintro ⟨intervals, returned⟩
    exact ((intervals_ok_iff _ _ _).mp returned).1
  intro intervals returned
  obtain ⟨sound, described⟩ := (intervals_ok_iff _ _ _).mp returned
  have length := described.length_eq
  -- Each interval stands beside its index, whose order carries over to the times.
  have paired : ((counter.category.openings counter.events).zip intervals).Pairwise
      fun opened later => opened.1 < later.1 := by
    rw [← List.pairwise_map, List.map_fst_zip length.le]
    exact counter.category.openings_sorted counter.events
  have opened_at {pair : Nat × Interval Binary64}
      (member : pair ∈ (counter.category.openings counter.events).zip intervals) :
      counter.OpenedAt palette counter.events pair.1 pair.2 :=
    List.forall₂_zip described member
  have none_opened (empty : counter.category.openings counter.events = []) : intervals = [] := by
    rw [empty] at described
    exact List.forall₂_nil_left_iff.mp described
  refine ⟨described, ?_, ?_, ?_, counter.category.openings_below counter.events, ?_, ?_⟩
  · intro interval member
    obtain ⟨index, _, opened⟩ := forall₂_exists described.flip interval member
    exact sound.duration_nonneg opened
  · rw [← List.map_snd_zip length.ge, List.pairwise_map]
    apply paired.imp_of_mem
    intro opened later first second less
    obtain ⟨_, _, _, found, _, _, _, _, start, _⟩ := opened_at first
    rw [start]
    exact sound.time_le_start less.le found (opened_at second)
  · apply paired.imp_of_mem
    intro opened later _ second less closing closed
    exact sound.time_le_start less closed (opened_at second)
  · intro short
    exact none_opened (counter.category.openings_of_short counter.events short)
  · intro boundaries
    exact none_opened (counter.category.openings_of_boundaries counter.events boundaries)

end Counter

end TraceChart
