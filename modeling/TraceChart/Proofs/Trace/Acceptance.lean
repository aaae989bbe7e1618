import TraceChart.Proofs.Chart.Assembly
import TraceChart.Proofs.Trace.Shape

/-!
# What accepted traces cannot do

A trace that is read has distinct names and finite times, and the standard palette has a color for
every marker of work. What is left to go wrong with its timeline is what the trace itself says: an
event whose code has no marker, or one that lies before the event that precedes it.
-/

namespace TraceChart

/-! ### Times that are read -/

variable {convert : Conversion} {value : Json.Value}

theorem TimeForm.finite {time : Binary64} (form : TimeForm convert time value) :
    time.isFinite = true := by
  cases form with
  | number finite => exact finite

theorem EventForm.finite {draft : DraftEvent} (form : EventForm convert draft value) :
    draft.time.isFinite = true := by
  cases form with
  | object _ _ _ _ timeForm => exact timeForm.finite
  | array _ timeForm => exact timeForm.finite

/-- All times of a draft are finite. -/
def DraftCounter.Finite (draft : DraftCounter) : Prop :=
  ∀ event ∈ draft.events, event.time.isFinite = true

theorem EventsForm.finite {drafts : List DraftEvent} (form : EventsForm convert drafts value) :
    ∀ draft ∈ drafts, draft.time.isFinite = true := by
  cases form with
  | array each =>
    intro draft member
    obtain ⟨_, _, eventForm⟩ := forall₂_exists each draft member
    exact eventForm.finite

theorem CounterForm.finite {draft : DraftCounter} (form : CounterForm convert draft value) :
    draft.Finite := by
  cases form with
  | object _ _ _ _ eventsForm => exact eventsForm.finite
  | array _ eventsForm => exact eventsForm.finite
  | objectWithoutEvents => exact List.forall_mem_nil _
  | arrayWithoutEvents => exact List.forall_mem_nil _

/-- The drafts of a document have distinct names, also where the document repeats one. -/
theorem drafts_of_draftsOfJson {drafts : Roster String DraftCounter}
    (read : draftsOfJson? convert value = some drafts) :
    (drafts.map Prod.fst).Nodup ∧ ∀ entry ∈ drafts, entry.2.Finite := by
  rw [draftsOfJson?_eq_some_iff] at read
  cases read with
  | object each collected =>
    refine ⟨collected.nodup, ?_⟩
    intro entry member
    obtain ⟨before, after, rfl, _⟩ := collected.latest entry member
    obtain ⟨_, _, _, counterForm⟩ := forall₂_exists each entry (by simp)
    exact counterForm.finite

/-! ### Times that are resolved -/

theorem DraftEvent.time_of_resolve {draft : DraftEvent} {track : String} {event : Event Binary64}
    (resolved : draft.resolve track = .ok event) : event.time = draft.time := by
  obtain ⟨_, _, returned⟩ := (bind_ok_iff _ _ _).mp resolved
  cases returned
  rfl

theorem DraftCounter.finite_of_resolve {draft : DraftCounter} {track : String}
    {counter : Counter Binary64} (finite : draft.Finite)
    (resolved : draft.resolve track = .ok counter) :
    ∀ event ∈ counter.events, event.time.isFinite = true := by
  unfold DraftCounter.resolve at resolved
  obtain ⟨code, _, resolved⟩ := (bind_ok_iff _ _ _).mp resolved
  split at resolved
  · cases resolved
  · obtain ⟨events, traversed, returned⟩ := (bind_ok_iff _ _ _).mp resolved
    cases returned
    intro event member
    obtain ⟨origin, present, found⟩ :=
      forall₂_exists ((mapM_ok_iff _ _ _).mp traversed).flip event member
    rw [DraftEvent.time_of_resolve found]
    exact finite origin present

/-- The counters of a trace have distinct names and finite times. -/
theorem counters_of_readTrace {bytes : List UInt8} {counters : List (Counter Binary64)}
    (accepted : readTrace convert bytes = .ok counters) :
    (counters.map Counter.name).Nodup ∧
      ∀ counter ∈ counters, ∀ event ∈ counter.events, event.time.isFinite = true := by
  unfold readTrace countersOfJson at accepted
  split at accepted
  · cases accepted
  · split at accepted
    · cases accepted
    · case h_2 drafts read =>
      obtain ⟨distinct, finite⟩ := drafts_of_draftsOfJson read
      refine ⟨by rwa [names_of_resolve accepted], ?_⟩
      intro counter member
      obtain ⟨entry, present, resolved⟩ :=
        forall₂_exists ((mapM_ok_iff _ _ _).mp accepted).flip counter member
      exact DraftCounter.finite_of_resolve (finite entry present) resolved

/-! ### The standard palette -/

/-- The standard palette has a color for every marker that opens intervals. -/
theorem Palette.standard_colors_work (category : Category) (marker : Marker)
    (member : marker ∈ category.markers) (work : marker.boundary = false) :
    Palette.standard.color? marker.name ≠ none := by
  revert marker
  cases category <;> decide

theorem Category.mem_markers {category : Category} {code : Int} {marker : Marker}
    (found : category.marker? code = some marker) : marker ∈ category.markers := by
  unfold Category.marker? at found
  split at found
  · exact List.mem_of_getElem? found
  · cases found

/-! ### Timelines -/

/-- A problem of an event: its code has no marker, or it lies before the event that precedes it. -/
inductive EventProblem {α : Type} (counter : Counter α) : Problem α → Prop
  | unknown (code : Int) : EventProblem counter (.unknownEvent counter.category code)
  | early (index : Nat) (previous time : α) :
      EventProblem counter (.decreasingTime counter.name index previous time)

theorem Counter.intervals_standard_error {counter : Counter Binary64} {problem : Problem Binary64}
    (finite : ∀ event ∈ counter.events, event.time.isFinite = true)
    (failed : counter.intervals .standard = .error problem) : EventProblem counter problem := by
  -- Of the four kinds of problems, finite times and the palette rule out one each.
  rcases counter.intervals_error .standard problem failed with
    ⟨code, rfl⟩ | ⟨event, member, infinite, _⟩ | ⟨index, previous, time, rfl⟩ |
    ⟨_, _, _, marker, _, known, work, uncolored, _⟩
  · exact .unknown code
  · exact absurd ((finite event member).symm.trans infinite) (by decide)
  · exact .early index previous time
  · exact absurd uncolored
      (Palette.standard_colors_work _ marker (Category.mem_markers known) work)

/-- A trace that is accepted has distinct names and finite times. Its timeline in the standard
palette exists, or else an event of it is at fault: no name is registered twice or not at all, and
no category, color or infinite time is in its way. -/
theorem problems_of_accepted (convert : Conversion) (bytes : List UInt8)
    (counters : List (Counter Binary64)) (accepted : readTrace convert bytes = .ok counters) :
    (counters.map Counter.name).Nodup ∧
    (∀ counter ∈ counters, ∀ event ∈ counter.events, event.time.isFinite = true) ∧
    ((∃ timeline, Timeline.ofCounters .standard counters = .ok timeline) ∨
      ∃ counter ∈ counters, ∃ problem, EventProblem counter problem ∧
        Timeline.ofCounters .standard counters = .error problem) := by
  obtain ⟨distinct, finite⟩ := counters_of_readTrace accepted
  refine ⟨distinct, finite, ?_⟩
  cases built : Timeline.ofCounters .standard counters with
  | ok timeline => exact Or.inl ⟨timeline, rfl⟩
  | error problem =>
    obtain ⟨before, counter, after, split, _, refused⟩ :=
      (Timeline.ofCounters_error_iff _ _ distinct _).mp built
    have member : counter ∈ counters := by simp [split]
    exact Or.inr ⟨counter, member, problem,
      Counter.intervals_standard_error (finite counter member) refused, rfl⟩

/-- A trace that repeats a name and has a code without a marker. -/
theorem problems_of_repeated_name :
    ∃ counters, readTrace .stepwise
        "\x7b\"b\": [0, []], \"a\": [3], \"b\": [2, [[2, 0.5], [9, 1.5]]]\x7d".toUTF8.toList =
      .ok counters ∧
    (counters.map Counter.name).Nodup ∧
    (∀ counter ∈ counters, ∀ event ∈ counter.events, event.time.isFinite = true) ∧
    ((∃ timeline, Timeline.ofCounters .standard counters = .ok timeline) ∨
      ∃ counter ∈ counters, ∃ problem, EventProblem counter problem ∧
        Timeline.ofCounters .standard counters = .error problem) := by
  have accepted : readTrace .stepwise
      "\x7b\"b\": [0, []], \"a\": [3], \"b\": [2, [[2, 0.5], [9, 1.5]]]\x7d".toUTF8.toList =
      .ok [⟨"b", .memoryUnit, [⟨0.5, 2⟩, ⟨1.5, 9⟩]⟩, ⟨"a", .computeUnit, []⟩] := by
    decide +kernel
  exact ⟨_, accepted, problems_of_accepted .stepwise _ _ accepted⟩

end TraceChart
