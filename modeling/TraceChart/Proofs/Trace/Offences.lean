import TraceChart.Proofs.Trace.Intervals

/-!
# Which problem of a counter is reported

A counter can have many problems at once and one is reported. It is one of the first event at fault,
and of that event the first thing that is wrong. Only a counter without such events can lack a
color, and then it is the first opening without one that counts. So colors matter last, and those of
boundary markers and of the last event not at all.
-/

namespace TraceChart.Counter

variable {counter : Counter Binary64} {palette : Palette}

/-- The first event at fault settles the outcome, whatever the palette. -/
theorem intervals_of_first_offence {index : Nat} {problem : Problem Binary64}
    (offence : counter.Offence index problem) (first : ∀ earlier < index, ¬counter.Offends earlier)
    (palette : Palette) : counter.intervals palette = .error problem :=
  (counter.intervals_error_iff palette problem).mpr (Or.inl ⟨index, offence, first⟩)

theorem intervals_error_iff_of_sound (sound : ∀ index, ¬counter.Offends index)
    (palette : Palette) (problem : Problem Binary64) :
    counter.intervals palette = .error problem ↔ ∃ index name,
      counter.Uncolored palette counter.events index name ∧
      (∀ earlier < index, ∀ other, ¬counter.Uncolored palette counter.events earlier other) ∧
      problem = .unknownColor name := by
  rw [intervals_error_iff]
  constructor
  · rintro (⟨index, offence, _⟩ | ⟨_, uncolored⟩)
    · exact absurd ((counter.offends_iff index).mpr ⟨problem, offence⟩) (sound index)
    · exact uncolored
  · exact fun uncolored => Or.inr ⟨sound, uncolored⟩

theorem Offence.ne_unknownColor {index : Nat} {problem : Problem Binary64}
    (offence : counter.Offence index problem) (name : String) : problem ≠ .unknownColor name := by
  cases offence <;> exact nofun

/-- The problem that is reported is that of the first event at fault: its code has no marker, or
else its time is not finite, or else it lies before the event that precedes it, and with such an
event no palette makes a difference. Without one, the first event of work but the last whose name
has no color is reported, and where there is none either, the counter has its intervals. -/
theorem problem_of_events (counter : Counter Binary64) (palette : Palette) :
    (∀ index event, counter.Offends index → (∀ earlier < index, ¬counter.Offends earlier) →
      counter.events[index]? = some event →
        (counter.category.marker? event.code = none →
          counter.intervals palette = .error (.unknownEvent counter.category event.code)) ∧
        (counter.category.marker? event.code ≠ none → event.time.isFinite = false →
          counter.intervals palette = .error (.nonFiniteTime counter.name index)) ∧
        (counter.category.marker? event.code ≠ none → event.time.isFinite = true →
          ∃ previous, 0 < index ∧ counter.events[index - 1]? = some previous ∧
            event.time.lt previous.time = true ∧ counter.intervals palette =
              .error (.decreasingTime counter.name index previous.time event.time))) ∧
    (∀ index, counter.Offends index → ∃ problem, (∀ name, problem ≠ .unknownColor name) ∧
      ∀ other, counter.intervals other = .error problem) ∧
    ((∀ index, ¬counter.Offends index) →
      (∀ problem, counter.intervals palette = .error problem ↔ ∃ index name,
        counter.Uncolored palette counter.events index name ∧
        (∀ earlier < index, ∀ other, ¬counter.Uncolored palette counter.events earlier other) ∧
        problem = .unknownColor name) ∧
      ((∀ index name, ¬counter.Uncolored palette counter.events index name) →
        ∃ intervals, counter.intervals palette = .ok intervals)) := by
  refine ⟨?_, ?_, fun sound => ⟨intervals_error_iff_of_sound sound palette, fun colored => ?_⟩⟩
  · intro index event offends first found
    obtain ⟨problem, offence⟩ := (counter.offends_iff index).mp offends
    have reported := intervals_of_first_offence offence first palette
    -- Each kind of offence says which of the three cases it is.
    cases offence with
    | unknownEvent also unmarked =>
      obtain rfl := Option.some.inj (found.symm.trans also)
      exact ⟨fun _ => reported, fun marked => absurd unmarked marked,
        fun marked => absurd unmarked marked⟩
    | nonFiniteTime also marked infinite =>
      obtain rfl := Option.some.inj (found.symm.trans also)
      refine ⟨fun unmarked => ?_, fun _ _ => reported, fun _ finite => ?_⟩
      · rw [marked] at unmarked
        cases unmarked
      · exact absurd (finite.symm.trans infinite) (by decide)
    | decreasingTime later before also marked finite below =>
      obtain rfl := Option.some.inj (found.symm.trans also)
      refine ⟨fun unmarked => ?_, fun _ infinite => ?_,
        fun _ _ => ⟨_, later, before, below, reported⟩⟩
      · rw [marked] at unmarked
        cases unmarked
      · exact absurd (infinite.symm.trans finite) (by decide)
  · intro index offends
    obtain ⟨first, problem, offence, least⟩ := counter.exists_first_offence offends
    exact ⟨problem, offence.ne_unknownColor, intervals_of_first_offence offence least⟩
  · rw [exists_ok_iff]
    intro problem failed
    obtain ⟨index, name, uncolored, _⟩ :=
      (intervals_error_iff_of_sound sound palette problem).mp failed
    exact colored index name uncolored

/-- Without any colors, a counter whose second event is too early and whose third has neither a
marker nor a time. -/
theorem problem_of_early_event :
    let counter : Counter Binary64 := ⟨"m", .memoryUnit, [⟨0.5, 2⟩, ⟨0.25, 2⟩, ⟨.nan, 9⟩]⟩
    counter.Offends 1 ∧ (∀ earlier < 1, ¬counter.Offends earlier) ∧ counter.Offends 2 ∧
      counter.intervals ⟨[]⟩ = .error (.decreasingTime "m" 1 0.5 0.25) := by
  intro counter
  have offends : counter.Offends 1 :=
    ⟨_, rfl, Or.inr (Or.inr ⟨_, by decide, rfl, by decide⟩)⟩
  have first : ∀ earlier < 1, ¬counter.Offends earlier := by
    intro earlier below
    obtain rfl : earlier = 0 := by omega
    rintro ⟨event, found, unmarked | infinite | ⟨_, later, _⟩⟩
    · cases found
      cases unmarked
    · cases found
      exact absurd infinite (by decide)
    · omega
  obtain ⟨_, _, decreasing⟩ := (problem_of_events counter ⟨[]⟩).1 1 _ offends first rfl
  obtain ⟨previous, _, before, _, reported⟩ := decreasing (by decide) (by decide)
  cases before
  exact ⟨offends, first, ⟨_, rfl, Or.inl rfl⟩, reported⟩

end TraceChart.Counter
