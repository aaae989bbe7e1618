import TraceChart.Proofs.Chart.Assembly
import TraceChart.Proofs.Chart.Extent
import TraceChart.Proofs.Number.Monotone
import TraceChart.Proofs.Trace.Intervals

/-!
# Windows of binary64 timelines

The intervals of a counter start at finite times and never run backwards. But where two events are
too far apart for a number, the interval between them has no finite end, and the timeline then has
zero for its own end. Where all ends are finite, the window that is shown at first covers every
interval. It has a length as well, unless nothing has one and a second is too little to be noticed
beside the start.
-/

namespace TraceChart

open Binary64

/-! ### Ends of intervals -/

/-- An interval between two events, and what becomes of its times in binary64: the duration is
finite unless the events are too far apart, and the end is finite unless the duration is not or
carries it too far. -/
structure Interval.Spans (interval : Interval Binary64) (event next : Event Binary64) : Prop where
  start : interval.start = event.time
  duration : interval.duration = next.time - event.time
  start_finite : interval.start.isFinite = true
  next_finite : next.time.isFinite = true
  duration_nonneg : (0.0 : Binary64).le interval.duration = true
  start_le_finish : interval.start.le interval.finish = true
  duration_finite : interval.duration.isFinite = true ↔
    next.time.value - event.time.value < overflowLimit
  finish_finite : interval.finish.isFinite = true ↔ interval.duration.isFinite = true ∧
    interval.start.value + interval.duration.value < overflowLimit

theorem Interval.spans {interval : Interval Binary64} {event next : Event Binary64}
    (first : event.time.isFinite = true) (second : next.time.isFinite = true)
    (ordered : event.time.le next.time = true) (start : interval.start = event.time)
    (duration : interval.duration = next.time - event.time) : interval.Spans event next := by
  have nonneg : (0.0 : Binary64).le interval.duration = true := by
    rw [duration]
    exact zero_le_sub _ _ first second ordered
  have startFinite : interval.start.isFinite = true := by rwa [start]
  refine ⟨start, duration, startFinite, second, nonneg, le_add_of_zero_le startFinite nonneg,
    ?_, ?_⟩
  · have values := (le_iff_value_le _ _ first second).mp ordered
    rw [duration, (rounded_sub second first).isFinite_iff, abs_of_nonneg (sub_nonneg.mpr values)]
  · have sum (finite : interval.duration.isFinite = true) : interval.finish.isFinite = true ↔
        interval.start.value + interval.duration.value < overflowLimit := by
      -- From below the limit cannot be passed, since the sum is not less than the start.
      have least := (abs_lt.mp (abs_value_lt startFinite)).1
      have longer := (zero_le_iff finite).mp nonneg
      have above : -overflowLimit < interval.start.value + interval.duration.value := by linarith
      rw [Interval.finish, (rounded_add startFinite finite).isFinite_iff, abs_lt]
      exact and_iff_right above
    constructor
    · intro finite
      have durationFinite := (isFinite_of_add finite).2
      exact ⟨durationFinite, (sum durationFinite).mp finite⟩
    · rintro ⟨durationFinite, below⟩
      exact (sum durationFinite).mpr below

/-- Each interval of a counter spans two neighbouring events. -/
theorem Counter.spans_of_intervals {counter : Counter Binary64} {palette : Palette}
    {intervals : List (Interval Binary64)} (returned : counter.intervals palette = .ok intervals) :
    ∀ interval ∈ intervals, ∃ index event next, counter.events[index]? = some event ∧
      counter.events[index + 1]? = some next ∧ interval.Spans event next := by
  obtain ⟨sound, described⟩ := (intervals_ok_iff _ _ _).mp returned
  intro interval member
  obtain ⟨index, _, opened⟩ := forall₂_exists described.flip interval member
  obtain ⟨event, next, _, found, after, _, _, _, start, duration, _⟩ := opened
  exact ⟨index, event, next, found, after, Interval.spans
    (sound.finite event (List.mem_of_getElem? found))
    (sound.finite next (List.mem_of_getElem? after))
    (sound.time_le (by omega) found after) start duration⟩

namespace Timeline

variable {palette : Palette} {counters : List (Counter Binary64)} {timeline : Timeline Binary64}

theorem spans_of_built (built : ofCounters palette counters = .ok timeline) :
    ∀ interval ∈ timeline.intervals, ∃ event next, interval.Spans event next := by
  intro interval member
  obtain ⟨track, listed, included⟩ := List.mem_flatMap.mp member
  obtain ⟨counter, _, _, returned⟩ :=
    forall₂_exists ((ofCounters_ok_iff _ _ _).mp built).2.flip track listed
  obtain ⟨_, event, next, _, _, spans⟩ := Counter.spans_of_intervals returned interval included
  exact ⟨event, next, spans⟩

end Timeline

/-- The ends are finite between times that are at most half as great as a number can be. -/
theorem Interval.Spans.finite_of_moderate {interval : Interval Binary64}
    {event next : Event Binary64} (spans : interval.Spans event next)
    (first : |event.time.value| ≤ 2 ^ 1022) (second : |next.time.value| ≤ 2 ^ 1022) :
    interval.duration.isFinite = true ∧ interval.finish.isFinite = true := by
  have limit := three_quarters_lt_limit
  obtain ⟨half, halfFinite, halfValue⟩ := exists_half_range
  generalize (2 : ℚ) ^ 1022 = quarter at *
  obtain ⟨earliest, latest⟩ := abs_le.mp first
  obtain ⟨nextEarliest, nextLatest⟩ := abs_le.mp second
  have startFinite := spans.start_finite
  have durationFinite := spans.duration_finite.mpr (by linarith)
  -- The duration is rounded to no more than the half of the range that bounds it exactly.
  have shorter : interval.duration.value ≤ half.value := by
    rw [← le_iff_value_le _ _ durationFinite halfFinite, spans.duration]
    exact (rounds_sub spans.next_finite (spans.start ▸ startFinite)).below half halfFinite
      (by linarith)
  refine ⟨durationFinite, spans.finish_finite.mpr ⟨durationFinite, ?_⟩⟩
  rw [spans.start]
  linarith

namespace Timeline

/-- Intervals never run backwards, and their ends are finite between moderate times. A timeline
begins no later than any of its intervals; it ends no earlier than each of them exactly if all of
them end at finite times. -/
theorem ends_of_counters (palette : Palette) :
    (∀ (counter : Counter Binary64) (intervals : List (Interval Binary64)),
      counter.intervals palette = .ok intervals → ∀ interval ∈ intervals, ∃ index event next,
        counter.events[index]? = some event ∧ counter.events[index + 1]? = some next ∧
        interval.Spans event next ∧
        (|event.time.value| ≤ 2 ^ 1022 → |next.time.value| ≤ 2 ^ 1022 →
          interval.duration.isFinite = true ∧ interval.finish.isFinite = true)) ∧
    ∀ (counters : List (Counter Binary64)) (timeline : Timeline Binary64),
      ofCounters palette counters = .ok timeline →
        (∀ interval ∈ timeline.intervals, timeline.startTime.le interval.start = true) ∧
        ((∀ interval ∈ timeline.intervals, interval.finish.le timeline.endTime = true) ↔
          ∀ interval ∈ timeline.intervals, interval.finish.isFinite = true) := by
  constructor
  · intro counter intervals returned interval member
    obtain ⟨index, event, next, found, after, spans⟩ :=
      Counter.spans_of_intervals returned interval member
    exact ⟨index, event, next, found, after, spans, spans.finite_of_moderate⟩
  · intro counters timeline built
    have spans := spans_of_built built
    refine ⟨startTime_le fun interval member => ?_, fun covered interval member => ?_, le_endTime⟩
    · obtain ⟨_, _, spanned⟩ := spans interval member
      exact spanned.start_finite
    · -- What lies between a finite start and the finite end of the timeline is finite.
      obtain ⟨_, _, spanned⟩ := spans interval member
      exact isFinite_between spanned.start_finite timeline.finite_endTime
        spanned.start_le_finish (covered interval member)

/-- A track that begins before zero and ends with an interval of no length. -/
theorem ends_of_early_counter :
    let counter : Counter Binary64 :=
      ⟨"SU", .schedulingUnit, [⟨-2.0, 2⟩, ⟨1.5, 3⟩, ⟨1.5, 1⟩]⟩
    ∃ intervals timeline, counter.intervals .standard = .ok intervals ∧
      ofCounters .standard [counter] = .ok timeline ∧ intervals.length = 2 ∧
      (∀ interval ∈ intervals, ∃ event next, interval.Spans event next) ∧
      (∀ interval ∈ timeline.intervals, interval.finish.isFinite = true) ∧
      ∀ interval ∈ timeline.intervals, interval.finish.le timeline.endTime = true := by
  intro counter
  refine ⟨_, _, rfl, rfl, rfl, fun interval member => ?_, by decide +kernel, ?_⟩
  · obtain ⟨_, event, next, _, _, spans, _⟩ :=
      (ends_of_counters .standard).1 counter _ rfl interval member
    exact ⟨event, next, spans⟩
  · exact ((ends_of_counters .standard).2 [counter] _ rfl).2.mpr (by decide +kernel)

/-- Two events with more between them than a number can hold. -/
def farApart : Counter Binary64 :=
  ⟨"SU", .schedulingUnit, [⟨-1.5e308, 2⟩, ⟨1.5e308, 1⟩]⟩

/-- Two events with a duration that is rounded up, and then carries the start beyond the greatest
number, at which the second event stands. -/
def carriedOver : Counter Binary64 :=
  ⟨"SU", .schedulingUnit, [⟨2.9937604643020797e292, 2⟩, ⟨1.7976931348623157e308, 1⟩]⟩

/-- Either way the timeline has zero for its end. -/
theorem ends_of_distant_events :
    (∃ timeline, ofCounters .standard [farApart] = .ok timeline ∧
      ∃ interval ∈ timeline.intervals, interval.duration.isFinite = false ∧
        interval.finish.le timeline.endTime = false) ∧
    ∃ timeline, ofCounters .standard [carriedOver] = .ok timeline ∧
      ∃ interval ∈ timeline.intervals, interval.duration.isFinite = true ∧
        interval.finish.isFinite = false ∧ interval.finish.le timeline.endTime = false := by
  constructor
  · refine ⟨⟨[⟨"SU", [⟨"SU", -1.5e308, .infinite false, "FETCH_DECODE_INSTRUCTION",
      "mediumblue"⟩]⟩]⟩, by decide +kernel, by decide +kernel⟩
  · refine ⟨⟨[⟨"SU", [⟨"SU", 2.9937604643020797e292, 1.7976931348623155e308,
      "FETCH_DECODE_INSTRUCTION", "mediumblue"⟩]⟩]⟩, by decide +kernel, by decide +kernel⟩

/-! ### The window -/

section Window

variable (timeline : Timeline Binary64)

theorem window_start : timeline.window.1 = Scalar.smaller timeline.startTime 0.0 := by
  unfold window
  dsimp only
  split <;> rfl

theorem window_start_finite : timeline.window.1.isFinite = true := by
  rw [window_start]
  exact Scalar.finite_smaller timeline.finite_startTime rfl

theorem window_start_nonpos : timeline.window.1.le 0.0 = true := by
  rw [window_start]
  exact Scalar.smaller_le_right timeline.startTime (by decide : Scalar.le (0.0 : Binary64) 0.0 = true)

/-- Either the end of the timeline comes after the start of the window and ends it, or it does not
and the window ends a second after its start. -/
theorem window_finish :
    timeline.window.1.value < timeline.endTime.value ∧ timeline.window.2 = timeline.endTime ∨
      timeline.endTime.value ≤ timeline.window.1.value ∧
        timeline.window.2 = timeline.window.1 + 1.0 := by
  have later := lt_iff_value_lt timeline.window_start_finite timeline.finite_endTime
  rw [window_start] at later ⊢
  unfold window
  dsimp only
  split
  next ordered => exact .inl ⟨later.mp ordered, rfl⟩
  next unordered => exact .inr ⟨not_lt.mp fun less => unordered (later.mpr less), rfl⟩

theorem finite_start_add_one : (timeline.window.1 + 1.0).isFinite = true := by
  have finite := timeline.window_start_finite
  -- The start is not after zero, so a second later is not after one.
  have before := (le_iff_value_le _ _ finite rfl).mp timeline.window_start_nonpos
  rw [value_zero] at before
  refine isFinite_between finite (by decide) (le_add_of_zero_le finite (by decide))
    ((rounds_add finite (by decide)).below 1.0 (by decide) (by linarith))

/-- Whatever the intervals, a window has finite ends in order. -/
theorem window_ordered : timeline.window.2.isFinite = true ∧
    timeline.window.1.le timeline.window.2 = true := by
  rcases timeline.window_finish with ⟨ordered, same⟩ | ⟨_, same⟩ <;> rw [same]
  · refine ⟨timeline.finite_endTime, ?_⟩
    exact (le_iff_value_le _ _ timeline.window_start_finite timeline.finite_endTime).mpr ordered.le
  · exact ⟨timeline.finite_start_add_one,
      le_add_of_zero_le timeline.window_start_finite (by decide)⟩

end Window

/-- Where all intervals end at finite times, the window that is shown at first begins at zero or
before and covers every interval. It has a length, unless it begins more than `2 ^ 53` seconds
before zero and every interval is a point at its start. -/
theorem window_of_counters (palette : Palette) (counters : List (Counter Binary64))
    (timeline : Timeline Binary64) (built : ofCounters palette counters = .ok timeline)
    (finite : ∀ interval ∈ timeline.intervals, interval.finish.isFinite = true) :
    timeline.window.1.isFinite = true ∧ timeline.window.2.isFinite = true ∧
    timeline.window.1.le 0.0 = true ∧
    (∀ interval ∈ timeline.intervals, timeline.window.1.le interval.start = true ∧
      interval.finish.le timeline.window.2 = true) ∧
    (timeline.window.1.lt timeline.window.2 = true ∨ timeline.window.1.value < -2 ^ 53 ∧
      ∀ interval ∈ timeline.intervals, interval.start.value = timeline.window.1.value ∧
        interval.finish.value = timeline.window.1.value) := by
  have startFinite := timeline.window_start_finite
  obtain ⟨finishFinite, ordered⟩ := timeline.window_ordered
  have spans := spans_of_built built
  have startsFinite : ∀ interval ∈ timeline.intervals, interval.start.isFinite = true := by
    intro interval member
    obtain ⟨_, _, spanned⟩ := spans interval member
    exact spanned.start_finite
  have starts : ∀ interval ∈ timeline.intervals, timeline.window.1.le interval.start = true := by
    intro interval member
    rw [window_start]
    exact le_trans (Scalar.smaller_le_left
      (OrderedScalar.number_of_finite timeline.finite_startTime) 0.0)
      (startTime_le startsFinite interval member)
  have ends : ∀ interval ∈ timeline.intervals,
      interval.finish.value ≤ timeline.endTime.value := fun interval member =>
    (le_iff_value_le _ _ (finite interval member) timeline.finite_endTime).mp
      (le_endTime finite interval member)
  refine ⟨startFinite, finishFinite, timeline.window_start_nonpos, ?_, ?_⟩
  · refine fun interval member => ⟨starts interval member, ?_⟩
    rw [le_iff_value_le _ _ (finite interval member) finishFinite]
    refine (ends interval member).trans ?_
    rcases timeline.window_finish with ⟨_, same⟩ | ⟨reversed, _⟩
    · rw [same]
    · exact reversed.trans ((le_iff_value_le _ _ startFinite finishFinite).mp ordered)
  · rw [lt_iff_value_lt startFinite finishFinite]
    rcases timeline.window_finish with ⟨less, same⟩ | ⟨reversed, same⟩
    · exact .inl (same ▸ less)
    · rcases le_or_gt (-2 ^ 53) timeline.window.1.value with near | far
      · have nonpos := (le_iff_value_le _ _ startFinite rfl).mp timeline.window_start_nonpos
        rw [value_zero] at nonpos
        have sumFinite := timeline.finite_start_add_one
        rw [same]
        exact .inl ((lt_iff_value_lt startFinite sumFinite).mp
          (lt_add_one startFinite sumFinite near nonpos))
      · -- No interval ends after the start of the window, so none has a length.
        refine .inr ⟨far, fun interval member => ?_⟩
        obtain ⟨_, _, spanned⟩ := spans interval member
        have start := startsFinite interval member
        have finish := finite interval member
        have first := (le_iff_value_le _ _ startFinite start).mp (starts interval member)
        have second := (le_iff_value_le _ _ start finish).mp spanned.start_le_finish
        have last := (ends interval member).trans reversed
        exact ⟨by linarith, by linarith⟩

/-- A point before zero is shown with the second behind it. -/
theorem window_of_early_point :
    let counter : Counter Binary64 := ⟨"SU", .schedulingUnit, [⟨-8.0, 2⟩, ⟨-8.0, 1⟩]⟩
    ∃ timeline, ofCounters .standard [counter] = .ok timeline ∧
      (∀ interval ∈ timeline.intervals, interval.finish.isFinite = true) ∧
      timeline.window = (-8.0, -7.0) ∧
      ∀ interval ∈ timeline.intervals, timeline.window.1.le interval.start = true ∧
        interval.finish.le timeline.window.2 = true := by
  intro counter
  have covered := window_of_counters .standard [counter] _ rfl (by decide +kernel)
  exact ⟨_, rfl, by decide +kernel, by decide +kernel, covered.2.2.2.1⟩

/-- A point so far before zero that a second is not noticed beside it. -/
def distantPoint : Counter Binary64 :=
  ⟨"SU", .schedulingUnit, [⟨-1e17, 2⟩, ⟨-1e17, 1⟩]⟩

theorem window_of_distant_point :
    ∃ timeline, ofCounters .standard [distantPoint] = .ok timeline ∧
      (∀ interval ∈ timeline.intervals, interval.finish.isFinite = true) ∧
      timeline.window.1.lt timeline.window.2 = false := by
  exact ⟨_, rfl, by decide +kernel, by decide +kernel⟩

end Timeline

end TraceChart
