import TraceChart.Proofs.Chart.Series
import TraceChart.Proofs.Trace.Intervals

/-!
# What a track does at a time

The events of a counter say what it does at a time: the last event until then tells. A search among
the bars of its track asks whether a bar covers the time, and takes the end of a bar to be its start
and its duration together. With exact numbers this is the time of the event that closes the bar, and
the two agree. With rounded numbers the sum may miss that time: then a bar is found that
has been closed, or none where one is open. The two agree at each time that no sum separates from
the event it stands for.
-/

namespace TraceChart

variable {α : Type} [Scalar α]

namespace Counter

/-- The last event at or before a time stands at an index. -/
def LastAt (counter : Counter α) (time : α) (index : Nat) : Prop :=
  (∃ event, counter.events[index]? = some event ∧ Scalar.le event.time time = true) ∧
    ∀ later event, index < later → counter.events[later]? = some event →
      Scalar.le event.time time = false

/-- What a counter does at a time: the caption of the interval that the last event until then opens,
and nothing if that event opens none or if there is no such event. -/
def DoesAt (counter : Counter α) (palette : Palette) (time : α) : Option String → Prop
  | some caption => ∃ index interval, counter.LastAt time index ∧
      counter.OpenedAt palette counter.events index interval ∧ caption = interval.caption
  | none => ∀ index interval, counter.LastAt time index →
      ¬ counter.OpenedAt palette counter.events index interval

/-- A time stands to the end of each bar, start and duration together, as it stands to the event
that closes the bar. -/
def EndsOnTime (counter : Counter α) (time : α) : Prop :=
  ∀ index ∈ counter.category.openings counter.events, ∀ event closing,
    counter.events[index]? = some event → counter.events[index + 1]? = some closing →
      Scalar.lt time (event.time + (closing.time - event.time)) = Scalar.lt time closing.time

def trackOf (counter : Counter α) (intervals : List (Interval α)) : Track α :=
  ⟨counter.name, intervals⟩

variable {counter : Counter α} {palette : Palette}

/-- An interval opens at one of the opening indices, and its times come from the two events. -/
theorem OpenedAt.times {index : Nat} {interval : Interval α}
    (opened : counter.OpenedAt palette counter.events index interval) :
    index ∈ counter.category.openings counter.events ∧ ∃ event closing,
      counter.events[index]? = some event ∧ counter.events[index + 1]? = some closing ∧
      interval.start = event.time ∧
      interval.finish = event.time + (closing.time - event.time) := by
  obtain ⟨event, closing, marker, found, after, known, work, _, start, duration, _⟩ := opened
  have opening := (Category.mem_openings_iff _ _ _).mpr
    ⟨event, closing, marker, found, after, known, work⟩
  exact ⟨opening, event, closing, found, after, start, by rw [Interval.finish, start, duration]⟩

section Ordered

variable [OrderedScalar α]

theorem Sound.covers_iff (sound : counter.Sound palette) {time : α}
    (number : Scalar.le time time = true) (ends : counter.EndsOnTime time) {index : Nat}
    {interval : Interval α} (opened : counter.OpenedAt palette counter.events index interval) :
    interval.bar.covers time = true ↔ counter.LastAt time index := by
  obtain ⟨opening, event, closing, found, after, start, finish⟩ := opened.times
  have onTime := ends index opening event closing found after
  have covers : interval.bar.covers time = true ↔
      Scalar.le event.time time = true ∧ Scalar.lt time closing.time = true := by
    rw [← onTime, ← finish, ← start, ← Bool.and_eq_true]
    rfl
  have closingNumber := OrderedScalar.number_of_finite
    (sound.finite closing (List.mem_of_getElem? after))
  rw [covers]
  constructor
  · rintro ⟨begun, notClosed⟩
    refine ⟨⟨event, found, begun⟩, ?_⟩
    intro later next behind foundLater
    -- An event behind the closing one is no earlier than it, so neither has come.
    have ordered := sound.time_le (show index + 1 ≤ later by omega) after foundLater
    by_contra come
    have closed := OrderedScalar.le_trans ordered (by simpa using come)
    simp [(OrderedScalar.lt_iff.mp notClosed).2.2] at closed
  · rintro ⟨⟨last, foundLast, begun⟩, none_later⟩
    obtain rfl : event = last := by simpa [found] using foundLast
    have notClosed := none_later (index + 1) closing (by omega) after
    exact ⟨begun, OrderedScalar.lt_iff.mpr ⟨number, closingNumber, notClosed⟩⟩

/-- At a time that no end misses, the search among bars finds what the events say. -/
theorem hoverAt_of_endsOnTime {intervals : List (Interval α)}
    (returned : counter.intervals palette = .ok intervals) {time : α}
    (number : Scalar.le time time = true) (ends : counter.EndsOnTime time) :
    ∃ caption, (Series.ofTrack (counter.trackOf intervals)).hoverAt time = .ok caption ∧
      counter.DoesAt palette time caption := by
  obtain ⟨sound, described⟩ := (intervals_ok_iff _ _ _).mp returned
  refine ⟨_, Series.hoverAt_ofTrack _ _, ?_⟩
  simp only [trackOf]
  cases found : intervals.find? fun interval => interval.bar.covers time with
  | some interval =>
    have covers := List.find?_some found
    obtain ⟨index, _, opened⟩ := forall₂_exists described.flip interval
      (List.mem_of_find?_eq_some found)
    exact ⟨index, interval, (sound.covers_iff number ends opened).mp covers, opened, rfl⟩
  | none =>
    intro index interval last opened
    obtain ⟨listed, member, openedListed⟩ := forall₂_exists described index opened.times.1
    have covers := (sound.covers_iff number ends openedListed).mpr last
    simpa [covers] using List.find?_eq_none.mp found listed member

/-- Bars that end no later than the events that close them do not overlap. -/
theorem bars_apart {intervals : List (Interval α)}
    (returned : counter.intervals palette = .ok intervals)
    (ends : ∀ index ∈ counter.category.openings counter.events, ∀ event closing,
      counter.events[index]? = some event → counter.events[index + 1]? = some closing →
        Scalar.le (event.time + (closing.time - event.time)) closing.time = true) :
    intervals.Pairwise fun interval later => Scalar.le interval.finish later.start = true := by
  obtain ⟨sound, described⟩ := (intervals_ok_iff _ _ _).mp returned
  obtain ⟨length, opened⟩ := List.forall₂_iff_get.mp described
  rw [List.pairwise_iff_getElem]
  intro place later below laterBelow less
  obtain ⟨opening, event, closing, found, after, _, finish⟩ := (opened place (by omega) below).times
  have sorted := List.pairwise_iff_getElem.mp (counter.category.openings_sorted counter.events)
    place later (by omega) (by omega) less
  have ended := ends _ opening event closing found after
  have begun := sound.time_le_start (Nat.succ_le_of_lt sorted) after
    (opened later (by omega) laterBelow)
  rw [← finish] at ended
  exact OrderedScalar.le_trans ended begun

end Ordered

/-! ### Exact and rounded times -/

theorem endsOnTime_exact (counter : Counter Rat) (time : Rat) : counter.EndsOnTime time := by
  intro index _ event closing _ _
  rw [add_sub_cancel]

/-- With exact times the search among the bars of a track finds at every time what the events of its
counter say, and no bar reaches into a later one. With binary64 times so it is wherever each end,
which is rounded twice, still lies where the event that closes the bar does. -/
theorem hover_of_events (palette : Palette) :
    (∀ (counter : Counter Rat) (intervals : List (Interval Rat)),
      counter.intervals palette = .ok intervals →
        (∀ time, ∃ caption,
          (Series.ofTrack (counter.trackOf intervals)).hoverAt time = .ok caption ∧
            counter.DoesAt palette time caption) ∧
        intervals.Pairwise fun interval later => interval.finish ≤ later.start) ∧
    ∀ (counter : Counter Binary64) (intervals : List (Interval Binary64)),
      counter.intervals palette = .ok intervals →
        (∀ time, time.isFinite = true → counter.EndsOnTime time → ∃ caption,
          (Series.ofTrack (counter.trackOf intervals)).hoverAt time = .ok caption ∧
            counter.DoesAt palette time caption) ∧
        ((∀ index ∈ counter.category.openings counter.events, ∀ event closing,
          counter.events[index]? = some event → counter.events[index + 1]? = some closing →
            (event.time + (closing.time - event.time)).le closing.time = true) →
          intervals.Pairwise fun interval later => interval.finish.le later.start = true) := by
  constructor
  · intro counter intervals returned
    refine ⟨fun time => hoverAt_of_endsOnTime returned (by simp)
      (counter.endsOnTime_exact time), ?_⟩
    have apart := bars_apart returned fun _ _ _ _ _ _ => by simp
    simpa using apart
  · intro counter intervals returned
    exact ⟨fun time finite ends => hoverAt_of_endsOnTime returned
      (OrderedScalar.number_of_finite finite) ends, fun ends => bars_apart returned ends⟩

/-- The ends of bars at whole seconds are exact. -/
theorem hover_of_whole_seconds :
    let counter : Counter Binary64 :=
      ⟨"SU", .schedulingUnit, [⟨1.0, 2⟩, ⟨2.0, 3⟩, ⟨4.0, 1⟩]⟩
    ∃ intervals, counter.intervals .standard = .ok intervals ∧ (2.0 : Binary64).isFinite = true ∧
      counter.EndsOnTime 2.0 ∧
      ∃ caption, (Series.ofTrack (counter.trackOf intervals)).hoverAt 2.0 = .ok caption ∧
        counter.DoesAt .standard 2.0 caption := by
  intro counter
  have ends : counter.EndsOnTime 2.0 := by
    have openings : counter.category.openings counter.events = [0, 1] := by decide
    intro index member event closing found after
    rw [openings] at member
    rcases List.mem_pair.mp member with rfl | rfl <;> cases found <;> cases after <;> decide
  have shown := ((hover_of_events .standard).2 counter _ rfl).1 2.0 (by decide) ends
  exact ⟨_, rfl, by decide, ends, shown⟩

/-! ### An end that is rounded up -/

/-- A counter whose first bar ends at the event behind it but for rounding. -/
def roundedUp : Counter Binary64 :=
  ⟨"SU", .schedulingUnit, [⟨0.03, 2⟩, ⟨0.3, 3⟩, ⟨15.0, 1⟩]⟩

def roundedUpIntervals : List (Interval Binary64) :=
  [⟨"SU", 0.03, 0.3 - 0.03, "FETCH_DECODE_INSTRUCTION", "mediumblue"⟩,
    ⟨"SU", 0.3, 15.0 - 0.3, "DISPATCH_INSTRUCTION", "blue"⟩]

theorem caption_front (interval : Interval α) :
    ∃ rest, interval.caption.toList = interval.label.toList ++ rest :=
  ⟨_, by simp only [Interval.caption, String.toList_append, List.append_assoc]; rfl⟩

/-- When the second of these bars begins, the search still finds the first: its end has been rounded
up past the event that closes it, and the two bars overlap. -/
theorem hover_of_closed_bar :
    roundedUp.intervals .standard = .ok roundedUpIntervals ∧
    (0.3 : Binary64).isFinite = true ∧
    (¬ ∃ caption, (Series.ofTrack (roundedUp.trackOf roundedUpIntervals)).hoverAt 0.3 =
        .ok caption ∧ roundedUp.DoesAt .standard 0.3 caption) ∧
    ¬ roundedUpIntervals.Pairwise fun interval later =>
      interval.finish.le later.start = true := by
  refine ⟨rfl, by decide, ?_, ?_⟩
  · rintro ⟨caption, found, does⟩
    rw [Series.hoverAt_ofTrack] at found
    have covers : (⟨"SU", 0.03, 0.3 - 0.03, "FETCH_DECODE_INSTRUCTION", "mediumblue"⟩ :
        Interval Binary64).bar.covers 0.3 = true := by decide
    simp only [trackOf, roundedUpIntervals, List.find?_cons, covers, Option.map_some,
      Except.ok.injEq] at found
    subst found
    obtain ⟨index, interval, ⟨⟨event, foundEvent, come⟩, none_later⟩, opened, same⟩ := does
    -- The last event until then is the second one, under another name than the caption found.
    obtain rfl : index = 1 := by
      match index, foundEvent, none_later with
      | 0, _, none_later => exact absurd (none_later 1 _ (by decide) rfl) (by decide)
      | 1, _, _ => rfl
      | 2, foundEvent, _ => cases foundEvent; exact absurd come (by decide)
      | _ + 3, foundEvent, _ => cases foundEvent
    obtain ⟨_, _, marker, foundOpening, _, known, _, _, _, _, label, _⟩ := opened
    cases foundOpening
    cases known
    obtain ⟨front, first⟩ := caption_front
      (⟨"SU", 0.03, 0.3 - 0.03, "FETCH_DECODE_INSTRUCTION", "mediumblue"⟩ : Interval Binary64)
    obtain ⟨behind, second⟩ := caption_front interval
    rw [same, second, label] at first
    cases (List.cons.inj first).1
  · decide

end Counter

end TraceChart
