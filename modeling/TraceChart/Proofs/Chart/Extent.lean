import TraceChart.Chart.Timeline
import TraceChart.Proofs.Chart.Series
import TraceChart.Proofs.Number.Order

/-!
# Series of a timeline

The series of a timeline hold its tracks: one each and in order, with lists of one length, from
which the intervals can be taken back. What a series does not keep is the track that an interval
names itself, for its own name stands for that.

A timeline looks for its ends among all intervals, a series among its own. The least of the least
is the least of all, since it does not matter how the numbers are bracketed; and a series without
bars has no say.
-/

namespace TraceChart

variable {α : Type} [Scalar α]

/-! ### Intervals of a series -/

/-- The interval of a bar on a track. -/
def Bar.interval? (track : String) (bar : Bar α) : Option (Interval α) :=
  bar.color.map fun color => ⟨track, bar.base, bar.duration, bar.label, color⟩

namespace Series

/-- The intervals of a series, unless its lists are of different lengths or a bar has no color. -/
def intervals? (series : Series α) : Option (List (Interval α)) :=
  match series.bars with
  | .ok bars => bars.mapM (Bar.interval? series.track)
  | .error _ => none

/-- A series that says of a track all that there is to say. -/
structure Holds (series : Series α) (track : Track α) : Prop where
  named : series.track = track.name
  aligned : series.isAligned = true
  rows : ∀ row ∈ series.rows, row = track.name
  placeholder : series.placeholder = true ↔ track.intervals = []
  bars : series.bars = .ok (track.intervals.map Interval.bar)
  restored : series.intervals? =
    some (track.intervals.map fun interval => { interval with track := track.name })

theorem isAligned_ofTrack (track : Track α) : (ofTrack track).isAligned = true := by
  cases empty : track.intervals.isEmpty <;> simp [ofTrack, empty, isAligned, size, ofEmptyTrack]

theorem rows_ofTrack (track : Track α) : ∀ row ∈ (ofTrack track).rows, row = track.name := by
  intro row member
  cases empty : track.intervals.isEmpty with
  | true => simpa [ofTrack, empty, ofEmptyTrack] using member
  | false =>
    simp only [ofTrack, empty, Bool.false_eq_true, if_false, List.mem_map] at member
    obtain ⟨_, _, same⟩ := member
    exact same.symm

theorem intervals?_ofTrack (track : Track α) : (ofTrack track).intervals? =
    some (track.intervals.map fun interval => { interval with track := track.name }) := by
  rw [intervals?, bars_ofTrack]
  change (track.intervals.map Interval.bar).mapM _ = _
  rw [mapM_eq_some_iff, List.forall₂_map_left_iff, List.forall₂_map_right_iff, List.forall₂_same]
  intro interval _
  rw [track_ofTrack]
  rfl

theorem holds_ofTrack (track : Track α) : (ofTrack track).Holds track where
  named := track_ofTrack track
  aligned := isAligned_ofTrack track
  rows := rows_ofTrack track
  placeholder := by rw [placeholder_ofTrack, List.isEmpty_iff]
  bars := bars_ofTrack track
  restored := intervals?_ofTrack track

end Series

/-! ### The foremost of some numbers -/

namespace Scalar

/-- The one of two numbers that is before the other, and a number rather than none. -/
def foremost (before : α → α → Bool) (left right : α) : α :=
  if before left right || !le right right then left else right

theorem foremost_eq (before : α → α → Bool) (left right : α) :
    foremost before left right = left ∨ foremost before left right = right := by
  unfold foremost
  split <;> simp

/-- A strict order of numbers. What is between two that are in order is behind the one or before
the other, so what is behind neither of them may be left out. -/
structure Precedence (before : α → α → Bool) : Prop where
  number_left {left right : α} : before left right = true → le left left = true
  number_right {left right : α} : before left right = true → le right right = true
  irrefl (number : α) : before number number = false
  trans {first second third : α} : before first second = true → before second third = true →
    before first third = true
  between {left middle right : α} : before left right = true → le middle middle = true →
    before left middle = true ∨ before middle right = true

namespace Precedence

variable {before : α → α → Bool}

theorem flip (precedence : Precedence before) : Precedence fun left right => before right left where
  number_left := precedence.number_right
  number_right := precedence.number_left
  irrefl := precedence.irrefl
  trans first second := precedence.trans second first
  between ordered number := (precedence.between ordered number).symm

theorem associative (precedence : Precedence before) :
    Std.Associative (foremost before) where
  assoc first second third := by
    -- If the first is before the third, a second number is behind the first or before the third, so
    -- in either way of bracketing it gives way to the same number.
    have number := @precedence.number_left second third
    have trans := @precedence.trans first second third
    have between := @precedence.between first second third
    unfold foremost
    grind

/-- A number is not before the foremost of numbers among which it is. -/
theorem reduce_foremost (precedence : Precedence before) {numbers : List α} {bound : α}
    (reduced : Series.reduce (foremost before) numbers = some bound) :
    ∀ number ∈ numbers, le number number = true →
      le bound bound = true ∧ before number bound = false := by
  refine Series.reduce_related (foremost before)
    (fun bound number => le number number = true → le bound bound = true ∧
      before number bound = false) ?_ ?_ ?_ ?_ reduced
  · exact fun number counts => ⟨counts, precedence.irrefl number⟩
  · intro first second third ahead next number
    obtain ⟨middle, notBefore⟩ := next number
    obtain ⟨counts, notEither⟩ := ahead middle
    refine ⟨counts, ?_⟩
    rw [← Bool.not_eq_true]
    intro less
    rcases precedence.between less middle with less | less <;> simp_all
  · intro first second number
    unfold foremost
    split
    next => exact ⟨number, precedence.irrefl first⟩
    next notBefore => simp_all
  · intro first second number
    unfold foremost
    split
    next chosen =>
      have less : before first second = true := by simpa [number] using chosen
      refine ⟨precedence.number_left less, ?_⟩
      rw [← Bool.not_eq_true]
      intro reversed
      simpa [precedence.irrefl] using precedence.trans less reversed
    next => exact ⟨number, precedence.irrefl second⟩

end Precedence

open OrderedScalar in
theorem precedence_lt [OrderedScalar α] : Precedence (lt (α := α)) where
  number_left less := (lt_iff.mp less).1
  number_right less := (lt_iff.mp less).2.1
  irrefl number := by
    rw [← Bool.not_eq_true, lt_iff]
    rintro ⟨counts, _, notCounts⟩
    simp [counts] at notCounts
  trans {first second third} left right := by
    obtain ⟨firstNumber, _, _⟩ := lt_iff.mp left
    obtain ⟨_, thirdNumber, notAbove⟩ := lt_iff.mp right
    refine lt_iff.mpr ⟨firstNumber, thirdNumber, ?_⟩
    rw [← Bool.not_eq_true] at notAbove ⊢
    exact fun reversed => notAbove (le_trans reversed (le_of_lt left))
  between {left middle right} less number := by
    obtain ⟨leftNumber, rightNumber, notAbove⟩ := lt_iff.mp less
    by_contra! neither
    have first := le_of_not_lt leftNumber number (by simpa using neither.1)
    have second := le_of_not_lt number rightNumber (by simpa using neither.2)
    simp [le_trans second first] at notAbove

end Scalar

/-! ### The ends of a timeline -/

/-- A number of a list that none of them is beyond, and zero where there is none. -/
def BoundOf (within : α → α → Bool) (bound : α) : List α → Prop
  | [] => bound = 0.0
  | first :: rest => bound ∈ first :: rest ∧ ∀ number ∈ first :: rest, within bound number = true

theorem BoundOf.of_mem {within : α → α → Bool} {bound : α} {numbers : List α}
    (member : bound ∈ numbers) (each : ∀ number ∈ numbers, within bound number = true) :
    BoundOf within bound numbers := by
  cases numbers with
  | nil => cases member
  | cons first rest => exact ⟨member, each⟩

namespace Timeline

/-- An end of a timeline: what a view of its intervals is reduced to. -/
def bound (combine : α → α → α) (view : Interval α → α) (timeline : Timeline α) : α :=
  match Series.reduce combine (timeline.intervals.map view) with
  | some bound => finiteOrZero bound
  | none => 0.0

theorem finite_finiteOrZero [OrderedScalar α] (value : α) :
    Scalar.isFinite (finiteOrZero value) = true := by
  unfold finiteOrZero
  split
  next finite => exact finite
  next => exact OrderedScalar.finite_zero

/-- Whatever the intervals, the ends of a timeline are finite. -/
theorem finite_bound [OrderedScalar α] (combine : α → α → α) (view : Interval α → α)
    (timeline : Timeline α) : Scalar.isFinite (timeline.bound combine view) = true := by
  unfold bound
  split
  · exact finite_finiteOrZero _
  · exact OrderedScalar.finite_zero

theorem finite_startTime [OrderedScalar α] (timeline : Timeline α) :
    Scalar.isFinite timeline.startTime = true :=
  finite_bound Scalar.smaller Interval.start timeline

theorem finite_endTime [OrderedScalar α] (timeline : Timeline α) :
    Scalar.isFinite timeline.endTime = true :=
  finite_bound Scalar.larger Interval.finish timeline

/-- An end of a timeline is a fold that begins with an infinity which is before no number. Where the
first number is none, the reduction begins with that instead, and as long as nothing replaces either
of them, neither is finite. -/
theorem bound_eq_foldl {before : Binary64 → Binary64 → Bool}
    (precedence : Scalar.Precedence before) {limit : Binary64} (infinite : limit.isFinite = false)
    (last : ∀ number, before limit number = false) (view : Interval Binary64 → Binary64)
    (timeline : Timeline Binary64) : timeline.bound (Scalar.foremost before) view =
      finiteOrZero ((timeline.intervals.map view).foldl (Scalar.foremost before) limit) := by
  have counts (number : Binary64) : Scalar.le number number = !number.isNaN := by
    rw [Bool.eq_iff_iff]
    exact (Binary64.le_self_iff number).trans (by simp)
  have replaced (number : Binary64) :
      Scalar.foremost before limit number = if number.isNaN then limit else number := by
    rw [Scalar.foremost, last, counts, Bool.not_not, Bool.false_or]
  have filled (number : Binary64) : Scalar.foremost before .nan number = number := by
    have none : before .nan number = false :=
      Bool.eq_false_iff.mpr fun less => nomatch precedence.number_left less
    rw [Scalar.foremost, none, counts]
    cases number <;> rfl
  have nothing : finiteOrZero limit = 0.0 := if_neg (Bool.eq_false_iff.mp infinite)
  have unfilled (numbers : List Binary64) :
      finiteOrZero (numbers.foldl (Scalar.foremost before) .nan) =
        finiteOrZero (numbers.foldl (Scalar.foremost before) limit) := by
    induction numbers with
    | nil => exact nothing.symm
    | cons number numbers ih =>
      rw [List.foldl_cons, List.foldl_cons, filled, replaced]
      cases number with
      | nan => exact ih
      | _ => rfl
  unfold bound
  cases timeline.intervals.map view with
  | nil => exact nothing.symm
  | cons number numbers =>
    rw [List.foldl_cons, replaced]
    cases number with
    | nan => exact unfilled numbers
    | _ => rfl

/-- The start of a timeline as a fold from infinity on. -/
theorem startTime_eq_foldl (timeline : Timeline Binary64) : timeline.startTime =
    finiteOrZero ((timeline.intervals.map Interval.start).foldl Scalar.smaller
      (.infinite false)) :=
  bound_eq_foldl Scalar.precedence_lt rfl Binary64.not_infinite_lt Interval.start timeline

/-- The end of a timeline as a fold from minus infinity on. -/
theorem endTime_eq_foldl (timeline : Timeline Binary64) : timeline.endTime =
    finiteOrZero ((timeline.intervals.map Interval.finish).foldl Scalar.larger
      (.infinite true)) :=
  bound_eq_foldl Scalar.precedence_lt.flip rfl Binary64.not_lt_infinite Interval.finish timeline

/-- Where all that is looked at is finite, no interval is before the foremost one. -/
theorem not_before_bound [OrderedScalar α] {before : α → α → Bool}
    (precedence : Scalar.Precedence before) {view : Interval α → α} {timeline : Timeline α}
    (finite : ∀ interval ∈ timeline.intervals, Scalar.isFinite (view interval) = true) :
    ∀ interval ∈ timeline.intervals,
      before (view interval) (timeline.bound (Scalar.foremost before) view) = false := by
  intro interval member
  have looked : view interval ∈ timeline.intervals.map view := List.mem_map_of_mem member
  unfold bound
  cases reduced : Series.reduce (Scalar.foremost before) (timeline.intervals.map view) with
  | none =>
    rw [(Series.reduce_eq_none_iff _ _).mp reduced] at looked
    cases looked
  | some number =>
    obtain ⟨first, included, rfl⟩ :=
      List.mem_map.mp (Series.reduce_mem _ (Scalar.foremost_eq before) reduced)
    have counted : finiteOrZero (view first) = view first := if_pos (finite first included)
    have counts := OrderedScalar.number_of_finite (finite interval member)
    dsimp only
    rw [counted]
    exact (precedence.reduce_foremost reduced _ looked counts).2

theorem startTime_le [OrderedScalar α] {timeline : Timeline α}
    (finite : ∀ interval ∈ timeline.intervals, Scalar.isFinite interval.start = true) :
    ∀ interval ∈ timeline.intervals, Scalar.le timeline.startTime interval.start = true := by
  intro interval member
  exact Scalar.le_of_not_lt (OrderedScalar.number_of_finite (finite interval member))
    (OrderedScalar.number_of_finite timeline.finite_startTime)
    (not_before_bound Scalar.precedence_lt finite interval member)

theorem le_endTime [OrderedScalar α] {timeline : Timeline α}
    (finite : ∀ interval ∈ timeline.intervals, Scalar.isFinite interval.finish = true) :
    ∀ interval ∈ timeline.intervals, Scalar.le interval.finish timeline.endTime = true := by
  intro interval member
  exact Scalar.le_of_not_lt (OrderedScalar.number_of_finite timeline.finite_endTime)
    (OrderedScalar.number_of_finite (finite interval member))
    (not_before_bound Scalar.precedence_lt.flip finite interval member)

/-- What the bars of each track are reduced to, nothing where there are none. -/
def bounds (combine : α → α → α) (view : Interval α → α) (timeline : Timeline α) :
    List (Option α) :=
  timeline.tracks.map fun track => Series.reduce combine (track.intervals.map view)

theorem startTime_series (timeline : Timeline α) :
    timeline.series.mapM Series.startTime =
      .ok (timeline.bounds Scalar.smaller Interval.start) := by
  rw [mapM_ok_iff, series, bounds, List.forall₂_map_left_iff, List.forall₂_map_right_iff,
    List.forall₂_same]
  intro track _
  rw [Series.startTime, Series.bars_ofTrack, ok_bind, List.map_map]
  rfl

theorem endTime_series (timeline : Timeline α) :
    timeline.series.mapM Series.endTime =
      .ok (timeline.bounds Scalar.larger Interval.finish) := by
  rw [mapM_ok_iff, series, bounds, List.forall₂_map_left_iff, List.forall₂_map_right_iff,
    List.forall₂_same]
  intro track _
  rw [Series.endTime, Series.bars_ofTrack, ok_bind, List.map_map]
  rfl

/-- What is finite of every interval is finite of what a track has for itself. -/
theorem finite_of_mem_bounds {combine : α → α → α}
    (chooses : ∀ first second, combine first second = first ∨ combine first second = second)
    {view : Interval α → α} {timeline : Timeline α}
    (finite : ∀ interval ∈ timeline.intervals, Scalar.isFinite (view interval) = true) :
    ∀ number ∈ (timeline.bounds combine view).reduceOption, Scalar.isFinite number = true := by
  intro number member
  rw [List.reduceOption_mem_iff, bounds, List.mem_map] at member
  obtain ⟨track, listed, reduced⟩ := member
  obtain ⟨interval, included, rfl⟩ := List.mem_map.mp (Series.reduce_mem combine chooses reduced)
  exact finite interval (List.mem_flatMap.mpr ⟨track, listed, included⟩)

omit [Scalar α] in
/-- All intervals are reduced to what the reductions of the tracks are reduced to. -/
theorem reduce_bounds (combine : α → α → α) [Std.Associative combine] (view : Interval α → α)
    (timeline : Timeline α) : Series.reduce combine (timeline.intervals.map view) =
      Series.reduce combine (timeline.bounds combine view).reduceOption := by
  have parts : timeline.bounds combine view =
      (timeline.tracks.map fun track => track.intervals.map view).map (Series.reduce combine) := by
    rw [bounds, List.map_map]
    rfl
  rw [intervals, List.map_flatMap, List.flatMap_def, Series.reduce_flatten, parts]

/-- Where all that is looked at is finite, the foremost of all intervals is the foremost of those
that the tracks have each for themselves. -/
theorem bound_of_bounds [OrderedScalar α] {before within : α → α → Bool}
    (precedence : Scalar.Precedence before)
    (within_of_not_before : ∀ {bound number : α}, Scalar.le bound bound = true →
      Scalar.le number number = true → before number bound = false → within bound number = true)
    (view : Interval α → α) (timeline : Timeline α)
    (finite : ∀ interval ∈ timeline.intervals, Scalar.isFinite (view interval) = true) :
    BoundOf within (timeline.bound (Scalar.foremost before) view)
      (timeline.bounds (Scalar.foremost before) view).reduceOption := by
  have := precedence.associative
  have shared := timeline.reduce_bounds (Scalar.foremost before) view
  have chooses := Scalar.foremost_eq before
  unfold bound
  cases reduced : Series.reduce (Scalar.foremost before) (timeline.intervals.map view) with
  | none =>
    rw [reduced] at shared
    rw [(Series.reduce_eq_none_iff _ _).mp shared.symm]
    rfl
  | some number =>
    rw [reduced] at shared
    have member := Series.reduce_mem _ chooses shared.symm
    have each := finite_of_mem_bounds chooses finite
    have counted : finiteOrZero number = number := if_pos (each number member)
    dsimp only
    rw [counted]
    refine .of_mem member fun other included => ?_
    have otherNumber := OrderedScalar.number_of_finite (each other included)
    obtain ⟨counts, ahead⟩ := precedence.reduce_foremost shared.symm other included otherNumber
    exact within_of_not_before counts otherNumber ahead

/-- The series of a timeline hold its tracks, one each and in order. Where every interval has a
finite start and a finite end, the timeline begins with the least of what its series begin with and
ends with the greatest of what they end with; series without bars do not count, and where there is
no other, both are zero. -/
theorem series_of_tracks (timeline : Timeline Binary64) :
    List.Forall₂ Series.Holds timeline.series timeline.tracks ∧
    ∃ starts ends, timeline.series.mapM Series.startTime = .ok starts ∧
      timeline.series.mapM Series.endTime = .ok ends ∧
      List.Forall₂ (fun start track => start = none ↔ track.intervals = []) starts timeline.tracks ∧
      List.Forall₂ (fun finish track => finish = none ↔ track.intervals = []) ends
        timeline.tracks ∧
      ((∀ interval ∈ timeline.intervals, interval.start.isFinite = true ∧
          interval.finish.isFinite = true) →
        BoundOf (fun start other => start.le other) timeline.startTime starts.reduceOption ∧
          BoundOf (fun finish other => other.le finish) timeline.endTime ends.reduceOption) := by
  have held : List.Forall₂ Series.Holds timeline.series timeline.tracks := by
    rw [series, List.forall₂_map_left_iff, List.forall₂_same]
    exact fun track _ => Series.holds_ofTrack track
  have absent (combine : Binary64 → Binary64 → Binary64) (view : Interval Binary64 → Binary64) :
      List.Forall₂ (fun bound track => bound = none ↔ track.intervals = [])
        (timeline.bounds combine view) timeline.tracks := by
    rw [bounds, List.forall₂_map_left_iff, List.forall₂_same]
    intro track _
    rw [Series.reduce_eq_none_iff, List.map_eq_nil_iff]
  refine ⟨held, _, _, timeline.startTime_series, timeline.endTime_series, absent _ _, absent _ _,
    fun finite => ⟨?_, ?_⟩⟩
  · exact bound_of_bounds Scalar.precedence_lt (fun bound number ahead =>
      Scalar.le_of_not_lt number bound ahead) _ _ fun interval member => (finite interval member).1
  · exact bound_of_bounds Scalar.precedence_lt.flip (fun bound number ahead =>
      Scalar.le_of_not_lt bound number ahead) _ _ fun interval member => (finite interval member).2

/-- A track with an interval before time zero and one of no length at its end, and an empty track
before it. -/
theorem series_of_late_track :
    let timeline : Timeline Binary64 := ⟨[⟨"MEM", []⟩,
      ⟨"SU", [⟨"SU", -2.0, 3.5, "FETCH", "blue"⟩, ⟨"other", 1.5, 0.0, "FETCH", "blue"⟩]⟩]⟩
    (∀ interval ∈ timeline.intervals, interval.start.isFinite = true ∧
      interval.finish.isFinite = true) ∧
    ∃ starts ends, timeline.series.mapM Series.startTime = .ok starts ∧
      timeline.series.mapM Series.endTime = .ok ends ∧
      BoundOf (fun start other => start.le other) timeline.startTime starts.reduceOption ∧
      BoundOf (fun finish other => other.le finish) timeline.endTime ends.reduceOption := by
  intro timeline
  have finite : ∀ interval ∈ timeline.intervals, interval.start.isFinite = true ∧
      interval.finish.isFinite = true := by
    decide +kernel
  obtain ⟨_, starts, ends, started, ended, _, _, bounded⟩ := series_of_tracks timeline
  exact ⟨finite, starts, ends, started, ended, bounded finite⟩

end Timeline

end TraceChart
