import TraceChart.Chart.Series
import TraceChart.Proofs.Traversal

/-!
# Bars of a series

A series keeps its bars in lists with a common index. The series of a track holds them for the
intervals of the track, one bar each and in order, and a search among bars looks at nothing else.
-/

namespace TraceChart

variable {α : Type} [Scalar α]

def Interval.bar (interval : Interval α) : Bar α :=
  ⟨interval.start, interval.duration, interval.caption, interval.label, some interval.color⟩

def Bar.covers (time : α) (bar : Bar α) : Bool :=
  Scalar.le bar.base time && Scalar.lt time bar.finish

namespace Series

@[simp] theorem track_ofTrack (track : Track α) : (ofTrack track).track = track.name := by
  unfold ofTrack
  split <;> rfl

@[simp] theorem placeholder_ofTrack (track : Track α) :
    (ofTrack track).placeholder = track.intervals.isEmpty := by
  unfold ofTrack
  split
  next empty => exact empty.symm
  next filled => exact (Bool.eq_false_iff.mpr filled).symm

/-- The bars of a track are its intervals, and a track without intervals has none. -/
theorem bars_ofTrack (track : Track α) :
    (ofTrack track).bars = .ok (track.intervals.map Interval.bar) := by
  unfold bars
  rw [mapM_ok_iff]
  cases empty : track.intervals.isEmpty with
  | true =>
    have none : track.intervals = [] := List.isEmpty_iff.mp empty
    simp [ofTrack, none, ofEmptyTrack, barIndices]
  | false =>
    simp only [ofTrack, empty, Bool.false_eq_true, if_false, barIndices, size, List.length_map,
      List.forall₂_iff_get, List.length_range, true_and, List.get_eq_getElem, List.getElem_range,
      List.getElem_map]
    intro index below _
    have listed : track.intervals[index]? = some track.intervals[index] :=
      List.getElem?_eq_getElem below
    simp [bar, bar?, List.getElem?_map, listed, Interval.bar]

/-- What is found at a time is the caption of the first bar that covers it. -/
theorem hoverFrom_of_bars (series : Series α) (time : α) (indices : List Nat) (bars : List (Bar α))
    (returned : indices.mapM series.bar = .ok bars) :
    series.hoverFrom time indices = .ok ((bars.find? (Bar.covers time)).map Bar.hover) := by
  induction indices generalizing bars with
  | nil =>
    obtain rfl : bars = [] := by simpa [eq_comm] using returned
    rfl
  | cons index indices ih =>
    simp only [List.mapM_cons, bind_ok_iff] at returned
    obtain ⟨bar, first, rest, others, same⟩ := returned
    obtain rfl : bar :: rest = bars := by simpa using same
    simp only [hoverFrom, first, ok_bind, List.find?_cons]
    cases covered : bar.covers time with
    | true => simp_all [Bar.covers]
    | false => simp_all [Bar.covers]

theorem hoverAt_ofTrack (track : Track α) (time : α) : (ofTrack track).hoverAt time =
    .ok ((track.intervals.find? fun interval => interval.bar.covers time).map
      Interval.caption) := by
  rw [hoverAt, hoverFrom_of_bars _ _ _ _ (bars_ofTrack track), List.find?_map, Option.map_map]
  rfl

end Series

/-! ### Reductions -/

namespace Series

variable {α : Type}

/-- What numbers are reduced to is related to each of them, if what two of them are combined to is
related to both. -/
theorem reduce_related (combine : α → α → α) (related : α → α → Prop)
    (refl : ∀ number, related number number)
    (trans : ∀ {first second third}, related first second → related second third →
      related first third)
    (left : ∀ first second, related (combine first second) first)
    (right : ∀ first second, related (combine first second) second)
    {numbers : List α} {result : α} (reduced : reduce combine numbers = some result) :
    ∀ number ∈ numbers, related result number := by
  cases numbers with
  | nil => cases reduced
  | cons first rest =>
    obtain rfl : rest.foldl combine first = result := by simpa [reduce] using reduced
    clear reduced
    induction rest generalizing first with
    | nil => simpa using refl first
    | cons second rest ih =>
      have later := ih (combine first second)
      simp only [List.mem_cons, List.foldl_cons, forall_eq_or_imp] at later ⊢
      exact ⟨trans later.1 (left first second), trans later.1 (right first second), later.2⟩

theorem reduce_mem (combine : α → α → α)
    (chooses : ∀ first second, combine first second = first ∨ combine first second = second)
    {numbers : List α} {result : α} (reduced : reduce combine numbers = some result) :
    result ∈ numbers := by
  cases numbers with
  | nil => cases reduced
  | cons first rest =>
    obtain rfl : rest.foldl combine first = result := by simpa [reduce] using reduced
    clear reduced
    induction rest generalizing first with
    | nil => simp
    | cons second rest ih =>
      have later := ih (combine first second)
      rw [List.foldl_cons]
      rcases List.mem_cons.mp later with chosen | later
      · rw [chosen]
        rcases chooses first second with same | same <;> simp [same]
      · exact List.mem_cons_of_mem _ (List.mem_cons_of_mem _ later)

theorem reduce_eq_none_iff (combine : α → α → α) (numbers : List α) :
    reduce combine numbers = none ↔ numbers = [] := by
  cases numbers <;> simp [reduce]

/-- Where brackets do not matter, one of two parts of a list may be reduced before the whole. -/
theorem reduce_append (combine : α → α → α) [Std.Associative combine] (left right : List α) :
    reduce combine (left ++ right) =
      reduce combine ((reduce combine left).toList ++ (reduce combine right).toList) := by
  cases left with
  | nil => cases right <;> simp [reduce]
  | cons first left =>
    cases right with
    | nil => simp [reduce]
    | cons second right => simp [reduce, List.foldl_assoc]

/-- The lists that a list is made of may each be reduced first, and empty ones have no say. -/
theorem reduce_flatten (combine : α → α → α) [Std.Associative combine] (lists : List (List α)) :
    reduce combine lists.flatten =
      reduce combine (lists.map (reduce combine)).reduceOption := by
  induction lists with
  | nil => rfl
  | cons list lists ih =>
    rw [List.flatten_cons, reduce_append, ih, List.map_cons]
    cases first : reduce combine list with
    | none =>
      rw [List.reduceOption_cons_of_none]
      exact (reduce_append combine [] _).symm
    | some number =>
      rw [List.reduceOption_cons_of_some]
      exact (reduce_append combine [number] _).symm

end Series

end TraceChart
