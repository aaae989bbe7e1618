import TraceChart.Proofs.Chart.Extent
import TraceChart.Proofs.Number.Stepwise
import TraceChart.Proofs.Record.Restoring

/-!
# Reading with digits first

A reader that rounds the digits of a number before it scales them takes all of a record that is no
number as it was written. A number it takes for the one that its digits come to, which is always
finite and often, but not always, the number that was written.
-/

namespace TraceChart

/-! ### Numbers -/

namespace Style

/-- A number that is written with a point has at most sixteen whole digits in this style. -/
theorem length_whole_le (negative : Bool) (decimal : Decimal) :
    (Json.numberStyle.arrange negative decimal).whole.length ≤ 16 := by
  have placed {digits : List Digit} {point : Int} (few : point ≤ 16) :
      (place negative digits point true).whole.length ≤ 16 := by
    unfold place
    split
    next => simp
    next =>
      simp only [List.length_append, List.length_take, List.length_replicate]
      omega
  unfold arrange
  dsimp only
  split
  next => exact placed (by decide)
  next =>
    split
    next positional =>
      have bounds : -5 ≤ decimal.scale + (Digit.ofNat decimal.digits).length - 1 ∧
          decimal.scale + (Digit.ofNat decimal.digits).length - 1 < 16 :=
        of_decide_eq_true positional
      exact placed (by omega)
    next =>
      simp only [List.length_take]
      omega

end Style

namespace Binary64

/-- What is read, digits first, of a number that was written. -/
def reread (number : Binary64) : Binary64 :=
  match Json.numberStyle.numeral? number with
  | some numeral => Conversion.stepwise numeral
  | none => number

/-- A number that is written with few digits. -/
def IsShort (number : Binary64) : Prop :=
  ∃ numeral, Json.numberStyle.numeral? number = some numeral ∧ numeral.IsShort

instance (number : Binary64) : Decidable number.IsShort :=
  decidable_of_iff ((Json.numberStyle.numeral? number).any (decide <| Numeral.IsShort ·) = true)
    (by simp [IsShort, Option.any_eq_true])

theorem reread_of_numeral? {number : Binary64} {numeral : Numeral}
    (written : Json.numberStyle.numeral? number = some numeral) :
    number.reread = Conversion.stepwise numeral := by
  rw [reread, written]

theorem isShort_zero : (0.0 : Binary64).IsShort := by
  decide

theorem IsShort.reread_eq {number : Binary64} (short : number.IsShort) :
    number.reread = number := by
  obtain ⟨numeral, written, few⟩ := short
  rw [reread_of_numeral? written, few.stepwise_eq_nearest]
  exact Style.toBinary64_of_numeral? written

/-- The decimal of a number keeps away from the limit, unless the number is one of the greatest two.
-/
theorem value_shortest_le {significand : Nat} {exponent : Int} {decimal : Decimal}
    (canonical : Canonical significand exponent)
    (read : decimal.toBinary64 = .finite false significand exponent canonical)
    (lesser : significand < 9007199254740990 ∨ exponent < 971) :
    decimal.value ≤ Conversion.safeLimit := by
  by_contra beyond
  have rounded := Decimal.rounded_toBinary64 decimal
  rw [read] at rounded
  -- The limit is rounded to the lesser of the two, so whatever lies beyond it is at least that.
  have bound : Rounded (.finite false 9007199254740990 971 (by decide)) Conversion.safeLimit := by
    refine ⟨false, 18014398509481979 * twoTo 970, 1, one_pos, by decide +kernel, ?_⟩
    rw [Conversion.safeLimit]
    generalize twoTo 970 = power
    simp [signed]
  have ranks := ((le_iff _ _).mp (bound.le rounded (not_le.mp beyond).le)).2.2
  obtain ⟨limited, _, most, _⟩ := canonical
  simp only [rank, signed, Bool.false_eq_true, if_false, significandLimit, leastNormal]
    at ranks limited
  omega

/-- The greatest two numbers, of either sign, are read as numbers, as it turns out. -/
theorem isFinite_reread_greatest (negative : Bool) :
    (finite negative 9007199254740990 971 (by decide)).reread.isFinite = true ∧
      (finite negative 9007199254740991 971 (by decide)).reread.isFinite = true := by
  revert negative
  decide +kernel

theorem isFinite_reread {number : Binary64} (finite : number.isFinite = true) :
    number.reread.isFinite = true := by
  cases number with
  | nan => cases finite
  | infinite => cases finite
  | finite negative significand exponent canonical =>
    by_cases greatest : 9007199254740990 ≤ significand ∧ exponent = 971
    · obtain ⟨large, rfl⟩ := greatest
      have limited := canonical.1
      obtain rfl | rfl : significand = 9007199254740990 ∨ significand = 9007199254740991 := by
        simp only [significandLimit] at limited
        omega
      · exact (isFinite_reread_greatest negative).1
      · exact (isFinite_reread_greatest negative).2
    · -- Sixteen digits before the point leave room in the word for all of them.
      have few := Style.length_whole_le negative
        (if significand = 0 then ⟨0, 0⟩
          else Decimal.shortest Json.numberStyle.tie significand exponent)
      refine Conversion.isFinite_stepwise (few.trans (by decide)) ?_
      rw [Style.magnitude_arrange]
      refine value_shortest_le canonical ?_ (by have := canonical.2.2.1; omega)
      rcases Nat.eq_zero_or_pos significand with rfl | positive
      · obtain rfl : exponent = -1074 := canonical.2.2.2.resolve_left (by decide)
        rfl
      · rw [if_neg positive.ne']
        exact Decimal.toBinary64_shortest _ canonical positive

end Binary64

/-! ### Records -/

def Interval.reread (interval : Interval Binary64) : Interval Binary64 :=
  { interval with start := interval.start.reread, duration := interval.duration.reread }

def Bar.reread (bar : Bar Binary64) : Bar Binary64 :=
  { bar with base := bar.base.reread, duration := bar.duration.reread }

def Series.reread (series : Series Binary64) : Series Binary64 :=
  { series with
    durations := series.durations.map Binary64.reread
    bases := series.bases.map Binary64.reread }

/-- A series all of whose numbers are written with few digits. -/
def Series.IsShort (series : Series Binary64) : Prop :=
  (∀ duration ∈ series.durations, duration.IsShort) ∧ ∀ base ∈ series.bases, base.IsShort

namespace Codec

variable {δ : Type} [Codec δ] {convert : Conversion}

theorem decode?_list {made : δ → δ} {values : List δ}
    (each : ∀ value ∈ values, decode? convert (encode value) = some (made value)) :
    decode? convert (encode values) = some (values.map made) := by
  change (values.map encode).mapM (decode? convert) = _
  rw [mapM_eq_some_iff, List.forall₂_map_left_iff, List.forall₂_map_right_iff, List.forall₂_same]
  exact each

theorem decode?_texts (texts : List String) : decode? convert (encode texts) = some texts :=
  (decode?_list fun _ _ => rfl).trans (congrArg some texts.map_id)

theorem decode?_missing (texts : List (Option String)) :
    decode? convert (encode texts) = some texts := by
  refine (decode?_list fun text _ => ?_).trans (congrArg some texts.map_id)
  cases text <;> rfl

theorem decode?_reread {number : Binary64} (finite : number.isFinite = true) :
    decode? .stepwise (encode number) = some number.reread := by
  obtain ⟨numeral, written⟩ := Json.numberStyle.exists_numeral? finite
  have regular := Binary64.isFinite_reread finite
  rw [Binary64.reread_of_numeral? written] at regular ⊢
  change decode? .stepwise (Json.Value.ofBinary64 number) = _
  rw [Json.Value.ofBinary64, written]
  exact if_pos regular

theorem decode?_numbers {numbers : List Binary64}
    (finite : ∀ number ∈ numbers, number.isFinite = true) :
    decode? .stepwise (encode numbers) = some (numbers.map Binary64.reread) :=
  decode?_list fun number member => decode?_reread (finite number member)

/-- Of what is written of a series only the numbers may be read as others. -/
theorem decode?_series {series : Series Binary64} (representable : series.Representable) :
    decode? .stepwise (encode series) = some series.reread := by
  have durations := decode?_numbers representable.1
  have bases := decode?_numbers representable.2
  refine (read_members ["track", "durations", "rows", "bases", "hover", "labels", "colors",
      "placeholder"]
    [encode series.track, encode series.durations, encode series.rows, encode series.bases,
      encode series.hover, encode series.labels, encode series.colors,
      encode series.placeholder] rfl (by decide) _).trans ?_
  simp only [List.map_cons, List.map_nil, required?, Option.bind_eq_bind, Option.bind_some,
    durations, bases, decode?_texts, decode?_missing]
  rfl

theorem read?_pretty_series {series : List (Series Binary64)}
    (representable : ∀ one ∈ series, one.Representable) (level : Nat) :
    read? .stepwise ((encode series).pretty level) = some (series.map Series.reread) ∧
      read? .stepwise ((encode series).pretty level ++ "\n") =
        some (series.map Series.reread) := by
  obtain ⟨alone, ended⟩ := Json.ofString?_pretty (Lawful.writable series) level
  have decoded := decode?_list fun one member => decode?_series (representable one member)
  constructor
  · rw [read?, alone]
    exact decoded
  · rw [read?, ended]
    exact decoded

end Codec

namespace Series

theorem Representable.reread {series : Series Binary64} (representable : series.Representable) :
    series.reread.Representable := by
  constructor
  · intro duration member
    obtain ⟨number, included, rfl⟩ := List.mem_map.mp member
    exact Binary64.isFinite_reread (representable.1 number included)
  · intro base member
    obtain ⟨number, included, rfl⟩ := List.mem_map.mp member
    exact Binary64.isFinite_reread (representable.2 number included)

theorem IsShort.reread_eq {series : Series Binary64} (short : series.IsShort) :
    series.reread = series := by
  have same {numbers : List Binary64} (each : ∀ number ∈ numbers, number.IsShort) :
      numbers.map Binary64.reread = numbers :=
    (List.map_congr_left fun number member => (each number member).reread_eq).trans numbers.map_id
  rw [reread, same short.1, same short.2]

theorem bar_reread (series : Series Binary64) (index : Nat) :
    series.reread.bar index = series.bar index >>= fun bar => pure bar.reread := by
  have found : series.reread.bar? index = (series.bar? index).map Bar.reread := by
    simp only [bar?, reread, List.getElem?_map]
    -- A bar is missing as soon as one of its entries is.
    cases series.bases[index]? with
    | none => rfl
    | some base =>
      cases series.durations[index]? with
      | none => rfl
      | some duration =>
        cases series.hover[index]? <;> cases series.labels[index]? <;>
          cases series.colors[index]? <;> rfl
  rw [bar, found, bar]
  cases series.bar? index <;> rfl

/-- A series that was read again has the bars that the series has, but for their numbers. -/
theorem bars_reread (series : Series Binary64) :
    series.reread.bars = series.bars >>= fun bars => pure (bars.map Bar.reread) := by
  have indices : series.reread.barIndices = series.barIndices := by
    simp [barIndices, reread, size]
  rw [bars, indices, bars, ← mapM_view]
  exact congrArg series.barIndices.mapM (funext series.bar_reread)

theorem intervals?_reread {series : Series Binary64} {intervals : List (Interval Binary64)}
    (held : series.intervals? = some intervals) :
    series.reread.intervals? = some (intervals.map Interval.reread) := by
  rw [intervals?, bars_reread]
  rw [intervals?] at held
  cases returned : series.bars with
  | error fault =>
    rw [returned] at held
    cases held
  | ok bars =>
    rw [returned] at held
    dsimp only [ok_bind, pure_eq_ok] at held ⊢
    rw [mapM_eq_some_iff] at held ⊢
    rw [List.forall₂_map_left_iff, List.forall₂_map_right_iff]
    refine held.imp fun bar interval named => ?_
    obtain ⟨color, colored, rfl⟩ := Option.map_eq_some_iff.mp named
    exact Option.map_eq_some_iff.mpr ⟨color, colored, rfl⟩

end Series

end TraceChart
