import TraceChart.Number.Scalar
import TraceChart.Proofs.Number.Decade
import TraceChart.Proofs.Number.Logarithm
import TraceChart.Proofs.Number.Reading

/-!
# Durations in captions

Whether a duration is written with an exponent is decided on its digits, which are those of a
decimal near it and not of the number itself. Where the notation changes, at a power of ten, this
makes no difference: the power is the shortest decimal of the number next to it, so a number has
reached it exactly where its shortest decimal has.
-/

namespace TraceChart

/-! ### Notations -/

/-- Digits, a point and digits. -/
inductive PointWritten (negative : Bool) : List Char → Prop
  | parts {whole fraction : List Digit} (some_whole : whole ≠ []) (some_fraction : fraction ≠ []) :
      PointWritten negative ((if negative then ['-'] else []) ++
        (Digit.chars whole ++ '.' :: Digit.chars fraction))

/-- One digit, which is not zero, perhaps a point and digits, and a signed exponent of at least two
digits. -/
inductive ExponentWritten (negative : Bool) : List Char → Prop
  | parts {first : Digit} {fraction exponent : List Digit} {sign : Char}
      (leading : first ≠ Digit.zero) (signed : sign = '+' ∨ sign = '-')
      (long : 2 ≤ exponent.length) :
      ExponentWritten negative ((if negative then ['-'] else []) ++
        (first.char :: ((if fraction = [] then [] else '.' :: Digit.chars fraction) ++
          'e' :: sign :: Digit.chars exponent)))

/-- A numeral with digits on both sides of its point and no exponent. -/
theorem PointWritten.of_numeral (numeral : Numeral) (some_whole : numeral.whole ≠ [])
    (some_fraction : numeral.fraction ≠ []) (unraised : numeral.exponent = none) (plus : Bool)
    (width : Nat) : PointWritten numeral.negative (numeral.chars plus width) := by
  have written := @PointWritten.parts numeral.negative _ _ some_whole some_fraction
  rw [Numeral.chars_eq, Numeral.wholeEnd, if_neg some_fraction, unraised]
  simpa [Numeral.exponentEnd] using written

/-- A numeral with one digit before its point and an exponent that is signed in any case. -/
theorem ExponentWritten.of_numeral (numeral : Numeral) {first : Digit} {exponent : Int}
    (single : numeral.whole = [first]) (leading : first ≠ Digit.zero)
    (raised : numeral.exponent = some exponent) {width : Nat} (wide : 2 ≤ width) :
    ExponentWritten numeral.negative (numeral.chars true width) := by
  have long : 2 ≤ (Numeral.exponentDigits width exponent).length := by
    rw [Numeral.exponentDigits, List.length_append, List.length_replicate]
    omega
  obtain ⟨sign, signed, chars⟩ : ∃ sign, (sign = '+' ∨ sign = '-') ∧
      Numeral.exponentChars true width exponent =
        sign :: Digit.chars (Numeral.exponentDigits width exponent) := by
    rw [Numeral.exponentChars_eq]
    split
    · exact ⟨'-', .inr rfl, rfl⟩
    · exact ⟨'+', .inl rfl, rfl⟩
  have written := @ExponentWritten.parts numeral.negative _ numeral.fraction _ _ leading signed long
  rw [Numeral.chars_eq, Numeral.wholeEnd, raised, single, Numeral.exponentEnd, chars]
  exact written

/-- The two notations are told apart by the mark of the exponent. -/
theorem PointWritten.not_exponentWritten {negative other : Bool} {text : List Char}
    (point : PointWritten negative text) : ¬ExponentWritten other text := by
  have marked : ∀ {text}, ExponentWritten other text → 'e' ∈ text := by
    rintro _ ⟨⟩
    simp
  intro exponent
  have member := marked exponent
  obtain ⟨_, _⟩ := point
  have digits (list : List Digit) : 'e' ∉ Digit.chars list := by
    intro member
    obtain ⟨digit, _, same⟩ := List.mem_map.mp member
    exact digit.char_ne rfl same
  cases negative <;> simp [digits] at member

/-! ### Leading digits -/

theorem Digit.length_ofNat (number : Nat) : (Digit.ofNat number).length = digitCount number := by
  induction number using Digit.ofNat.induct with
  | case1 number small => rw [Digit.ofNat, dif_pos small, digitCount, if_pos small]; rfl
  | case2 number large ih =>
    rw [Digit.ofNat, dif_neg large, digitCount, if_neg large, List.length_append, ih]
    rfl

namespace Decimal

variable {decimal : Decimal}

theorem value_pos (nonzero : decimal.digits ≠ 0) : 0 < decimal.value := by
  have digits : (0 : ℚ) < decimal.digits := by exact_mod_cast Nat.pos_of_ne_zero nonzero
  exact mul_pos digits (zpow_pos (by norm_num) _)

/-- The exponent of the leading digit is the whole part of the logarithm. -/
theorem leading_eq_log (nonzero : decimal.digits ≠ 0) :
    decimal.scale + (Digit.ofNat decimal.digits).length - 1 = Int.log 10 decimal.value := by
  have digits : (0 : ℚ) < decimal.digits := by exact_mod_cast Nat.pos_of_ne_zero nonzero
  rw [value, log_mul_zpow digits, Int.log_natCast, Digit.length_ofNat, digitCount_eq]
  push_cast
  ring

theorem rounded_toBinary64 (decimal : Decimal) :
    Binary64.Rounded decimal.toBinary64 decimal.value := by
  rw [toBinary64, value]
  rcases Nat.eq_zero_or_pos decimal.digits with zero | positive
  · rw [zero, Binary64.ofDecimal_zero, Nat.cast_zero, zero_mul]
    exact Binary64.rounded_zero false
  · rw [Binary64.ofDecimal_eq_round _ positive, ← Binary64.decimal_eq_quotient]
    exact Binary64.rounded_round false _ (tenTo_pos _)

/-- Numbers of one value are one number. -/
theorem finite_congr {significand other : Nat} {exponent otherExponent : Int}
    (canonical : Canonical significand exponent) (positive : 0 < significand)
    (otherCanonical : Canonical other otherExponent) (otherPositive : 0 < other)
    (same : (significand : ℚ) * 2 ^ exponent = other * 2 ^ otherExponent) :
    significand = other ∧ exponent = otherExponent := by
  have read := Binary64.ofDecimal_canonical canonical positive (value_exact significand exponent)
  rw [Binary64.ofDecimal_canonical otherCanonical otherPositive
    ((value_exact significand exponent).trans same)] at read
  cases read
  exact ⟨rfl, rfl⟩

theorem digits_shortest_ne_zero (tie : Tie) {significand : Nat} {exponent : Int}
    (canonical : Canonical significand exponent) (positive : 0 < significand) :
    (shortest tie significand exponent).digits ≠ 0 := by
  intro zero
  have read := toBinary64_shortest tie canonical positive
  rw [toBinary64, zero, Binary64.ofDecimal_zero] at read
  cases read
  exact positive.ne' rfl

/-- Let a power of ten be the shortest decimal of the number nearest to it, which is not below it.
Then a number has reached it exactly where its shortest decimal has. -/
theorem le_shortest_iff {tie : Tie} {power : Int} {bound : Nat} {boundExponent : Int}
    (boundCanonical : Canonical bound boundExponent)
    (nearest : toBinary64 ⟨1, power⟩ = .finite false bound boundExponent boundCanonical)
    (above : (10 : ℚ) ^ power ≤ bound * 2 ^ boundExponent)
    (own : shortest tie bound boundExponent = ⟨1, power⟩) {significand : Nat} {exponent : Int}
    (canonical : Canonical significand exponent) (positive : 0 < significand) :
    10 ^ power ≤ (shortest tie significand exponent).value ↔
      (10 : ℚ) ^ power ≤ significand * 2 ^ exponent := by
  have unit : (10 : ℚ) ^ power = value ⟨1, power⟩ := by rw [value, Nat.cast_one, one_mul]
  have boundRounded := rounded_toBinary64 ⟨1, power⟩
  have rounded := rounded_toBinary64 (shortest tie significand exponent)
  rw [nearest, ← unit] at boundRounded
  rw [toBinary64_shortest tie canonical positive] at rounded
  have ordered := Binary64.le_iff_value_le (.finite false bound boundExponent boundCanonical)
    (.finite false significand exponent canonical) rfl rfl
  have reversed := Binary64.le_iff_value_le (.finite false significand exponent canonical)
    (.finite false bound boundExponent boundCanonical) rfl rfl
  simp only [Binary64.value, Binary64.signed, Bool.false_eq_true, if_false, Int.cast_natCast]
    at ordered reversed
  constructor
  · intro reached
    exact above.trans (ordered.mp (boundRounded.le rounded reached))
  · intro reached
    by_contra below
    -- A number whose shortest decimal lies below the power can only be the one nearest to it.
    have least := ordered.mp (boundRounded.rounds.below _ rfl (by
      simpa [Binary64.value, Binary64.signed] using reached))
    have most := reversed.mp (rounded.le boundRounded (not_le.mp below).le)
    have boundPositive : 0 < bound := by
      rcases Nat.eq_zero_or_pos bound with rfl | boundPositive
      · have power := zpow_pos (show (0 : ℚ) < 10 by norm_num) power
        simp only [Nat.cast_zero, zero_mul] at above
        linarith
      · exact boundPositive
    obtain ⟨rfl, rfl⟩ := finite_congr canonical positive boundCanonical boundPositive
      (le_antisymm most least)
    rw [own, ← unit] at below
    exact below le_rfl

/-- The shortest decimal of a number is written with a point only exactly where the number lies
between the two powers of ten. -/
theorem isPositional_shortest_iff {significand : Nat} {exponent : Int}
    (canonical : Canonical significand exponent) (positive : 0 < significand) :
    let decimal := shortest Binary64.durationStyle.tie significand exponent
    Binary64.durationStyle.isPositional
        (decimal.scale + (Digit.ofNat decimal.digits).length - 1) = true ↔
      (10 : ℚ) ^ (-4 : Int) ≤ significand * 2 ^ exponent ∧
        (significand : ℚ) * 2 ^ exponent < 10 ^ (16 : Int) := by
  intro decimal
  have nonzero : decimal.digits ≠ 0 := digits_shortest_ne_zero _ canonical positive
  have low := @le_shortest_iff .up (-4) 7378697629483821 (-66) (by decide) (by decide +kernel)
    (by norm_num) (by decide +kernel) _ _ canonical positive
  have high := @le_shortest_iff .up 16 5000000000000000 1 (by decide) (by decide +kernel)
    (by norm_num) (by decide +kernel) _ _ canonical positive
  have ten (power : Int) := @Int.zpow_le_iff_le_log ℚ _ _ _ _ 10 (by decide) power _
    (value_pos nonzero)
  rw [leading_eq_log nonzero]
  change decide (-4 ≤ _ ∧ _ < 16) = true ↔ _
  rw [decide_eq_true_eq, ← ten, ← not_le (a := (16 : Int)), ← ten, ← low, ← not_le, ← high]
  rfl

end Decimal

/-! ### The notation of a duration -/

namespace Style

theorem pointWritten_place (negative : Bool) {digits : List Digit} (written : digits ≠ [])
    (point : Int) (plus : Bool) (width : Nat) :
    PointWritten negative ((place negative digits point true).chars plus width) := by
  unfold place
  split
  next before =>
    refine PointWritten.of_numeral ⟨negative, _, _, none⟩ (List.cons_ne_nil _ _) ?_ rfl plus width
    simp [written]
  next after =>
    have places : 0 < point.toNat := by omega
    refine PointWritten.of_numeral ⟨negative, _, _, none⟩ ?_ ?_ rfl plus width
    · simp [written, places.ne']
    · dsimp only
      split
      next => exact List.cons_ne_nil _ _
      next some_left => simpa using some_left

theorem exponentWritten_arrange {style : Style} {decimal : Decimal} (nonzero : decimal.digits ≠ 0)
    (raised : style.isPositional
      (decimal.scale + (Digit.ofNat decimal.digits).length - 1) = false) (negative : Bool)
    {width : Nat} (wide : 2 ≤ width) :
    ExponentWritten negative ((style.arrange negative decimal).chars true width) := by
  obtain ⟨first, rest, front, _, leading⟩ := Digit.ofNat_front decimal.digits
  unfold arrange
  dsimp only
  rw [if_neg nonzero, raised, front]
  exact ExponentWritten.of_numeral ⟨negative, _, _, some _⟩ rfl
    (leading (Nat.pos_of_ne_zero nonzero)) rfl wide

theorem pointWritten_arrange {style : Style} {decimal : Decimal}
    (pointZero : style.pointZero = true)
    (unraised : decimal.digits = 0 ∨ style.isPositional
      (decimal.scale + (Digit.ofNat decimal.digits).length - 1) = true) (negative plus : Bool)
    (width : Nat) : PointWritten negative ((style.arrange negative decimal).chars plus width) := by
  unfold arrange
  dsimp only
  rw [pointZero]
  split
  · exact pointWritten_place negative (List.cons_ne_nil _ _) _ plus width
  next nonzero =>
    rw [if_pos (unraised.resolve_left nonzero)]
    exact pointWritten_place negative (Digit.ofNat_ne_nil _) _ plus width

end Style

namespace Binary64

theorem abs_value (negative : Bool) {significand : Nat} {exponent : Int}
    (canonical : Canonical significand exponent) :
    |(finite negative significand exponent canonical).value| = significand * 2 ^ exponent := by
  have unit := two_zpow_pos exponent
  cases negative <;> simp [value, signed, abs_mul, abs_of_pos unit]

/-- The notation of a number depends on where its value lies. -/
theorem durationText_written {number : Binary64} (isFinite : number.isFinite = true) :
    let text := (Scalar.durationText number).toList
    let between := number.value = 0 ∨
      (10 : ℚ) ^ (-4 : Int) ≤ |number.value| ∧ |number.value| < 10 ^ (16 : Int)
    (between ∧ PointWritten number.isNegative text) ∨
      (¬between ∧ ExponentWritten number.isNegative text) := by
  cases number with
  | nan => cases isFinite
  | infinite negative => cases isFinite
  | finite negative significand exponent canonical =>
    intro text between
    let decimal : Decimal := if significand = 0 then ⟨0, 0⟩
      else Decimal.shortest durationStyle.tie significand exponent
    have chars : text = (durationStyle.arrange negative decimal).chars true 2 :=
      String.toList_ofList
    rw [chars]
    have magnitude := abs_value negative canonical
    rcases Nat.eq_zero_or_pos significand with rfl | positive
    · refine .inl ⟨.inl ?_, Style.pointWritten_arrange rfl (.inl rfl) negative true 2⟩
      rwa [Nat.cast_zero, zero_mul, abs_eq_zero] at magnitude
    · have shortest : decimal = Decimal.shortest durationStyle.tie significand exponent :=
        if_neg positive.ne'
      have located := Decimal.isPositional_shortest_iff canonical positive
      dsimp only at located
      rw [← shortest, ← magnitude] at located
      have nonzero := Decimal.digits_shortest_ne_zero durationStyle.tie canonical positive
      rw [← shortest] at nonzero
      have regular : (finite negative significand exponent canonical).value ≠ 0 := by
        rw [← abs_pos, magnitude]
        have digits : (0 : ℚ) < significand := by exact_mod_cast positive
        exact mul_pos digits (two_zpow_pos exponent)
      cases found : durationStyle.isPositional
          (decimal.scale + (Digit.ofNat decimal.digits).length - 1) with
      | true =>
        exact .inl ⟨.inr (located.mp found),
          Style.pointWritten_arrange rfl (.inr found) negative true 2⟩
      | false =>
        refine .inr ⟨?_, Style.exponentWritten_arrange nonzero found negative le_rfl⟩
        rintro (zero | inside)
        · exact regular zero
        · rw [located.mpr inside] at found
          cases found

/-- A duration in a caption is read back as itself, the sign of zero included, so two durations have
two texts. It is written with a point only exactly where it is zero or its magnitude lies between
the two powers of ten, and with an exponent elsewhere. -/
theorem durationText_of_finite {number : Binary64} (isFinite : number.isFinite = true) :
    let text := Scalar.durationText number
    let between := number.value = 0 ∨
      (10 : ℚ) ^ (-4 : Int) ≤ |number.value| ∧ |number.value| < 10 ^ (16 : Int)
    readBinary64? text.toList = some number ∧
      (∀ other : Binary64, other.isFinite = true → Scalar.durationText other = text →
        other = number) ∧
      (PointWritten number.isNegative text.toList ↔ between) ∧
      (ExponentWritten number.isNegative text.toList ↔ ¬between) := by
  intro text between
  have read : readBinary64? text.toList = some number := durationStyle.readBinary64?_text isFinite
  refine ⟨read, fun other otherFinite same => ?_, ?_⟩
  · have otherRead := durationStyle.readBinary64?_text otherFinite
    change readBinary64? (Scalar.durationText other).toList = _ at otherRead
    rw [same, read] at otherRead
    exact (Option.some.inj otherRead).symm
  · rcases durationText_written isFinite with ⟨inside, point⟩ | ⟨outside, exponent⟩
    · exact ⟨iff_of_true point inside,
        iff_of_false point.not_exponentWritten (not_not.mpr inside)⟩
    · exact ⟨iff_of_false (fun point => point.not_exponentWritten exponent) outside,
        iff_of_true exponent outside⟩

/-- The least number above zero has one digit, and an exponent of three. -/
theorem durationText_of_least :
    let least := leastTimes 1
    Scalar.durationText least = "5e-324" ∧ readBinary64? "5e-324".toList = some least ∧
      ExponentWritten false "5e-324".toList ∧ ¬PointWritten false "5e-324".toList := by
  intro least
  have text : Scalar.durationText least = "5e-324" := by decide +kernel
  obtain ⟨read, _, point, exponent⟩ := @durationText_of_finite least rfl
  have value : least.value = 2 ^ (-1074 : Int) := by
    rw [(leastTimes_eq (by decide)).2, Nat.cast_one, one_mul]
  have small : (2 : ℚ) ^ (-1074 : Int) < 10 ^ (-4 : Int) :=
    (zpow_le_zpow_right₀ one_le_two (by decide : (-1074 : Int) ≤ -14)).trans_lt (by norm_num)
  have outside : ¬(least.value = 0 ∨
      (10 : ℚ) ^ (-4 : Int) ≤ |least.value| ∧ |least.value| < 10 ^ (16 : Int)) := by
    rw [value, abs_of_pos (two_zpow_pos _), not_or, not_and_or]
    exact ⟨(two_zpow_pos _).ne', .inl (not_le.mpr small)⟩
  rw [text] at read point exponent
  exact ⟨text, read, exponent.mpr outside, fun written => outside (point.mp written)⟩

end Binary64

end TraceChart
