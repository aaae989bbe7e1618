import TraceChart.Proofs.Number.Value

/-!
# Rounding keeps order

An operation on binary64 numbers computes its exact result and rounds it once. The result stands
to every finite number as the exact value does, or is that number: rounding never carries a value
past a number. All that the library needs of rounding follows from this, down to the order facts
about sums and quotients with which the laws of windows are proved.
-/

namespace TraceChart.Binary64

/-! ### The nearest integer -/

theorem le_nearestEven {bound numerator denominator : Nat} (positive : 0 < denominator)
    (ordered : bound * denominator ≤ numerator) : bound ≤ nearestEven numerator denominator := by
  have quotient : bound ≤ numerator / denominator := (Nat.le_div_iff_mul_le positive).mpr ordered
  unfold nearestEven
  dsimp only
  split
  · exact quotient
  · split <;> omega

theorem nearestEven_le {bound numerator denominator : Nat} (positive : 0 < denominator)
    (ordered : numerator ≤ bound * denominator) : nearestEven numerator denominator ≤ bound := by
  have divided := Nat.div_add_mod numerator denominator
  have quotient : numerator / denominator ≤ bound := Nat.div_le_of_le_mul (by rwa [Nat.mul_comm])
  unfold nearestEven
  dsimp only
  rcases quotient.eq_or_lt with exact | below
  · -- Where the quotient is the bound itself, nothing is left over that could round up.
    have nothing : numerator % denominator = 0 := by
      rw [exact, Nat.mul_comm] at divided
      omega
    rw [nothing, exact, if_pos (by omega)]
  · split
    · omega
    · split <;> omega

theorem two_mul_nearestEven_le (numerator : Nat) {denominator : Nat} (positive : 0 < denominator) :
    2 * (nearestEven numerator denominator * denominator) ≤ 2 * numerator + denominator := by
  have divided := Nat.div_add_mod numerator denominator
  have even : numerator / denominator % 2 ≤ 1 := by omega
  have remainder := Nat.mod_lt numerator positive
  rw [Nat.mul_comm] at divided
  unfold nearestEven
  dsimp only
  split
  · omega
  · split
    · rw [Nat.add_mul, Nat.one_mul]
      omega
    · have carried : numerator / denominator % 2 * denominator ≤ 1 * denominator :=
        Nat.mul_le_mul_right _ even
      rw [Nat.add_mul]
      omega

/-! ### The binade of a quotient -/

theorem twoTo_pos (exponent : Nat) : 0 < twoTo exponent :=
  Nat.two_pow_pos exponent

theorem two_zpow_eq (exponent : Int) :
    (2 : ℚ) ^ exponent = 2 ^ exponent.toNat / 2 ^ (-exponent).toNat := by
  rw [eq_div_iff (by positivity), ← zpow_natCast, ← zpow_natCast, ← zpow_add₀ (by norm_num)]
  congr 1
  omega

private theorem log2_bounds {number : Nat} (positive : 0 < number) :
    (2 : ℚ) ^ (number.log2 : Int) ≤ number ∧ (number : ℚ) < 2 ^ ((number.log2 : Int) + 1) := by
  constructor
  · rw [zpow_natCast]
    exact_mod_cast Nat.log2_self_le positive.ne'
  · rw [← Nat.cast_one, ← Nat.cast_add, zpow_natCast]
    exact_mod_cast Nat.lt_log2_self

/-- A positive quotient lies between the power of two at its binade and the next one. -/
theorem binade_bounds {numerator denominator : Nat} (numeratorPos : 0 < numerator)
    (denominatorPos : 0 < denominator) :
    (2 : ℚ) ^ binade numerator denominator ≤ numerator / denominator ∧
      (numerator / denominator : ℚ) < 2 ^ (binade numerator denominator + 1) := by
  obtain ⟨numeratorLow, numeratorHigh⟩ := log2_bounds numeratorPos
  obtain ⟨denominatorLow, denominatorHigh⟩ := log2_bounds denominatorPos
  have positive : (0 : ℚ) < denominator := by exact_mod_cast denominatorPos
  set estimate : Int := (numerator.log2 : Int) - (denominator.log2 : Int) with estimated
  have below : (2 : ℚ) ^ (estimate - 1) ≤ numerator / denominator := by
    rw [le_div_iff₀ positive]
    calc (2 : ℚ) ^ (estimate - 1) * denominator
        ≤ 2 ^ (estimate - 1) * 2 ^ ((denominator.log2 : Int) + 1) :=
          mul_le_mul_of_nonneg_left denominatorHigh.le (two_zpow_pos _).le
      _ = 2 ^ (numerator.log2 : Int) := by
          rw [← zpow_add₀ (by norm_num)]
          congr 1
          omega
      _ ≤ numerator := numeratorLow
  have above : (numerator / denominator : ℚ) < 2 ^ (estimate + 1) := by
    rw [div_lt_iff₀ positive]
    calc (numerator : ℚ) < 2 ^ ((numerator.log2 : Int) + 1) := numeratorHigh
      _ = 2 ^ (estimate + 1) * 2 ^ (denominator.log2 : Int) := by
          rw [← zpow_add₀ (by norm_num)]
          congr 1
          omega
      _ ≤ 2 ^ (estimate + 1) * denominator :=
          mul_le_mul_of_nonneg_left denominatorLow (two_zpow_pos _).le
  -- The test compares the quotient with the power of two at the estimate.
  have test : denominator * twoTo estimate.toNat ≤ numerator * twoTo (-estimate).toNat ↔
      (2 : ℚ) ^ estimate ≤ numerator / denominator := by
    rw [two_zpow_eq, div_le_div_iff₀ (by positivity) positive, mul_comm, ← cast_twoTo, ← cast_twoTo]
    norm_cast
  have unfolded : binade numerator denominator =
      if denominator * twoTo estimate.toNat ≤ numerator * twoTo (-estimate).toNat then estimate
      else estimate - 1 := rfl
  rw [unfolded]
  split
  next passed => exact ⟨test.mp passed, above⟩
  next failed =>
    refine ⟨below, ?_⟩
    rw [sub_add_cancel]
    exact not_le.mp (mt test.mpr failed)

/-! ### The place of a rounded quotient -/

/-- The exponent at which a quotient is rounded. -/
def roundingExponent (numerator denominator : Nat) : Int :=
  max (-1074) (binade numerator denominator - 52)

/-- The integer to which a quotient is rounded at its exponent. -/
def roundedSignificand (numerator denominator : Nat) : Nat :=
  nearestEven (numerator * twoTo (-roundingExponent numerator denominator).toNat)
    (denominator * twoTo (roundingExponent numerator denominator).toNat)

private theorem scaled_le_iff {bound numerator denominator : Nat} (positive : 0 < denominator)
    (exponent : Int) : bound * (denominator * twoTo exponent.toNat) ≤
        numerator * twoTo (-exponent).toNat ↔
      (bound : ℚ) * 2 ^ exponent ≤ numerator / denominator := by
  have denominatorPos : (0 : ℚ) < denominator := by exact_mod_cast positive
  rw [two_zpow_eq, mul_div_assoc', div_le_div_iff₀ (by positivity) denominatorPos, ← cast_twoTo,
    ← cast_twoTo]
  constructor <;> intro ordered
  · calc (bound : ℚ) * twoTo exponent.toNat * denominator
        = (bound * (denominator * twoTo exponent.toNat) : Nat) := by push_cast; ring
      _ ≤ _ := by exact_mod_cast ordered
  · have same : (bound : ℚ) * twoTo exponent.toNat * denominator =
        (bound * (denominator * twoTo exponent.toNat) : Nat) := by push_cast; ring
    rw [same] at ordered
    exact_mod_cast ordered

private theorem le_scaled_iff {bound numerator denominator : Nat} (positive : 0 < denominator)
    (exponent : Int) : numerator * twoTo (-exponent).toNat ≤
        bound * (denominator * twoTo exponent.toNat) ↔
      (numerator / denominator : ℚ) ≤ bound * 2 ^ exponent := by
  have denominatorPos : (0 : ℚ) < denominator := by exact_mod_cast positive
  rw [two_zpow_eq, mul_div_assoc', div_le_div_iff₀ denominatorPos (by positivity), ← cast_twoTo,
    ← cast_twoTo]
  have same : (bound : ℚ) * twoTo exponent.toNat * denominator =
      (bound * (denominator * twoTo exponent.toNat) : Nat) := by push_cast; ring
  rw [same]
  norm_cast

/-- A number whose parts have no room among the finite ones takes the place behind them all. -/
theorem rank_ofParts {significand : Nat} {exponent : Int} (small : significand < significandLimit)
    (least : -1074 ≤ exponent) (normal : leastNormal ≤ significand ∨ exponent = -1074) :
    (ofParts false significand exponent).rank =
      min (place significand exponent) (2047 * leastNormal) := by
  unfold ofParts
  split
  next canonical =>
    obtain ⟨_, _, most, _⟩ := canonical
    simp only [rank, signed, place, significandLimit, leastNormal, Bool.false_eq_true,
      if_false] at *
    omega
  next beyond =>
    have large : 971 < exponent := by
      by_contra within
      exact beyond ⟨small, least, by omega, normal⟩
    simp only [rank, signed, place, leastNormal, Bool.false_eq_true, if_false] at *
    omega

section Quotient

variable {numerator denominator : Nat} (numeratorPos : 0 < numerator)
  (denominatorPos : 0 < denominator)

include denominatorPos

theorem le_roundedSignificand {bound : Nat}
    (ordered : (bound : ℚ) * 2 ^ roundingExponent numerator denominator ≤
      numerator / denominator) : bound ≤ roundedSignificand numerator denominator :=
  le_nearestEven (Nat.mul_pos denominatorPos (twoTo_pos _))
    ((scaled_le_iff denominatorPos _).mpr ordered)

theorem roundedSignificand_le {bound : Nat}
    (ordered : (numerator / denominator : ℚ) ≤
      bound * 2 ^ roundingExponent numerator denominator) :
    roundedSignificand numerator denominator ≤ bound :=
  nearestEven_le (Nat.mul_pos denominatorPos (twoTo_pos _))
    ((le_scaled_iff denominatorPos _).mpr ordered)

include numeratorPos

/-- A quotient has at most 53 bits above its rounding exponent. -/
theorem quotient_lt : (numerator / denominator : ℚ) <
    significandLimit * 2 ^ roundingExponent numerator denominator := by
  have limit : (significandLimit : ℚ) = 2 ^ (53 : Int) := by norm_num [significandLimit]
  rw [limit, ← zpow_add₀ (by norm_num)]
  refine (binade_bounds numeratorPos denominatorPos).2.trans_le ?_
  apply zpow_le_zpow_right₀ (by norm_num)
  unfold roundingExponent
  omega

/-- And it has 53 bits there, unless it is rounded at the least exponent. -/
theorem le_quotient (normal : -1074 < roundingExponent numerator denominator) :
    (leastNormal : ℚ) * 2 ^ roundingExponent numerator denominator ≤
      numerator / denominator := by
  have least : (leastNormal : ℚ) = 2 ^ (52 : Int) := by norm_num [leastNormal]
  rw [least, ← zpow_add₀ (by norm_num)]
  refine le_trans ?_ (binade_bounds numeratorPos denominatorPos).1
  apply zpow_le_zpow_right₀ (by norm_num)
  unfold roundingExponent at *
  omega

omit denominatorPos in
theorem round_eq_ofParts : round false numerator denominator =
    if roundedSignificand numerator denominator = significandLimit then
      ofParts false leastNormal (roundingExponent numerator denominator + 1)
    else ofParts false (roundedSignificand numerator denominator)
      (roundingExponent numerator denominator) := by
  unfold round
  rw [if_neg numeratorPos.ne']
  rfl

/-- The rank of a rounded quotient is the place of its significand, also where rounding carries it
into the next binade; beyond the greatest number it is infinite. -/
theorem rank_round : (round false numerator denominator).rank =
    min (place (roundedSignificand numerator denominator)
      (roundingExponent numerator denominator)) (2047 * leastNormal) := by
  have limit := roundedSignificand_le denominatorPos (quotient_lt numeratorPos denominatorPos).le
  have least : -1074 ≤ roundingExponent numerator denominator := le_max_left _ _
  have normal : leastNormal ≤ roundedSignificand numerator denominator ∨
      roundingExponent numerator denominator = -1074 := by
    rcases least.eq_or_lt with exact | above
    · exact Or.inr exact.symm
    · exact Or.inl (le_roundedSignificand denominatorPos
        (le_quotient numeratorPos denominatorPos above))
  rw [round_eq_ofParts numeratorPos]
  split
  next carried =>
    have next : place leastNormal (roundingExponent numerator denominator + 1) =
        place significandLimit (roundingExponent numerator denominator) := by
      simp only [place, significandLimit, leastNormal]
      omega
    rw [carried, ← next]
    exact rank_ofParts (by decide) (by omega) (Or.inl le_rfl)
  next below => exact rank_ofParts (by omega) least normal

omit denominatorPos in
/-- A finite result has the rounded significand at the rounding exponent, in whichever of the two
binades it is held. -/
theorem value_round (finite : (round false numerator denominator).isFinite = true) :
    (round false numerator denominator).value =
      roundedSignificand numerator denominator * 2 ^ roundingExponent numerator denominator := by
  have parts {significand : Nat} {exponent : Int}
      (finite : (ofParts false significand exponent).isFinite = true) :
      (ofParts false significand exponent).value = significand * 2 ^ exponent := by
    unfold ofParts at finite ⊢
    split at finite
    next canonical =>
      rw [dif_pos canonical]
      simp [value, signed]
    next => cases finite
  rw [round_eq_ofParts numeratorPos] at finite ⊢
  split at finite
  next carried =>
    rw [if_pos carried, parts finite, carried, zpow_add_one₀ (by norm_num)]
    norm_num [significandLimit, leastNormal]
    ring
  next below => rw [if_neg below, parts finite]

/-- A finite result is at most half a unit above the quotient. -/
theorem value_round_le (finite : (round false numerator denominator).isFinite = true) :
    2 * (round false numerator denominator).value ≤
      2 * (numerator / denominator) + 2 ^ roundingExponent numerator denominator := by
  have half := two_mul_nearestEven_le (numerator *
    twoTo (-roundingExponent numerator denominator).toNat) (Nat.mul_pos denominatorPos
      (twoTo_pos (roundingExponent numerator denominator).toNat))
  have positive : (0 : ℚ) < denominator := by exact_mod_cast denominatorPos
  have downPos : (0 : ℚ) < twoTo (-roundingExponent numerator denominator).toNat := by
    exact_mod_cast twoTo_pos _
  rw [value_round numeratorPos finite, two_zpow_eq, ← cast_twoTo, ← cast_twoTo]
  change 2 * (roundedSignificand numerator denominator * _) ≤ _ at half
  generalize twoTo (roundingExponent numerator denominator).toNat = up at *
  generalize twoTo (-roundingExponent numerator denominator).toNat = down at *
  generalize roundedSignificand numerator denominator = significand at *
  have scaled : (2 * (significand * (denominator * up)) : ℚ) ≤
      2 * (numerator * down) + denominator * up := by exact_mod_cast half
  calc 2 * ((significand : ℚ) * (up / down))
      = 2 * (significand * (denominator * up)) / (denominator * down) := by field_simp
    _ ≤ (2 * (numerator * down) + denominator * up) / (denominator * down) := by gcongr
    _ = 2 * (numerator / denominator) + up / down := by field_simp

end Quotient

/-! ### Results of operations -/

/-- A number that an exact value is rounded to: no finite number stands between the two. -/
structure Rounds (result : Binary64) (exact : ℚ) : Prop where
  number : result.isNaN = false
  above : ∀ bound : Binary64, bound.isFinite = true → bound.value ≤ exact → bound.le result = true
  below : ∀ bound : Binary64, bound.isFinite = true → exact ≤ bound.value → result.le bound = true

theorem le_iff (left right : Binary64) : left.le right = true ↔
    left.isNaN = false ∧ right.isNaN = false ∧ left.rank ≤ right.rank := by
  simp [le, and_assoc]

theorem rank_neg (number : Binary64) : number.neg.rank = -number.rank := by
  cases number with
  | nan => rfl
  | infinite negative => cases negative <;> simp [neg, rank, signed]
  | finite negative significand exponent canonical => cases negative <;> simp [neg, rank, signed]

theorem isNaN_neg (number : Binary64) : number.neg.isNaN = number.isNaN := by
  cases number <;> rfl

theorem neg_neg (number : Binary64) : number.neg.neg = number := by
  cases number <;> simp [neg]

theorem neg_le_neg_iff (left right : Binary64) : left.neg.le right.neg = right.le left := by
  rw [Bool.eq_iff_iff, le_iff, le_iff, isNaN_neg, isNaN_neg, rank_neg, rank_neg,
    Int.neg_le_neg_iff]
  tauto

theorem Rounds.neg {result : Binary64} {exact : ℚ} (rounds : Rounds result exact) :
    Rounds result.neg (-exact) where
  number := by rw [isNaN_neg, rounds.number]
  above bound finite ordered := by
    have mirrored := rounds.below bound.neg (by rw [isFinite_neg, finite])
      (by rw [value_neg]; linarith)
    rwa [← neg_le_neg_iff, neg_neg]
  below bound finite ordered := by
    have mirrored := rounds.above bound.neg (by rw [isFinite_neg, finite])
      (by rw [value_neg]; linarith)
    rwa [← neg_le_neg_iff, neg_neg]

theorem rounds_of_value {number : Binary64} (finite : number.isFinite = true) :
    Rounds number number.value where
  number := by cases number <;> first | rfl | cases finite
  above _ boundFinite ordered := (le_iff_value_le _ _ boundFinite finite).mpr ordered
  below _ boundFinite ordered := (le_iff_value_le _ _ finite boundFinite).mpr ordered

theorem zero_value (negative : Bool) : (zero negative).value = 0 := by
  cases negative <;> simp [zero, value, signed]

theorem rounds_zero (negative : Bool) : Rounds (zero negative) 0 := by
  have rounds := @rounds_of_value (zero negative) rfl
  rwa [zero_value] at rounds

private theorem place_lt_infinite {significand : Nat} {exponent : Int}
    (canonical : Canonical significand exponent) :
    place significand exponent < 2047 * leastNormal := by
  obtain ⟨small, _, most, _⟩ := canonical
  simp only [place, significandLimit, leastNormal] at *
  omega

/-- A positive number below a quotient has its place below that of the rounded quotient. Where the
exponents differ, the lesser one belongs to the lesser number. -/
private theorem place_le_rounded {numerator denominator significand : Nat} {exponent : Int}
    (numeratorPos : 0 < numerator) (denominatorPos : 0 < denominator)
    (canonical : Canonical significand exponent)
    (ordered : (significand : ℚ) * 2 ^ exponent ≤ numerator / denominator) :
    place significand exponent ≤ place (roundedSignificand numerator denominator)
      (roundingExponent numerator denominator) := by
  obtain ⟨small, least, most, normal⟩ := canonical
  have leastRounding : -1074 ≤ roundingExponent numerator denominator := le_max_left _ _
  rcases lt_trichotomy exponent (roundingExponent numerator denominator) with less | same | more
  · have normalRounded := le_roundedSignificand denominatorPos
      (le_quotient numeratorPos denominatorPos (by omega))
    simp only [place, significandLimit, leastNormal] at *
    omega
  · subst same
    have significands := le_roundedSignificand denominatorPos ordered
    unfold place
    omega
  · have full : (leastNormal : ℚ) ≤ significand := by
      exact_mod_cast normal.resolve_right (by omega)
    have reached : (numerator / denominator : ℚ) < significand * 2 ^ exponent :=
      calc (numerator / denominator : ℚ)
          < significandLimit * 2 ^ roundingExponent numerator denominator :=
            quotient_lt numeratorPos denominatorPos
        _ = leastNormal * 2 ^ (roundingExponent numerator denominator + 1) := by
          rw [zpow_add_one₀ (by norm_num)]
          norm_num [significandLimit, leastNormal]
          ring
        _ ≤ significand * 2 ^ exponent :=
          mul_le_mul full (zpow_le_zpow_right₀ (by norm_num) (by omega)) (two_zpow_pos _).le
            (by positivity)
    exact absurd ordered (not_le.mpr reached)

private theorem rounded_le_place {numerator denominator significand : Nat} {exponent : Int}
    (numeratorPos : 0 < numerator) (denominatorPos : 0 < denominator)
    (canonical : Canonical significand exponent)
    (ordered : (numerator / denominator : ℚ) ≤ significand * 2 ^ exponent) :
    place (roundedSignificand numerator denominator) (roundingExponent numerator denominator) ≤
      place significand exponent := by
  obtain ⟨small, least, most, normal⟩ := canonical
  have leastRounding : -1074 ≤ roundingExponent numerator denominator := le_max_left _ _
  rcases lt_trichotomy exponent (roundingExponent numerator denominator) with less | same | more
  · have bound : (significand : ℚ) ≤ significandLimit := by exact_mod_cast small.le
    have strict : (significand : ℚ) < significandLimit := by exact_mod_cast small
    have missed : (significand : ℚ) * 2 ^ exponent < numerator / denominator :=
      calc (significand : ℚ) * 2 ^ exponent
          < significandLimit * 2 ^ exponent := mul_lt_mul_of_pos_right strict (two_zpow_pos _)
        _ = leastNormal * 2 ^ (exponent + 1) := by
          rw [zpow_add_one₀ (by norm_num)]
          norm_num [significandLimit, leastNormal]
          ring
        _ ≤ leastNormal * 2 ^ roundingExponent numerator denominator :=
          mul_le_mul_of_nonneg_left (zpow_le_zpow_right₀ (by norm_num) (by omega)) (by positivity)
        _ ≤ numerator / denominator := le_quotient numeratorPos denominatorPos (by omega)
    exact absurd ordered (not_le.mpr missed)
  · subst same
    have significands := roundedSignificand_le denominatorPos ordered
    unfold place
    omega
  · have limit := roundedSignificand_le denominatorPos (quotient_lt numeratorPos denominatorPos).le
    have full := normal.resolve_right (by omega)
    simp only [place, significandLimit, leastNormal] at *
    omega

theorem isNaN_ofParts (negative : Bool) (significand : Nat) (exponent : Int) :
    (ofParts negative significand exponent).isNaN = false := by
  unfold ofParts
  split <;> rfl

theorem isNaN_round (negative : Bool) (numerator denominator : Nat) :
    (round negative numerator denominator).isNaN = false := by
  unfold round
  split
  · rfl
  · dsimp only
    split <;> exact isNaN_ofParts _ _ _

theorem round_true (numerator denominator : Nat) :
    round true numerator denominator = (round false numerator denominator).neg := by
  have parts (significand : Nat) (exponent : Int) :
      ofParts true significand exponent = (ofParts false significand exponent).neg := by
    unfold ofParts
    split <;> rfl
  unfold round
  split
  · rfl
  · dsimp only
    split <;> exact parts _ _

private theorem rounds_quotient {numerator denominator : Nat} (numeratorPos : 0 < numerator)
    (denominatorPos : 0 < denominator) :
    Rounds (round false numerator denominator) (numerator / denominator) := by
  have positive : (0 : ℚ) < numerator / denominator :=
    div_pos (by exact_mod_cast numeratorPos) (by exact_mod_cast denominatorPos)
  have ranks := rank_round numeratorPos denominatorPos
  refine ⟨isNaN_round _ _ _, ?_, ?_⟩
  · intro bound finite ordered
    cases bound with
    | nan => cases finite
    | infinite => cases finite
    | finite negative significand exponent canonical =>
      have within := place_lt_infinite canonical
      have ranked : (Binary64.finite negative significand exponent canonical).rank ≤
          (round false numerator denominator).rank := by
        rw [ranks]
        change signed negative (place significand exponent) ≤ _
        cases negative with
        | true =>
          simp only [signed, if_true]
          omega
        | false =>
          have places := place_le_rounded numeratorPos denominatorPos canonical
            (by simpa [value, signed] using ordered)
          simp only [signed, Bool.false_eq_true, if_false]
          omega
      exact (le_iff _ _).mpr ⟨rfl, isNaN_round _ _ _, ranked⟩
  · intro bound finite ordered
    cases bound with
    | nan => cases finite
    | infinite => cases finite
    | finite negative significand exponent canonical =>
      have ranked : (round false numerator denominator).rank ≤
          (Binary64.finite negative significand exponent canonical).rank := by
        rw [ranks]
        change _ ≤ signed negative (place significand exponent)
        cases negative with
        | true =>
          have nonneg : (0 : ℚ) ≤ significand * 2 ^ exponent := by positivity
          simp only [value, signed, if_true, Int.cast_neg, Int.cast_natCast, neg_mul] at ordered
          linarith
        | false =>
          have places := rounded_le_place numeratorPos denominatorPos canonical
            (by simpa [value, signed] using ordered)
          simp only [signed, Bool.false_eq_true, if_false]
          omega
      exact (le_iff _ _).mpr ⟨isNaN_round _ _ _, rfl, ranked⟩

theorem rounds_round (negative : Bool) (numerator : Nat) {denominator : Nat}
    (positive : 0 < denominator) :
    Rounds (round negative numerator denominator) (signed negative numerator / denominator) := by
  rcases Nat.eq_zero_or_pos numerator with rfl | numeratorPos
  · have zeroed : (signed negative 0 / denominator : ℚ) = 0 := by
      cases negative <;> simp [signed]
    rw [zeroed]
    exact rounds_zero negative
  · have unsigned := rounds_quotient numeratorPos positive
    cases negative with
    | false => simpa [signed] using unsigned
    | true => simpa [signed, round_true, neg_div] using unsigned.neg

/-- The number that a value is rounded to: the value is a quotient, and the number is this quotient
rounded. -/
def Rounded (result : Binary64) (exact : ℚ) : Prop :=
  ∃ (negative : Bool) (numerator denominator : Nat), 0 < denominator ∧
    result = round negative numerator denominator ∧
    exact = signed negative numerator / denominator

theorem Rounded.rounds {result : Binary64} {exact : ℚ} (rounded : Rounded result exact) :
    Rounds result exact := by
  obtain ⟨negative, numerator, denominator, positive, rfl, rfl⟩ := rounded
  exact rounds_round negative numerator positive

theorem rounded_round (negative : Bool) (numerator : Nat) {denominator : Nat}
    (positive : 0 < denominator) :
    Rounded (round negative numerator denominator) (signed negative numerator / denominator) :=
  ⟨negative, numerator, denominator, positive, rfl, rfl⟩

theorem rounded_zero (negative : Bool) : Rounded (zero negative) 0 := by
  have rounded := rounded_round negative 0 one_pos
  have zeroed : (signed negative 0 / (1 : Nat) : ℚ) = 0 := by
    cases negative <;> simp [signed]
  rwa [zeroed] at rounded

theorem rounded_roundScaled (negative : Bool) (significand : Nat) (exponent : Int) :
    Rounded (roundScaled negative significand exponent)
      (signed negative significand * 2 ^ exponent) := by
  have rounded := rounded_round negative (significand * twoTo exponent.toNat)
    (twoTo_pos (-exponent).toNat)
  have exact : (signed negative (significand * twoTo exponent.toNat) /
      twoTo (-exponent).toNat : ℚ) = signed negative significand * 2 ^ exponent := by
    rw [two_zpow_eq, ← cast_twoTo, ← cast_twoTo]
    cases negative <;> simp only [signed, Bool.false_eq_true, if_false, if_true] <;> push_cast <;>
      ring
  rwa [exact] at rounded

/-! ### The four operations -/

theorem rounded_add {left right : Binary64} (leftFinite : left.isFinite = true)
    (rightFinite : right.isFinite = true) : Rounded (left + right) (left.value + right.value) := by
  obtain ⟨sum, exponent, exact, rounded⟩ := add_eq_round left right leftFinite rightFinite
  have whole : signed (sum < 0) sum.natAbs = sum := by
    simp only [signed, decide_eq_true_eq]
    split <;> omega
  rw [rounded, ← exact]
  split
  next zeroed =>
    rw [zeroed, Int.cast_zero, zero_mul]
    exact rounded_zero _
  next =>
    have rounded := rounded_roundScaled (sum < 0) sum.natAbs exponent
    rwa [whole] at rounded

theorem rounds_add {left right : Binary64} (leftFinite : left.isFinite = true)
    (rightFinite : right.isFinite = true) : Rounds (left + right) (left.value + right.value) :=
  (rounded_add leftFinite rightFinite).rounds

theorem rounded_sub {left right : Binary64} (leftFinite : left.isFinite = true)
    (rightFinite : right.isFinite = true) : Rounded (left - right) (left.value - right.value) := by
  have rounded := @rounded_add left right.neg leftFinite (by rw [isFinite_neg, rightFinite])
  rwa [value_neg, ← sub_eq_add_neg] at rounded

theorem rounds_sub {left right : Binary64} (leftFinite : left.isFinite = true)
    (rightFinite : right.isFinite = true) : Rounds (left - right) (left.value - right.value) :=
  (rounded_sub leftFinite rightFinite).rounds

private theorem signed_xor (left right : Bool) (first second : Nat) :
    (signed (left ^^ right) (first * second) : ℚ) = signed left first * signed right second := by
  cases left <;> cases right <;> simp [signed]

theorem rounded_mul {left right : Binary64} (leftFinite : left.isFinite = true)
    (rightFinite : right.isFinite = true) : Rounded (left * right) (left.value * right.value) := by
  cases left <;> cases right <;> simp only [isFinite, Bool.false_eq_true] at leftFinite rightFinite
  case finite.finite leftSign left leftExponent leftCanonical
      rightSign right rightExponent rightCanonical =>
    have rounded := rounded_roundScaled (leftSign ^^ rightSign) (left * right)
      (leftExponent + rightExponent)
    have exact : (signed (leftSign ^^ rightSign) (left * right) : ℚ) *
        2 ^ (leftExponent + rightExponent) =
          signed leftSign left * 2 ^ leftExponent *
            (signed rightSign right * 2 ^ rightExponent) := by
      rw [signed_xor, zpow_add₀ (by norm_num)]
      ring
    rwa [exact] at rounded

theorem rounds_mul {left right : Binary64} (leftFinite : left.isFinite = true)
    (rightFinite : right.isFinite = true) : Rounds (left * right) (left.value * right.value) :=
  (rounded_mul leftFinite rightFinite).rounds

theorem rounded_div {left right : Binary64} (leftFinite : left.isFinite = true)
    (rightFinite : right.isFinite = true) (nonzero : right.value ≠ 0) :
    Rounded (left / right) (left.value / right.value) := by
  cases left <;> cases right <;> simp only [isFinite, Bool.false_eq_true] at leftFinite rightFinite
  case finite.finite leftSign left leftExponent leftCanonical
      rightSign right rightExponent rightCanonical =>
    have divisor : right ≠ 0 := by
      rintro rfl
      exact nonzero (by simp [value, signed])
    let exponent := leftExponent - rightExponent
    have rounded := rounded_round (leftSign ^^ rightSign) (left * twoTo exponent.toNat)
      (Nat.mul_pos (Nat.pos_of_ne_zero divisor) (twoTo_pos (-exponent).toNat))
    have shift : (2 : ℚ) ^ leftExponent / 2 ^ rightExponent =
        2 ^ exponent.toNat / 2 ^ (-exponent).toNat := by
      rw [← zpow_sub₀ (by norm_num), two_zpow_eq]
    have exact : (signed (leftSign ^^ rightSign) (left * twoTo exponent.toNat) /
        (right * twoTo (-exponent).toNat : Nat) : ℚ) =
          signed leftSign left * 2 ^ leftExponent /
            (signed rightSign right * 2 ^ rightExponent) := by
      rw [mul_div_mul_comm, shift, ← cast_twoTo, ← cast_twoTo, div_mul_div_comm]
      cases leftSign <;> cases rightSign <;>
        simp only [signed, Bool.xor_false, Bool.xor_true, Bool.not_true, Bool.not_false,
          Bool.false_eq_true, if_false, if_true] <;> push_cast <;> ring
    rw [exact] at rounded
    have unfolded : (Binary64.finite leftSign left leftExponent leftCanonical) /
        (Binary64.finite rightSign right rightExponent rightCanonical) =
          round (leftSign ^^ rightSign) (left * twoTo exponent.toNat)
            (right * twoTo (-exponent).toNat) := if_neg divisor
    rw [unfolded]
    exact rounded

theorem rounds_div {left right : Binary64} (leftFinite : left.isFinite = true)
    (rightFinite : right.isFinite = true) (nonzero : right.value ≠ 0) :
    Rounds (left / right) (left.value / right.value) :=
  (rounded_div leftFinite rightFinite nonzero).rounds

end TraceChart.Binary64
