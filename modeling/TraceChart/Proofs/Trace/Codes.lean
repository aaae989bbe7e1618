import TraceChart.Proofs.Json.Parsing
import TraceChart.Proofs.Trace.Places

/-!
# Integers in the places of codes

Three readers are tried on the value of a code: digits are an integer if a word has room for it,
any other number is rounded first, and a text is trimmed. Together they give an integer where the
value says one, and never another: nothing is lost of integers above `2 ^ 53`, no number is cut or
brought into range, and minus zero, which is a number and no integer, is zero all the same.
-/

namespace TraceChart

/-! ### What values say -/

/-- Words are integers of 64 bits with a sign. -/
def InWord (integer : Int) : Prop :=
  -2 ^ 63 ≤ integer ∧ integer < 2 ^ 63

instance (integer : Int) : Decidable (InWord integer) :=
  inferInstanceAs (Decidable (_ ∧ _))

theorem fitsWord_iff (integer : Int) : fitsWord integer = true ↔ InWord integer := by
  rw [fitsWord, decide_eq_true_iff, InWord]
  omega

/-- Digits without point and exponent whose value is an integer of a word, be it minus zero. -/
structure Numeral.Plain (numeral : Numeral) (integer : Int) : Prop where
  pointless : numeral.fraction = []
  unraised : numeral.exponent = none
  reads : Binary64.signed numeral.negative (Digit.value numeral.whole) = integer
  bounded : InWord integer

/-- The integer that a value says in the place of a code: digits say it exactly, any other number
if it is read as a finite number that is equal to it, and a text by digits between blanks. -/
inductive CodeDenotes (integer : Int) : Json.Value → Prop
  | digits {numeral : Numeral} (plain : numeral.Plain integer) :
      CodeDenotes integer (.number numeral)
  | number {numeral : Numeral} (other : ∀ exact, ¬numeral.Plain exact)
      (finite : (Conversion.stepwise numeral).isFinite = true)
      (lower : -2 ^ 63 ≤ (Conversion.stepwise numeral).value)
      (upper : (Conversion.stepwise numeral).value < 2 ^ 63)
      (equal : (Conversion.stepwise numeral).value = integer) :
      CodeDenotes integer (.number numeral)
  | text {text : String} (written : IntegerWritten integer text) (bounded : InWord integer) :
      CodeDenotes integer (.string (some text))

theorem Numeral.integral_iff_plain (numeral : Numeral) (integer : Int) :
    numeral.Integral integer ↔
      numeral.Plain integer ∧ ¬(numeral.negative = true ∧ integer = 0) := by
  constructor
  · rintro ⟨pointless, unraised, reads, signed, fits⟩
    exact ⟨⟨pointless, unraised, reads, (fitsWord_iff integer).mp fits⟩, signed⟩
  · rintro ⟨⟨pointless, unraised, reads, bounded⟩, signed⟩
    exact ⟨pointless, unraised, reads, signed, (fitsWord_iff integer).mpr bounded⟩

/-! ### Minus zero -/

namespace Conversion

theorem fillWord_of_value {digits : List Digit} (zero : Digit.value digits = 0) :
    fillWord 0 digits = (0, []) := by
  induction digits with
  | nil => rfl
  | cons digit digits ih =>
    rw [← List.singleton_append, Digit.value_append, Nat.add_eq_zero_iff] at zero
    have first : digit.val = 0 := by
      simpa [Digit.value] using zero.1
    rw [fillWord, first]
    exact ih zero.2

/-- Zero with a sign is read as zero with the sign, however many zeros it is written with. -/
theorem stepwise_of_minusZero {numeral : Numeral} (plain : numeral.Plain 0)
    (negative : numeral.negative = true) : stepwise numeral = .zero true := by
  have zero : Digit.value numeral.whole = 0 := by
    have reads := plain.reads
    rw [negative] at reads
    simpa [Binary64.signed] using reads
  have scaled : scale 0 0 = .zero false := by decide +kernel
  rw [stepwise, fillWord_of_value zero, plain.pointless, plain.unraised, negative]
  exact congrArg Binary64.neg scaled

end Conversion

/-! ### What is read of values -/

/-- The one case of digits that are read as a number is minus zero, which is equal to zero. -/
theorem Numeral.Plain.minusZero {numeral : Numeral} {integer : Int} (plain : numeral.Plain integer)
    (other : ∀ exact, ¬numeral.Integral exact) :
    integer = 0 ∧ (Conversion.stepwise numeral).isFinite = true ∧
      (Conversion.stepwise numeral).value = 0 := by
  obtain ⟨negative, rfl⟩ : numeral.negative = true ∧ integer = 0 := by
    by_contra signed
    exact other integer ((numeral.integral_iff_plain integer).mpr ⟨plain, signed⟩)
  rw [Conversion.stepwise_of_minusZero plain negative]
  refine ⟨rfl, rfl, ?_⟩
  simp [Binary64.value, Binary64.zero, Binary64.signed]

/-- The integer that is read of a value in the place of a code is the one that the value says. -/
theorem code_iff (value : Json.Value) (integer : Int) :
    (∃ code, Code.ofJson? .stepwise value = some code ∧ code.toInt? = some integer) ↔
      CodeDenotes integer value := by
  simp only [Code.ofJson?_eq_some_iff, Code.toInt?_eq_some_iff]
  constructor
  · rintro ⟨code, form, stands⟩
    cases form with
    | @integer numeral _ integral =>
      cases stands
      exact .digits ((numeral.integral_iff_plain integer).mp integral).1
    | @number numeral other =>
      obtain _ | ⟨finite, equal, fits⟩ := stands
      by_cases plain : ∃ exact, numeral.Plain exact
      · -- Digits that are read as a number are minus zero, and the number is zero.
        obtain ⟨exact, plain⟩ := plain
        obtain ⟨rfl, _, zero⟩ := plain.minusZero other
        rw [zero, eq_comm, Int.cast_eq_zero] at equal
        exact equal ▸ .digits plain
      · obtain ⟨lower, upper⟩ := (fitsWord_iff integer).mp fits
        refine .number (not_exists.mp plain) finite ?_ ?_ equal <;> rw [equal]
        · exact_mod_cast lower
        · exact_mod_cast upper
    | text text =>
      obtain _ | _ | ⟨written, fits⟩ := stands
      exact .text written ((fitsWord_iff integer).mp fits)
  · intro denotes
    cases denotes with
    | @digits numeral plain =>
      -- All digits are read as an integer, except minus zero.
      by_cases integral : ∃ exact, numeral.Integral exact
      · obtain ⟨exact, integral⟩ := integral
        obtain rfl : exact = integer := integral.reads.symm.trans plain.reads
        exact ⟨.integer exact, .integer integral, .integer exact⟩
      · obtain ⟨rfl, finite, zero⟩ := plain.minusZero (not_exists.mp integral)
        exact ⟨.number (Conversion.stepwise numeral), .number (not_exists.mp integral) finite,
          .number finite (zero.trans Int.cast_zero.symm) rfl⟩
    | @number numeral other finite lower upper equal =>
      have inexact : ∀ exact, ¬numeral.Integral exact := fun exact integral =>
        other exact ((numeral.integral_iff_plain exact).mp integral).1
      rw [equal] at lower upper
      have bounded : InWord integer := ⟨by exact_mod_cast lower, by exact_mod_cast upper⟩
      exact ⟨.number (Conversion.stepwise numeral), .number inexact finite,
        .number finite equal ((fitsWord_iff integer).mpr bounded)⟩
    | @text text written bounded =>
      exact ⟨.text text, .text text, .text written ((fitsWord_iff integer).mpr bounded)⟩

-- With a point, the greatest integer of a word is rounded to one that no word has room for.
example : (Code.ofJson? .stepwise (.number ⟨false,
    [9, 2, 2, 3, 3, 7, 2, 0, 3, 6, 8, 5, 4, 7, 7, 5, 8, 0, 7], [0], none⟩)).bind Code.toInt? =
      none := by decide +kernel

/-! ### Codes in documents -/

/-- The integer in the place of a code is the one that its value says, if it says one. A document
reads the same with each value that says it, and is malformed with a value that is no number and
no text. -/
theorem integer_of_place {place : Json.Value → Json.Value} (coded : CodePlace place)
    (value : Json.Value) :
    (∀ integer, (∃ code, Code.ofJson? .stepwise value = some code ∧
      code.toInt? = some integer) ↔ CodeDenotes integer value) ∧
    (∀ integer other bytes otherBytes, CodeDenotes integer value → CodeDenotes integer other →
      (place value).Form bytes → (place other).Form otherBytes →
        readTrace .stepwise bytes = readTrace .stepwise otherBytes) ∧
    (value = .null ∨ (∃ flag, value = .bool flag) ∨ (∃ items, value = .array items) ∨
        (∃ members, value = .object members) →
      ∀ bytes, (place value).Form bytes → readTrace .stepwise bytes = .error .malformed) := by
  have parsed {value : Json.Value} {bytes : List UInt8} (form : value.Form bytes) :
      readTrace .stepwise bytes = countersOfJson .stepwise value := by
    rw [readTrace, (Json.ofBytes?_eq_some_iff bytes value).mpr form]
  refine ⟨code_iff value, ?_, fun kind bytes form => ?_⟩
  · intro integer other bytes otherBytes denotes otherDenotes form otherForm
    obtain ⟨code, read, stands⟩ := (code_iff value integer).mpr denotes
    obtain ⟨otherCode, otherRead, otherStands⟩ := (code_iff other integer).mpr otherDenotes
    rw [parsed form, parsed otherForm]
    exact coded.congr read otherRead ⟨integer, stands, otherStands⟩
  · have nothing : Code.ofJson? .stepwise value = none := by
      rcases kind with rfl | ⟨_, rfl⟩ | ⟨_, rfl⟩ | ⟨_, rfl⟩ <;> rfl
    rw [parsed form, coded.malformed nothing]

/-- An event whose code no number is equal to. -/
theorem integer_of_place_of_odd :
    let digits : List Digit := [9, 0, 0, 7, 1, 9, 9, 2, 5, 4, 7, 4, 0, 9, 9, 3]
    let place : Json.Value → Json.Value := fun value =>
      .object [(some "a", .array [.number ⟨false, [3], [], none⟩,
        .array [.array [value, .number ⟨false, [0], [], none⟩]]])]
    CodePlace place ∧ CodeDenotes 9007199254740993 (.number ⟨false, digits, [], none⟩) ∧
      CodeDenotes 9007199254740993 (.string (some " +9007199254740993")) ∧
      readTrace .stepwise "\x7b\"a\": [3, [[9007199254740993, 0]]]\x7d".toUTF8.toList =
        .ok [⟨"a", .computeUnit, [⟨0.0, 9007199254740993⟩]⟩] ∧
      readTrace .stepwise "\x7b\"a\": [3, [[\" +9007199254740993\", 0]]]\x7d".toUTF8.toList =
        .ok [⟨"a", .computeUnit, [⟨0.0, 9007199254740993⟩]⟩] ∧
      readTrace .stepwise "\x7b\"a\": [3, [[null, 0]]]\x7d".toUTF8.toList =
        .error .malformed := by
  intro digits place
  have coded : CodePlace place :=
    .event (.item [] (List.length_singleton)) (.item _ List.length_nil) [] [] (some "a") [] []
  have plain : CodeDenotes 9007199254740993 (.number ⟨false, digits, [], none⟩) :=
    .digits ⟨rfl, rfl, by decide, by decide⟩
  have text : CodeDenotes 9007199254740993 (.string (some " +9007199254740993")) :=
    .text (@IntegerWritten.parts false _ [' '] ['+'] [] digits (List.forall_mem_singleton.mpr rfl)
      .plus (List.cons_ne_nil _ _) (List.forall_mem_nil _) (by decide +kernel)) (by decide)
  have read : readTrace .stepwise "\x7b\"a\": [3, [[9007199254740993, 0]]]\x7d".toUTF8.toList =
      .ok [⟨"a", .computeUnit, [⟨0.0, 9007199254740993⟩]⟩] := by decide +kernel
  obtain ⟨_, same, _⟩ := integer_of_place coded (.number ⟨false, digits, [], none⟩)
  obtain ⟨_, _, malformed⟩ := integer_of_place coded .null
  refine ⟨coded, plain, text, read, ?_, ?_⟩
  · rw [← read]
    refine (same _ _ _ _ plain text ?_ ?_).symm <;> rw [← Json.ofBytes?_eq_some_iff] <;> cbv
  · refine malformed (.inl rfl) _ ?_
    rw [← Json.ofBytes?_eq_some_iff]
    cbv

end TraceChart
