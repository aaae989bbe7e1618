import TraceChart.Proofs.Trace.Shape

/-!
# The order of errors

A document that is no trace is malformed, whatever codes it has. In a trace, the counters are
looked at one after the other: first whether the category is an integer, then whether there is such
a category, then whether each event is an integer. The first problem of the first counter that has
one is reported, and a trace without any problem has its counters read.
-/

namespace TraceChart

/-! ### Integers in texts -/

theorem char_of_asciiDigit? {char : Char} {digit : Digit} (known : asciiDigit? char = some digit) :
    char = digit.char := by
  unfold asciiDigit? at known
  split at known
  next bounds =>
    cases known
    have number : 48 + (char.toNat - 48) = char.toNat := by omega
    rw [Digit.char, number, Char.ofNat_toNat]
  next => cases known

theorem digits_of_readNatural? {text : List Char} {value : Nat}
    (read : readNatural? text = some value) :
    ∃ digits, digits ≠ [] ∧ text = Digit.chars digits ∧ value = Digit.value digits := by
  unfold readNatural? at read
  split at read
  next => cases read
  next written =>
    obtain ⟨digits, each, rfl⟩ := Option.map_eq_some_iff.mp read
    rw [mapM_eq_some_iff] at each
    have chars : text = Digit.chars digits := by
      rw [← List.forall₂_eq_eq_eq, Digit.chars, List.forall₂_map_right_iff]
      exact each.imp fun char digit => char_of_asciiDigit?
    refine ⟨digits, ?_, chars, rfl⟩
    rintro rfl
    exact written chars

theorem parts_of_readInteger? {text : List Char} {value : Int}
    (read : readInteger? text = some value) :
    ∃ negative sign digits, SignWritten negative sign ∧ digits ≠ [] ∧
      text = sign ++ Digit.chars digits ∧ value = Binary64.signed negative (Digit.value digits) := by
  unfold readInteger? at read
  split at read
  all_goals
    simp only [Option.map_eq_some_iff, Option.bind_eq_bind, Option.bind_eq_some_iff,
      Option.pure_def, Option.some.injEq] at read
    obtain ⟨_, ⟨natural, found, rfl⟩, rfl⟩ := read
    obtain ⟨digits, written, rfl, rfl⟩ := digits_of_readNatural? found
  · exact ⟨false, ['+'], digits, .plus, written, rfl, rfl⟩
  · exact ⟨true, ['-'], digits, .minus, written, rfl, rfl⟩
  · exact ⟨false, [], digits, .absent, written, rfl, rfl⟩

theorem exists_trim (text : List Char) :
    ∃ before after, (∀ char ∈ before, isBlank char = true) ∧ (∀ char ∈ after, isBlank char = true) ∧
      text = before ++ trim text ++ after := by
  -- What is left behind the leading blanks is trimmed in reverse.
  let rest := text.dropWhile isBlank
  refine ⟨text.takeWhile isBlank, (rest.reverse.takeWhile isBlank).reverse,
    fun char member => List.mem_takeWhile_imp member,
    fun char member => List.mem_takeWhile_imp (List.mem_reverse.mp member), ?_⟩
  have back : trim text ++ (rest.reverse.takeWhile isBlank).reverse = rest := by
    rw [trim, ← List.reverse_append, List.takeWhile_append_dropWhile, List.reverse_reverse]
  rw [List.append_assoc, back, List.takeWhile_append_dropWhile]

theorem integerWritten_iff (value : Int) (text : String) :
    IntegerWritten value text ↔ readInteger? (trim text.toList) = some value := by
  constructor
  · exact IntegerWritten.read
  · intro read
    obtain ⟨before, after, leading, trailing, split⟩ := exists_trim text.toList
    obtain ⟨negative, sign, digits, signed, written, core, rfl⟩ := parts_of_readInteger? read
    rw [core] at split
    exact .parts digits leading signed written trailing split

/-! ### Codes that are integers -/

/-- The integer that a code stands for: itself, one that a number is equal to, or one that a text
holds. Beyond integers of a word, numbers and texts stand for none. -/
inductive Code.StandsFor : Code → Int → Prop
  | integer (value : Int) : Code.StandsFor (.integer value) value
  | number {number : Binary64} {value : Int} (finite : number.isFinite = true)
      (equal : number.value = value) (fits : fitsWord value = true) :
      Code.StandsFor (.number number) value
  | text {text : String} {value : Int} (written : IntegerWritten value text)
      (fits : fitsWord value = true) : Code.StandsFor (.text text) value

theorem Code.toInt?_eq_some_iff (code : Code) (value : Int) :
    code.toInt? = some value ↔ code.StandsFor value := by
  cases code with
  | integer integer =>
    constructor
    · intro same
      cases same
      exact .integer _
    · rintro ⟨⟩
      rfl
  | number number =>
    rw [Code.toInt?, Option.filter_eq_some_iff]
    constructor
    · rintro ⟨found, fits⟩
      have finite : number.isFinite = true := by
        cases number <;> first | rfl | cases found
      exact .number finite ((number.integer?_eq_some_iff finite value).mp found) fits
    · rintro ⟨⟩
      case number finite fits equal =>
        exact ⟨(number.integer?_eq_some_iff finite value).mpr equal, fits⟩
  | text text =>
    rw [Code.toInt?, Option.filter_eq_some_iff, ← integerWritten_iff]
    constructor
    · rintro ⟨written, fits⟩
      exact .text written fits
    · rintro ⟨⟩
      case text fits written => exact ⟨written, fits⟩

def Code.NoInteger (code : Code) : Prop :=
  ∀ value, ¬code.StandsFor value

theorem Code.resolve_ok_iff (track field : String) (code : Code) (value : Int) :
    code.resolve track field = .ok value ↔ code.StandsFor value := by
  rw [← Code.toInt?_eq_some_iff, Code.resolve]
  cases code.toInt? <;> simp

theorem Code.resolve_error_iff (track field : String) (code : Code) (problem : TraceProblem) :
    code.resolve track field = .error problem ↔
      code.NoInteger ∧ problem = .invalidCode track field code.describe := by
  have none_iff : code.NoInteger ↔ code.toInt? = none := by
    simp only [Code.NoInteger, ← Code.toInt?_eq_some_iff, Option.eq_none_iff_forall_ne_some, ne_eq]
  rw [none_iff, Code.resolve]
  cases code.toInt? <;> simp [eq_comm]

/-! ### Problems of a counter -/

/-- What is wrong with a counter of a track, where everything that comes before it is right. -/
inductive DraftProblem (track : String) : DraftCounter → TraceProblem → Prop
  | counterType {category : Code} {events : List DraftEvent} (unread : category.NoInteger) :
      DraftProblem track ⟨category, events⟩
        (.invalidCode track "counter type" category.describe)
  | unknownCategory {category : Code} {events : List DraftEvent} {code : Int}
      (stands : category.StandsFor code) (unknown : ∀ known : Category, known.code ≠ code) :
      DraftProblem track ⟨category, events⟩ (.counter track (.unknownCategory code))
  | eventType {category : Code} {before after : List DraftEvent} {event : DraftEvent}
      (known : Category) (stands : category.StandsFor known.code)
      (earlier : ∀ other ∈ before, ∃ code, other.code.StandsFor code)
      (unread : event.code.NoInteger) :
      DraftProblem track ⟨category, before ++ event :: after⟩
        (.invalidCode track "event type" event.code.describe)

theorem Category.ofCode?_eq_none_iff (code : Int) :
    Category.ofCode? code = none ↔ ∀ known : Category, known.code ≠ code := by
  have listed : ∀ known : Category, known ∈ Category.all := by
    intro known
    cases known <;> decide
  simp [Category.ofCode?, listed]

theorem Category.code_of_ofCode? {code : Int} {category : Category}
    (known : Category.ofCode? code = some category) : category.code = code := by
  have found := List.find?_some known
  simpa using found

theorem DraftEvent.resolve_ok_iff (track : String) (event : DraftEvent) :
    (∃ result, event.resolve track = .ok result) ↔ ∃ code, event.code.StandsFor code := by
  constructor
  · rintro ⟨result, resolved⟩
    obtain ⟨code, stands, _⟩ := (bind_ok_iff _ _ _).mp resolved
    exact ⟨code, (Code.resolve_ok_iff _ _ _ _).mp stands⟩
  · rintro ⟨code, stands⟩
    refine ⟨⟨event.time, code⟩, (bind_ok_iff _ _ _).mpr ⟨code, ?_, rfl⟩⟩
    exact (Code.resolve_ok_iff _ _ _ _).mpr stands

theorem DraftEvent.resolve_error_iff (track : String) (event : DraftEvent)
    (problem : TraceProblem) :
    event.resolve track = .error problem ↔
      event.code.NoInteger ∧ problem = .invalidCode track "event type" event.code.describe := by
  rw [DraftEvent.resolve, bind_error_iff, Code.resolve_error_iff]
  simp

theorem DraftCounter.resolve_error_iff (track : String) (draft : DraftCounter)
    (problem : TraceProblem) :
    draft.resolve track = .error problem ↔ DraftProblem track draft problem := by
  obtain ⟨category, events⟩ := draft
  rw [DraftCounter.resolve, bind_error_iff, Code.resolve_error_iff]
  constructor
  -- The category is read, then looked up, and only with a known one do the events matter.
  · rintro (⟨unread, rfl⟩ | ⟨code, stands, failed⟩)
    · exact .counterType unread
    · rw [Code.resolve_ok_iff] at stands
      split at failed
      next unknown =>
        cases failed
        exact .unknownCategory stands ((Category.ofCode?_eq_none_iff code).mp unknown)
      next known found =>
        obtain rfl := Category.code_of_ofCode? found
        rcases (bind_error_iff _ _ _).mp failed with failed | ⟨_, _, returned⟩
        · obtain ⟨before, event, after, rfl, earlier, failed⟩ :=
            (mapM_error_iff _ _ _).mp failed
          obtain ⟨unread, rfl⟩ := (DraftEvent.resolve_error_iff _ _ _).mp failed
          exact .eventType known stands
            (fun other member => (DraftEvent.resolve_ok_iff track other).mp (earlier other member))
            unread
        · cases returned
  · intro wrong
    cases wrong with
    | counterType unread => exact Or.inl ⟨unread, rfl⟩
    | @unknownCategory _ _ code stands unknown =>
      refine Or.inr ⟨code, (Code.resolve_ok_iff _ _ _ _).mpr stands, ?_⟩
      rw [(Category.ofCode?_eq_none_iff code).mpr unknown]
      rfl
    | @eventType _ before after event known stands earlier unread =>
      refine Or.inr ⟨known.code, (Code.resolve_ok_iff _ _ _ _).mpr stands, ?_⟩
      have failed : (before ++ event :: after).mapM (DraftEvent.resolve track) =
          .error (.invalidCode track "event type" event.code.describe) :=
        (mapM_error_iff _ _ _).mpr ⟨before, event, after, rfl,
          fun other member => (DraftEvent.resolve_ok_iff track other).mpr (earlier other member),
          (DraftEvent.resolve_error_iff _ _ _).mpr ⟨unread, rfl⟩⟩
      rw [Category.ofCode?_code]
      dsimp only
      rw [failed]
      rfl

/-! ### Documents -/

/-- The problem of the first counter that has one. -/
def FirstProblem (drafts : Roster String DraftCounter) (problem : TraceProblem) : Prop :=
  ∃ before track draft after, drafts = before ++ (track, draft) :: after ∧
    (∀ earlier ∈ before, ∀ other, ¬DraftProblem earlier.1 earlier.2 other) ∧
    DraftProblem track draft problem

/-- A strict document of a trace, with the drafts of its counters. -/
def TraceDocument (convert : Conversion) (drafts : Roster String DraftCounter)
    (bytes : List UInt8) : Prop :=
  ∃ value : Json.Value, value.Form bytes ∧ TraceForm convert drafts value

theorem resolveAll_error_iff (drafts : Roster String DraftCounter) (problem : TraceProblem) :
    drafts.mapM (fun (name, draft) => DraftCounter.resolve name draft) = .error problem ↔
      FirstProblem drafts problem := by
  rw [mapM_error_iff]
  simp only [FirstError, exists_ok_iff, ne_eq, DraftCounter.resolve_error_iff, FirstProblem,
    Prod.exists]

theorem traceDocument_iff_of_form {convert : Conversion} {drafts : Roster String DraftCounter}
    {value : Json.Value} {bytes : List UInt8} (form : value.Form bytes) :
    TraceDocument convert drafts bytes ↔ TraceForm convert drafts value := by
  constructor
  · rintro ⟨other, otherForm, shape⟩
    -- Bytes are a document of one value only.
    rw [← Json.ofBytes?_eq_some_iff] at form otherForm
    obtain rfl : other = value := Option.some.inj (otherForm.symm.trans form)
    exact shape
  · exact fun shape => ⟨value, form, shape⟩

theorem readTrace_of_form {convert : Conversion} {value : Json.Value} {bytes : List UInt8}
    (form : value.Form bytes) : readTrace convert bytes = countersOfJson convert value := by
  rw [readTrace, (Json.ofBytes?_eq_some_iff bytes value).mpr form]

theorem readTrace_of_document {convert : Conversion} {drafts : Roster String DraftCounter}
    {bytes : List UInt8} (document : TraceDocument convert drafts bytes) :
    readTrace convert bytes =
      drafts.mapM fun (name, draft) => DraftCounter.resolve name draft := by
  obtain ⟨value, form, shape⟩ := document
  rw [readTrace_of_form form, countersOfJson, (draftsOfJson?_eq_some_iff value drafts).mpr shape]

theorem readTrace_of_no_document {convert : Conversion} {bytes : List UInt8}
    (other : ∀ drafts, ¬TraceDocument convert drafts bytes) :
    readTrace convert bytes = .error .malformed := by
  unfold readTrace
  split
  next => rfl
  next value parsed =>
    unfold countersOfJson
    split
    next => rfl
    next drafts read =>
      rw [Json.ofBytes?_eq_some_iff] at parsed
      rw [draftsOfJson?_eq_some_iff] at read
      exact absurd ⟨value, parsed, read⟩ (other drafts)

/-- Counters that were read come from a document, which names them in their order. -/
theorem exists_document {convert : Conversion} {bytes : List UInt8}
    {counters : List (Counter Binary64)} (parsed : readTrace convert bytes = .ok counters) :
    ∃ drafts, TraceDocument convert drafts bytes ∧
      counters.map Counter.name = drafts.map Prod.fst := by
  by_contra! missing
  have other : ∀ drafts, ¬TraceDocument convert drafts bytes := by
    intro drafts document
    rw [readTrace_of_document document] at parsed
    exact missing drafts document (names_of_resolve parsed)
  rw [readTrace_of_no_document other] at parsed
  cases parsed

theorem FirstProblem.ne_malformed {drafts : Roster String DraftCounter} {problem : TraceProblem}
    (first : FirstProblem drafts problem) : problem ≠ .malformed := by
  obtain ⟨_, _, _, _, _, _, wrong⟩ := first
  cases wrong <;> exact nofun

/-- Bytes are malformed exactly where they are no document of a trace. Of a trace, the first
problem is reported, and its counters are read exactly where it has none. -/
theorem readTrace_reports (convert : Conversion) (bytes : List UInt8) :
    (readTrace convert bytes = .error .malformed ↔
      ∀ drafts, ¬TraceDocument convert drafts bytes) ∧
    ∀ drafts, TraceDocument convert drafts bytes →
      (∀ problem, readTrace convert bytes = .error problem ↔ FirstProblem drafts problem) ∧
      ((∃ counters, readTrace convert bytes = .ok counters) ↔
        ∀ problem, ¬FirstProblem drafts problem) := by
  constructor
  · constructor
    · intro malformed drafts document
      rw [readTrace_of_document document, resolveAll_error_iff] at malformed
      exact malformed.ne_malformed rfl
    · exact readTrace_of_no_document
  · intro drafts document
    have reported (problem : TraceProblem) :
        readTrace convert bytes = .error problem ↔ FirstProblem drafts problem := by
      rw [readTrace_of_document document, resolveAll_error_iff]
    exact ⟨reported, by simp only [exists_ok_iff, ne_eq, reported]⟩

-- The second counter is no counter, so the code of the first is not even looked at.
example : readTrace .stepwise
    "\x7b\"a\": \x7b\"counter type\": \"x\"\x7d, \"b\": \x7b\x7d\x7d".toUTF8.toList =
      .error .malformed := by decide +kernel

example : readTrace .stepwise
    "\x7b\"a\": \x7b\"counter type\": \"x\"\x7d, \"b\": [9]\x7d".toUTF8.toList =
      .error (.invalidCode "a" "counter type" "x") := by decide +kernel

end TraceChart
