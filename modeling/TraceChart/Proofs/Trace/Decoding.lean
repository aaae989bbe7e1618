import TraceChart.Proofs.Json.Parsing
import TraceChart.Proofs.Number.Reading
import TraceChart.Proofs.Roster
import TraceChart.Proofs.Trace.Spelling
import TraceChart.Proofs.Traversal

/-!
# Reading traces that are written

The reader undoes every way to write a trace, level by level: codes, events, counters, the list of
counters, and the bytes of the document.
-/

namespace TraceChart

/-! ### Integers in strings -/

private theorem isBlank_char (digit : Digit) : isBlank digit.char = false := by
  revert digit
  decide

theorem readInteger?_of_signed {negative : Bool} {sign : List Char}
    (signed : SignWritten negative sign) (digits : List Digit) (written : digits ≠ []) :
    readInteger? (sign ++ Digit.chars digits) =
      some (Binary64.signed negative (Digit.value digits)) := by
  have read := readNatural?_chars digits written
  cases signed with
  | plus =>
    rw [List.singleton_append, readInteger?, read]
    rfl
  | minus =>
    rw [List.singleton_append, readInteger?, read]
    rfl
  | absent => exact readInteger?_chars digits written

theorem trim_of_blanks {before core after : List Char}
    (leading : ∀ char ∈ before, isBlank char = true) (solid : ∀ char ∈ core, isBlank char = false)
    (trailing : ∀ char ∈ after, isBlank char = true) : trim (before ++ core ++ after) = core := by
  have unchanged (text rest : List Char) (solid : ∀ char ∈ text, isBlank char = false)
      (written : text ≠ []) : (text ++ rest).dropWhile isBlank = text ++ rest := by
    obtain ⟨first, others, rfl⟩ := List.exists_cons_of_ne_nil written
    have dark := solid first List.mem_cons_self
    rw [List.cons_append, List.dropWhile_cons_of_neg (by simp [dark])]
  -- Both ends are dropped from the front, the second one of the text in reverse.
  have dropped : ∀ char ∈ after.reverse, isBlank char = true :=
    fun char member => trailing char (List.mem_reverse.mp member)
  unfold trim
  rw [List.append_assoc, List.dropWhile_append_of_pos leading]
  by_cases written : core = []
  · subst written
    rw [List.nil_append, List.dropWhile_eq_nil_iff.mpr trailing]
    rfl
  · have backwards := unchanged core.reverse []
      (fun char member => solid char (List.mem_reverse.mp member)) (by simpa using written)
    rw [List.append_nil] at backwards
    rw [unchanged core after solid written, List.reverse_append,
      List.dropWhile_append_of_pos dropped, backwards, List.reverse_reverse]

theorem IntegerWritten.read {code : Int} {text : String} (written : IntegerWritten code text) :
    readInteger? (trim text.toList) = some code := by
  cases written with
  | @parts negative text before sign after digits leading signed some_digit trailing split =>
    have solid : ∀ char ∈ sign ++ Digit.chars digits, isBlank char = false := by
      intro char member
      rcases List.mem_append.mp member with inSign | inDigits
      · cases signed <;> simp only [List.not_mem_nil, List.mem_singleton] at inSign <;>
          subst inSign <;> decide
      · obtain ⟨digit, _, rfl⟩ := List.mem_map.mp inDigits
        exact isBlank_char digit
    rw [split, trim_of_blanks leading solid trailing]
    exact readInteger?_of_signed signed digits some_digit

/-! ### Codes and times -/

theorem Numeral.integral_iff (numeral : Numeral) (value : Int) :
    numeral.Integral value ↔ numeral.integer?.filter fitsWord = some value := by
  have digits (pointless : numeral.fraction = []) :
      numeral.significand = Digit.value numeral.whole := by
    rw [Numeral.significand, pointless, List.append_nil]
  have zero (value : Int) (pointless : numeral.fraction = [])
      (reads : Binary64.signed numeral.negative (Digit.value numeral.whole) = value) :
      numeral.significand = 0 ↔ value = 0 := by
    rw [digits pointless, ← reads]
    cases numeral.negative <;> simp [Binary64.signed]
  rw [Option.filter_eq_some_iff]
  unfold Numeral.integer?
  constructor
  · rintro ⟨pointless, unraised, reads, signed, fits⟩
    rw [if_pos ⟨pointless, unraised, by rwa [zero value pointless reads]⟩, digits pointless, reads]
    exact ⟨rfl, fits⟩
  · rintro ⟨found, fits⟩
    split at found
    · case isTrue plain =>
      obtain ⟨pointless, unraised, signed⟩ := plain
      have reads := Option.some.inj found
      rw [digits pointless] at reads
      exact ⟨pointless, unraised, reads, by rwa [← zero value pointless reads], fits⟩
    · cases found

theorem Numeral.not_integral_iff (numeral : Numeral) :
    (∀ value, ¬numeral.Integral value) ↔ numeral.integer?.filter fitsWord = none := by
  simp only [Numeral.integral_iff, Option.eq_none_iff_forall_ne_some, ne_eq]

/-- However a code is written, a draft of it is read that stands for it. -/
theorem CodeWritten.read {convert : Conversion} {code : Int} {value : Json.Value}
    (written : CodeWritten convert code value) (fits : fitsWord code = true) :
    ∃ draft, Code.ofJson? convert value = some draft ∧ draft.toInt? = some code := by
  cases written with
  | @integer numeral integral =>
    rw [Numeral.integral_iff] at integral
    exact ⟨.integer code, by rw [Code.ofJson?, integral], rfl⟩
  | @float numeral other finite equal =>
    -- No integer is found first, so the number itself is the draft.
    have none_found := (Numeral.not_integral_iff numeral).mp other
    refine ⟨.number (convert numeral), by rw [Code.ofJson?, none_found, if_pos finite], ?_⟩
    have whole := (Binary64.integer?_eq_some_iff (convert numeral) finite code).mpr equal
    rw [Code.toInt?, whole, Option.filter_some, if_pos fits]
  | @string text written =>
    refine ⟨.text text, rfl, ?_⟩
    rw [Code.toInt?, written.read, Option.filter_some, if_pos fits]

theorem TimeWritten.read {convert : Conversion} {time : Binary64} {value : Json.Value}
    (written : TimeWritten convert time value) (finite : time.isFinite = true) :
    timeOfJson? convert value = some time := by
  obtain ⟨numeral, rfl, rfl⟩ := written
  rw [timeOfJson?, if_pos finite]

/-! ### Fields -/

/-- A field is found wherever its member stands. -/
theorem Json.field?_of_perm {members others : List (Json.Text × Json.Value)}
    (order : members.Perm others) {name : String} {found : Option Json.Value}
    (known : Json.field? others name = some found) : Json.field? members name = some found := by
  have values : (Json.valuesOf members name).Perm (Json.valuesOf others name) :=
    (order.filter _).map Prod.snd
  unfold Json.field? at known ⊢
  -- A list of at most one value has no other order.
  split at known
  · case h_1 missing =>
    rw [missing, List.perm_nil] at values
    rw [values]
    exact known
  · case h_2 value single =>
    rw [single, List.perm_singleton] at values
    rw [values]
    exact known
  · cases known

theorem Json.fields?_of_perm {members others : List (Json.Text × Json.Value)}
    (order : members.Perm others) {names : List String} {found : List (Option Json.Value)}
    (known : (Json.Value.object others).fields? names = some found) :
    (Json.Value.object members).fields? names = some found := by
  change Json.fieldsOfObject? names others = some found at known
  change Json.fieldsOfObject? names members = some found
  unfold Json.fieldsOfObject? at known ⊢
  split at known
  · case isTrue textual =>
    rw [← order.all_eq] at textual
    rw [if_pos textual, mapM_eq_some_iff]
    rw [mapM_eq_some_iff] at known
    exact known.imp fun _ _ => Json.field?_of_perm order
  · cases known

/-! ### Records -/

/-- However an event is written, a draft of it is read that resolves to it. -/
theorem Event.Written.read {convert : Conversion} {event : Event Binary64} {value : Json.Value}
    (written : Event.Written convert event value) (fits : fitsWord event.code = true)
    (finite : event.time.isFinite = true) (track : String) :
    ∃ draft, DraftEvent.ofJson? convert value = some draft ∧ draft.resolve track = .ok event := by
  have drafted {code time : Json.Value} (coded : CodeWritten convert event.code code)
      (timed : TimeWritten convert event.time time)
      (fields : value.fields? ["type", "value"] = some [some code, some time]) :
      ∃ draft, DraftEvent.ofJson? convert value = some draft ∧
        draft.resolve track = .ok event := by
    obtain ⟨draft, readCode, stands⟩ := coded.read fits
    have readTime := timed.read finite
    refine ⟨⟨draft, event.time⟩, ?_, ?_⟩
    · simp [DraftEvent.ofJson?, fields, readCode, readTime]
    · simp [DraftEvent.resolve, Code.resolve, stands]
  cases written with
  | object coded timed order =>
    exact drafted coded timed (Json.fields?_of_perm order (by
      simp [Json.Value.fields?, Json.fieldsOfObject?, Json.field?, Json.valuesOf]))
  | array coded timed => exact drafted coded timed rfl

/-- To read and resolve values one by one is to read all of them and then resolve all of them. -/
theorem exists_drafts {ε item value draft : Type} {read : value → Option draft}
    {resolve : draft → Except ε item} {items : List item} {values : List value}
    (each : List.Forall₂ (fun item value => ∃ draft, read value = some draft ∧
      resolve draft = .ok item) items values) :
    ∃ drafts, values.mapM read = some drafts ∧ drafts.mapM resolve = .ok items := by
  induction each with
  | nil => exact ⟨[], rfl, rfl⟩
  | cons first _ ih =>
    obtain ⟨draft, readFirst, resolved⟩ := first
    obtain ⟨drafts, readRest, rest⟩ := ih
    exact ⟨draft :: drafts, by simp [readFirst, readRest], by simp [resolved, rest]⟩

theorem Category.ofCode?_code (category : Category) :
    Category.ofCode? category.code = some category := by
  cases category <;> rfl

private theorem fitsWord_code (category : Category) : fitsWord category.code = true := by
  cases category <;> rfl

theorem Counter.Written.read {convert : Conversion} {counter : Counter Binary64}
    {value : Json.Value} (written : Counter.Written convert counter value)
    (fits : ∀ event ∈ counter.events, fitsWord event.code = true)
    (finite : ∀ event ∈ counter.events, event.time.isFinite = true) :
    ∃ draft, DraftCounter.ofJson? convert value = some draft ∧
      draft.resolve counter.name = .ok counter := by
  have listed {events : List Json.Value}
      (written : List.Forall₂ (Event.Written convert) counter.events events) :
      ∃ drafts, events.mapM (DraftEvent.ofJson? convert) = some drafts ∧
        drafts.mapM (DraftEvent.resolve counter.name) = .ok counter.events := by
    apply exists_drafts
    have plain : ∀ event ∈ counter.events,
        fitsWord event.code = true ∧ event.time.isFinite = true :=
      fun event member => ⟨fits event member, finite event member⟩
    refine ((List.forall₂_and_left _ _).mpr ⟨plain, written⟩).imp ?_
    rintro event value ⟨⟨fits, finite⟩, written⟩
    exact written.read fits finite counter.name
  have resolved {draft : Code} {drafts : List DraftEvent}
      (stands : draft.toInt? = some counter.category.code)
      (events : drafts.mapM (DraftEvent.resolve counter.name) = .ok counter.events) :
      DraftCounter.resolve counter.name ⟨draft, drafts⟩ = .ok counter := by
    simp [DraftCounter.resolve, Code.resolve, stands, Category.ofCode?_code, events]
  cases written with
  | @object code events members coded written order =>
    obtain ⟨draft, readCode, stands⟩ := coded.read (fitsWord_code counter.category)
    obtain ⟨drafts, readEvents, eventsResolved⟩ := listed written
    have fields : DraftCounter.fields? (.object members) = some [some code, some (.array events)] :=
      Json.fields?_of_perm order (by
        simp [Json.Value.fields?, Json.fieldsOfObject?, Json.field?, Json.valuesOf])
    refine ⟨⟨draft, drafts⟩, ?_, resolved stands eventsResolved⟩
    simp [DraftCounter.ofJson?, fields, readCode, eventsOfJson?, readEvents]
  | @withoutEvents code coded none_recorded =>
    obtain ⟨draft, readCode, stands⟩ := coded.read (fitsWord_code counter.category)
    have fields : DraftCounter.fields? (.object [(some "counter type", code)]) =
        some [some code, none] := by
      simp [DraftCounter.fields?, Json.Value.fields?, Json.fieldsOfObject?, Json.field?,
        Json.valuesOf]
    refine ⟨⟨draft, []⟩, ?_, resolved stands (by rw [none_recorded]; rfl)⟩
    simp [DraftCounter.ofJson?, fields, readCode]
  | @array code events coded written =>
    obtain ⟨draft, readCode, stands⟩ := coded.read (fitsWord_code counter.category)
    obtain ⟨drafts, readEvents, eventsResolved⟩ := listed written
    have fields : DraftCounter.fields? (.array [code, .array events]) =
        some [some code, some (.array events)] := rfl
    refine ⟨⟨draft, drafts⟩, ?_, resolved stands eventsResolved⟩
    simp [DraftCounter.ofJson?, fields, readCode, eventsOfJson?, readEvents]

/-! ### Documents -/

/-- A draft resolves to a counter of the track that it is for. -/
theorem DraftCounter.name_of_resolve {draft : DraftCounter} {track : String}
    {counter : Counter Binary64} (resolved : draft.resolve track = .ok counter) :
    counter.name = track := by
  unfold DraftCounter.resolve at resolved
  obtain ⟨code, _, resolved⟩ := (bind_ok_iff _ _ _).mp resolved
  split at resolved
  · cases resolved
  · obtain ⟨events, _, returned⟩ := (bind_ok_iff _ _ _).mp resolved
    cases returned
    rfl

theorem names_of_resolve {drafts : List (String × DraftCounter)}
    {counters : List (Counter Binary64)}
    (resolved : drafts.mapM (fun (name, draft) => draft.resolve name) = .ok counters) :
    counters.map Counter.name = drafts.map Prod.fst := by
  rw [mapM_ok_iff] at resolved
  induction resolved with
  | nil => rfl
  | cons first _ ih => rw [List.map_cons, List.map_cons, ih, DraftCounter.name_of_resolve first]

theorem CountersWritten.read {convert : Conversion} {counters : List (Counter Binary64)}
    {value : Json.Value} (written : CountersWritten convert counters value)
    (distinct : (counters.map Counter.name).Nodup)
    (fits : ∀ counter ∈ counters, ∀ event ∈ counter.events, fitsWord event.code = true)
    (finite : ∀ counter ∈ counters, ∀ event ∈ counter.events, event.time.isFinite = true) :
    countersOfJson convert value = .ok counters := by
  cases written with
  | @object members entries =>
    have plain : ∀ counter ∈ counters, ∀ event ∈ counter.events,
        fitsWord event.code = true ∧ event.time.isFinite = true :=
      fun counter member event recorded =>
        ⟨fits counter member event recorded, finite counter member event recorded⟩
    have each : List.Forall₂ (fun counter member => ∃ draft,
        entryOfJson? convert member = some draft ∧ draft.2.resolve draft.1 = .ok counter)
        counters members := by
      refine ((List.forall₂_and_left _ _).mpr ⟨plain, entries⟩).imp ?_
      rintro counter ⟨key, value⟩ ⟨plain, named, written⟩
      obtain ⟨draft, read, resolved⟩ := written.read
        (fun event recorded => (plain event recorded).1)
        (fun event recorded => (plain event recorded).2)
      refine ⟨(counter.name, draft), ?_, resolved⟩
      change key = some counter.name at named
      simp [entryOfJson?, named, read]
    obtain ⟨drafts, read, resolved⟩ := exists_drafts each
    -- Distinct names never meet in the roster, so it keeps all entries in their order.
    have names := names_of_resolve resolved
    have kept : Roster.putAll [] drafts = drafts :=
      Roster.putAll_of_nodup [] drafts (by rwa [List.nil_append, ← names])
    have drafted : draftsOfJson? convert (.object members) = some drafts := by
      rw [draftsOfJson?, read]
      exact congrArg some kept
    rw [countersOfJson, drafted]
    exact resolved

/-- Every document that writes a list of counters is read as this list. -/
theorem readTrace_of_spelled (convert : Conversion) (counters : List (Counter Binary64))
    (value : Json.Value) (bytes : List UInt8)
    (distinct : (counters.map Counter.name).Nodup)
    (fits : ∀ counter ∈ counters, ∀ event ∈ counter.events, fitsWord event.code = true)
    (finite : ∀ counter ∈ counters, ∀ event ∈ counter.events, event.time.isFinite = true)
    (written : CountersWritten convert counters value) (spelled : value.Spelled bytes) :
    readTrace convert bytes = .ok counters := by
  have parsed := Json.ofBytes?_of_spelled spelled
  rw [readTrace, parsed]
  exact written.read distinct fits finite

/-- A document in which all spellings differ from those that a writer would choose. -/
theorem readTrace_mixed_spellings :
    readTrace .stepwise ("\x7b\"\\ud83d\\ude00\": [-0, [[\" +2 \", 15e-1]]], " ++
      "\"b\": \x7b\"counter type\": 3.0\x7d\x7d").toUTF8.toList =
      .ok [⟨"😀", .system, [⟨1.5, 2⟩]⟩, ⟨"b", .computeUnit, []⟩] := by
  have two : IntegerWritten 2 " +2 " :=
    @IntegerWritten.parts false " +2 " [' '] ['+'] [' '] [2] (List.forall_mem_singleton.mpr rfl)
      .plus (List.cons_ne_nil 2 []) (List.forall_mem_singleton.mpr rfl) (by decide +kernel)
  have three : CodeWritten .stepwise 3 (.number ⟨false, [3], [0], none⟩) :=
    .float (fun _ integral => nomatch integral.pointless) (by decide +kernel)
      ((Binary64.integer?_eq_some_iff _ (by decide +kernel) 3).mp (by decide +kernel))
  have time : TimeWritten .stepwise 1.5 (.number ⟨false, [1, 5], [], some (-1)⟩) :=
    ⟨_, rfl, by decide +kernel⟩
  have written : CountersWritten .stepwise
      [⟨"😀", .system, [⟨1.5, 2⟩]⟩, ⟨"b", .computeUnit, []⟩]
      (.object [
        (some "😀", .array [.number ⟨true, [Digit.zero], [], none⟩,
          .array [.array [.string (some " +2 "), .number ⟨false, [1, 5], [], some (-1)⟩]]]),
        (some "b", .object [(some "counter type", .number ⟨false, [3], [0], none⟩)])]) :=
    .object (.cons ⟨rfl, .array .minusZero (.cons (.array (.string two) time) .nil)⟩
      (.cons ⟨rfl, .withoutEvents three rfl⟩ .nil))
  have name : Json.TokenSpelled (.string (some "😀")) _ :=
    .string (.cons (.pair '😀' 0xD83D 0xDE00 0x64 0x38 0x33 0x64 0x64 0x65 0x30 0x30
      (by decide) (by decide) rfl rfl rfl) .nil)
  have spelled : Json.Lexed _ _ :=
    .next .openObject <| .next name <| .next .colon <|
    .blank .openArray <| .next (.number (.parts true 0 [] [] (fun _ => rfl) .absent)) <|
    .next .comma <| .blank .openArray <| .next .openArray <| .next (.plain " +2 " (by simp)) <|
    .next .comma <| .blank (.number (.parts false 1 [5] [] nofun
      (.present 0x65 [1] (.inl rfl) .minus (List.cons_ne_nil 1 [])))) <|
    .next .closeArray <| .next .closeArray <| .next .closeArray <| .next .comma <|
    .blank (.plain "b" (by simp)) <| .next .colon <|
    .blank .openObject <| .next (.plain "counter type" (by simp)) <| .next .colon <|
    .blank (.number (.parts false 3 [] [0] nofun .absent)) <|
    .next .closeObject <| .next .closeObject <| .done (List.forall_mem_nil _)
  convert readTrace_of_spelled .stepwise _ _ _ (by decide) (by decide) (by decide) written spelled
  decide +kernel

end TraceChart
