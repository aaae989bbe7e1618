import TraceChart.Proofs.Json.Soundness
import TraceChart.Proofs.Trace.Decoding

/-!
# The shape of traces

Which JSON values are traces, and of which drafts. Codes are not looked at yet: a code may be any
integer, number or text. Members that are no fields may say anything, but every key has to be text,
and a field may not come twice. The reader takes exactly the documents of this shape.
-/

namespace TraceChart

/-! ### Codes and times -/

/-- A value in the place of a code, with what it says. -/
inductive CodeForm (convert : Conversion) : Code → Json.Value → Prop
  | integer {numeral : Numeral} {value : Int} (integral : numeral.Integral value) :
      CodeForm convert (.integer value) (.number numeral)
  | number {numeral : Numeral} (other : ∀ value, ¬numeral.Integral value)
      (finite : (convert numeral).isFinite = true) :
      CodeForm convert (.number (convert numeral)) (.number numeral)
  | text (text : String) : CodeForm convert (.text text) (.string (some text))

inductive TimeForm (convert : Conversion) : Binary64 → Json.Value → Prop
  | number {numeral : Numeral} (finite : (convert numeral).isFinite = true) :
      TimeForm convert (convert numeral) (.number numeral)

variable {convert : Conversion}

theorem Code.ofJson?_eq_some_iff (value : Json.Value) (code : Code) :
    Code.ofJson? convert value = some code ↔ CodeForm convert code value := by
  constructor
  · intro read
    unfold Code.ofJson? at read
    split at read
    next numeral =>
      split at read
      next integer found =>
        cases read
        exact .integer ((Numeral.integral_iff numeral integer).mpr found)
      next none_found =>
        dsimp only at read
        split at read
        next finite =>
          cases read
          exact .number ((Numeral.not_integral_iff numeral).mpr none_found) finite
        next => cases read
    next text =>
      cases read
      exact .text text
    next => cases read
  · intro form
    cases form with
    | @integer numeral integer integral =>
      rw [Numeral.integral_iff] at integral
      rw [Code.ofJson?, integral]
    | @number numeral other finite =>
      have none_found := (Numeral.not_integral_iff numeral).mp other
      rw [Code.ofJson?, none_found, if_pos finite]
    | text text => rfl

theorem timeOfJson?_eq_some_iff (value : Json.Value) (time : Binary64) :
    timeOfJson? convert value = some time ↔ TimeForm convert time value := by
  constructor
  · intro read
    unfold timeOfJson? at read
    split at read
    next numeral =>
      dsimp only at read
      split at read
      next finite =>
        cases read
        exact .number finite
      next => cases read
    next => cases read
  · rintro ⟨finite⟩
    rw [timeOfJson?, if_pos finite]

/-! ### Fields -/

namespace Json

/-- A value that one member of an object has under a name, and no other member. -/
def Sole (members : List (Text × Value)) (name : String) (value : Value) : Prop :=
  ∃ before after, members = before ++ (some name, value) :: after ∧
    ∀ member ∈ before ++ after, member.1 ≠ some name

def Missing (members : List (Text × Value)) (name : String) : Prop :=
  ∀ member ∈ members, member.1 ≠ some name

def Keyed (members : List (Text × Value)) : Prop :=
  ∀ member ∈ members, member.1.isSome = true

theorem valuesOf_eq_nil_iff (members : List (Text × Value)) (name : String) :
    valuesOf members name = [] ↔ Missing members name := by
  simp [Missing, valuesOf]

theorem field?_eq_some_none_iff (members : List (Text × Value)) (name : String) :
    field? members name = some none ↔ Missing members name := by
  rw [← valuesOf_eq_nil_iff, field?]
  split <;> simp_all

theorem field?_eq_some_some_iff (members : List (Text × Value)) (name : String) (value : Value) :
    field? members name = some (some value) ↔ Sole members name value := by
  have single : field? members name = some (some value) ↔ valuesOf members name = [value] := by
    rw [field?]
    split <;> simp_all
  rw [single, valuesOf, List.map_eq_singleton_iff]
  constructor
  · rintro ⟨⟨key, content⟩, found, rfl⟩
    obtain ⟨before, after, rfl, skipped, named, rest⟩ := List.filter_eq_cons_iff.mp found
    obtain rfl : key = some name := of_decide_eq_true named
    refine ⟨before, after, rfl, fun member included => ?_⟩
    rcases List.mem_append.mp included with earlier | later
    · simpa using skipped member earlier
    · simpa using List.filter_eq_nil_iff.mp rest member later
  · rintro ⟨before, after, rfl, others⟩
    refine ⟨(some name, value), ?_, rfl⟩
    rw [List.filter_eq_cons_iff]
    refine ⟨before, after, rfl, fun member earlier => ?_, by simp, ?_⟩
    · simpa using others member (List.mem_append_left _ earlier)
    · rw [List.filter_eq_nil_iff]
      intro member later
      simpa using others member (List.mem_append_right _ later)

/-- The fields of a record with two fields. -/
theorem fields?_pair_iff (value : Value) (first second : String)
    (firstField secondField : Option Value) :
    value.fields? [first, second] = some [firstField, secondField] ↔
      (∃ members, value = .object members ∧ Keyed members ∧
        field? members first = some firstField ∧ field? members second = some secondField) ∨
      ∃ firstItem secondItem, value = .array [firstItem, secondItem] ∧
        firstField = some firstItem ∧ secondField = some secondItem := by
  cases value with
  | object members =>
    have textual : (members.all fun member => member.1.isSome) = true ↔ Keyed members :=
      List.all_eq_true
    have found : (Value.object members).fields? [first, second] =
        some [firstField, secondField] ↔ Keyed members ∧
          field? members first = some firstField ∧ field? members second = some secondField := by
      change fieldsOfObject? _ _ = _ ↔ _
      rw [← textual, fieldsOfObject?]
      split
      next keyed => simp [mapM_eq_some_iff, -List.mapM_cons, keyed]
      next other => simp [other]
    rw [found]
    simp
  | array items =>
    -- Only an array of two items has an item for each of the two fields.
    rcases items with _ | ⟨firstItem, _ | ⟨secondItem, _ | ⟨third, rest⟩⟩⟩
    · simp [Value.fields?]
    · simp [Value.fields?]
    · simp [Value.fields?, eq_comm]
    · simp [Value.fields?]
  | _ => simp [Value.fields?]

end Json

open Json (Sole Missing Keyed)

/-! ### Records -/

/-- An event: an object with a code and a time among its members, or an array of the two. -/
inductive EventForm (convert : Conversion) : DraftEvent → Json.Value → Prop
  | object {members : List (Json.Text × Json.Value)} {codeValue timeValue : Json.Value}
      {code : Code} {time : Binary64} (keyed : Keyed members)
      (coded : Sole members "type" codeValue) (timed : Sole members "value" timeValue)
      (codeForm : CodeForm convert code codeValue) (timeForm : TimeForm convert time timeValue) :
      EventForm convert ⟨code, time⟩ (.object members)
  | array {codeValue timeValue : Json.Value} {code : Code} {time : Binary64}
      (codeForm : CodeForm convert code codeValue) (timeForm : TimeForm convert time timeValue) :
      EventForm convert ⟨code, time⟩ (.array [codeValue, timeValue])

inductive EventsForm (convert : Conversion) : List DraftEvent → Json.Value → Prop
  | array {events : List DraftEvent} {items : List Json.Value}
      (each : List.Forall₂ (EventForm convert) events items) :
      EventsForm convert events (.array items)

/-- A counter: an object or an array as well, which may leave out the events. -/
inductive CounterForm (convert : Conversion) : DraftCounter → Json.Value → Prop
  | object {members : List (Json.Text × Json.Value)} {codeValue eventsValue : Json.Value}
      {code : Code} {events : List DraftEvent} (keyed : Keyed members)
      (coded : Sole members "counter type" codeValue) (listed : Sole members "events" eventsValue)
      (codeForm : CodeForm convert code codeValue)
      (eventsForm : EventsForm convert events eventsValue) :
      CounterForm convert ⟨code, events⟩ (.object members)
  | objectWithoutEvents {members : List (Json.Text × Json.Value)} {codeValue : Json.Value}
      {code : Code} (keyed : Keyed members) (coded : Sole members "counter type" codeValue)
      (unlisted : Missing members "events") (codeForm : CodeForm convert code codeValue) :
      CounterForm convert ⟨code, []⟩ (.object members)
  | array {codeValue eventsValue : Json.Value} {code : Code} {events : List DraftEvent}
      (codeForm : CodeForm convert code codeValue)
      (eventsForm : EventsForm convert events eventsValue) :
      CounterForm convert ⟨code, events⟩ (.array [codeValue, eventsValue])
  | arrayWithoutEvents {codeValue : Json.Value} {code : Code}
      (codeForm : CodeForm convert code codeValue) :
      CounterForm convert ⟨code, []⟩ (.array [codeValue])

/-- A trace: an object with a counter under each key. Of the counters of a name, the last one
counts, in the place of the first. -/
inductive TraceForm (convert : Conversion) (drafts : Roster String DraftCounter) :
    Json.Value → Prop
  | object {members : List (Json.Text × Json.Value)} {entries : List (String × DraftCounter)}
      (each : List.Forall₂ (fun entry member =>
        member.1 = some entry.1 ∧ CounterForm convert entry.2 member.2) entries members)
      (collected : Roster.Collected entries drafts) :
      TraceForm convert drafts (.object members)

theorem DraftEvent.ofJson?_eq_some_iff (value : Json.Value) (draft : DraftEvent) :
    DraftEvent.ofJson? convert value = some draft ↔ EventForm convert draft value := by
  constructor
  · intro read
    obtain ⟨fields, found, read⟩ := Option.bind_eq_some_iff.mp read
    split at read
    next codeValue timeValue =>
      simp only [Option.bind_eq_bind, Option.bind_eq_some_iff, Option.pure_def,
        Option.some.injEq, Code.ofJson?_eq_some_iff, timeOfJson?_eq_some_iff] at read
      obtain ⟨code, codeForm, time, timeForm, rfl⟩ := read
      rcases (Json.fields?_pair_iff _ _ _ _ _).mp found with
        ⟨members, rfl, keyed, coded, timed⟩ | ⟨_, _, rfl, codeItem, timeItem⟩
      · rw [Json.field?_eq_some_some_iff] at coded timed
        exact .object keyed coded timed codeForm timeForm
      · cases codeItem
        cases timeItem
        exact .array codeForm timeForm
    next => cases read
  · intro form
    have read {codeValue timeValue : Json.Value} {code : Code} {time : Binary64}
        (codeForm : CodeForm convert code codeValue) (timeForm : TimeForm convert time timeValue)
        (found : value.fields? ["type", "value"] = some [some codeValue, some timeValue]) :
        DraftEvent.ofJson? convert value = some ⟨code, time⟩ := by
      rw [← Code.ofJson?_eq_some_iff] at codeForm
      rw [← timeOfJson?_eq_some_iff] at timeForm
      simp [DraftEvent.ofJson?, found, codeForm, timeForm]
    cases form with
    | @object members _ _ _ _ keyed coded timed codeForm timeForm =>
      rw [← Json.field?_eq_some_some_iff] at coded timed
      exact read codeForm timeForm
        ((Json.fields?_pair_iff _ _ _ _ _).mpr (Or.inl ⟨members, rfl, keyed, coded, timed⟩))
    | array codeForm timeForm => exact read codeForm timeForm rfl

theorem eventsOfJson?_eq_some_iff (value : Json.Value) (drafts : List DraftEvent) :
    eventsOfJson? convert value = some drafts ↔ EventsForm convert drafts value := by
  have each := mapM_eq_some_iff_of (@DraftEvent.ofJson?_eq_some_iff convert)
  constructor
  · intro read
    unfold eventsOfJson? at read
    split at read
    next items => exact .array ((each items drafts).mp read)
    next => cases read
  · rintro ⟨listed⟩
    exact (each _ drafts).mpr listed

theorem DraftCounter.fields?_iff (value : Json.Value) (first second : Option Json.Value) :
    DraftCounter.fields? value = some [first, second] ↔
      value.fields? ["counter type", "events"] = some [first, second] ∨
        ∃ item, value = .array [item] ∧ first = some item ∧ second = none := by
  unfold DraftCounter.fields?
  split
  next item =>
    -- Read as a record, an array of one item would lack a field.
    have short : (Json.Value.array [item]).fields? ["counter type", "events"] = none := rfl
    simp [short, eq_comm]
  next other =>
    have not_single : ∀ item, value ≠ .array [item] := other
    simp [not_single]

theorem DraftCounter.ofJson?_eq_some_iff (value : Json.Value) (draft : DraftCounter) :
    DraftCounter.ofJson? convert value = some draft ↔ CounterForm convert draft value := by
  constructor
  · intro read
    obtain ⟨fields, found, read⟩ := Option.bind_eq_some_iff.mp read
    split at read
    next codeValue eventsField =>
      obtain ⟨code, readCode, read⟩ := Option.bind_eq_some_iff.mp read
      have codeForm := (Code.ofJson?_eq_some_iff codeValue code).mp readCode
      rw [DraftCounter.fields?_iff, Json.fields?_pair_iff] at found
      cases eventsField with
      | some eventsValue =>
        obtain ⟨events, readEvents, same⟩ := Option.bind_eq_some_iff.mp read
        cases same
        have eventsForm := (eventsOfJson?_eq_some_iff eventsValue events).mp readEvents
        rcases found with (⟨members, rfl, keyed, coded, listed⟩ | ⟨_, _, rfl, same, also⟩) |
          ⟨_, _, _, absent⟩
        · rw [Json.field?_eq_some_some_iff] at coded listed
          exact .object keyed coded listed codeForm eventsForm
        · cases same
          cases also
          exact .array codeForm eventsForm
        · cases absent
      | none =>
        cases read
        rcases found with (⟨members, rfl, keyed, coded, unlisted⟩ | ⟨_, _, _, _, absent⟩) |
          ⟨_, rfl, same, _⟩
        · rw [Json.field?_eq_some_some_iff] at coded
          rw [Json.field?_eq_some_none_iff] at unlisted
          exact .objectWithoutEvents keyed coded unlisted codeForm
        · cases absent
        · cases same
          exact .arrayWithoutEvents codeForm
    next => cases read
  · intro form
    have read {codeValue eventsValue : Json.Value} {code : Code} {events : List DraftEvent}
        (codeForm : CodeForm convert code codeValue)
        (eventsForm : EventsForm convert events eventsValue)
        (found : value.fields? ["counter type", "events"] =
          some [some codeValue, some eventsValue]) :
        DraftCounter.ofJson? convert value = some ⟨code, events⟩ := by
      rw [← Code.ofJson?_eq_some_iff] at codeForm
      rw [← eventsOfJson?_eq_some_iff] at eventsForm
      have fields := (DraftCounter.fields?_iff _ _ _).mpr (Or.inl found)
      simp [DraftCounter.ofJson?, fields, codeForm, eventsForm]
    have readWithout {codeValue : Json.Value} {code : Code}
        (codeForm : CodeForm convert code codeValue)
        (fields : DraftCounter.fields? value = some [some codeValue, none]) :
        DraftCounter.ofJson? convert value = some ⟨code, []⟩ := by
      rw [← Code.ofJson?_eq_some_iff] at codeForm
      simp [DraftCounter.ofJson?, fields, codeForm]
    cases form with
    | @object members _ _ _ _ keyed coded listed codeForm eventsForm =>
      rw [← Json.field?_eq_some_some_iff] at coded listed
      exact read codeForm eventsForm
        ((Json.fields?_pair_iff _ _ _ _ _).mpr (Or.inl ⟨members, rfl, keyed, coded, listed⟩))
    | @objectWithoutEvents members _ _ keyed coded unlisted codeForm =>
      rw [← Json.field?_eq_some_some_iff] at coded
      rw [← Json.field?_eq_some_none_iff] at unlisted
      have found := (Json.fields?_pair_iff _ _ _ _ _).mpr
        (Or.inl ⟨members, rfl, keyed, coded, unlisted⟩)
      exact readWithout codeForm ((DraftCounter.fields?_iff _ _ _).mpr (Or.inl found))
    | array codeForm eventsForm => exact read codeForm eventsForm rfl
    | arrayWithoutEvents codeForm => exact readWithout codeForm rfl

theorem entryOfJson?_eq_some_iff (member : Json.Text × Json.Value)
    (entry : String × DraftCounter) :
    entryOfJson? convert member = some entry ↔
      member.1 = some entry.1 ∧ CounterForm convert entry.2 member.2 := by
  obtain ⟨name, draft⟩ := entry
  simp only [entryOfJson?, Option.bind_eq_bind, Option.bind_eq_some_iff, Option.pure_def,
    Option.some.injEq, Prod.mk.injEq, DraftCounter.ofJson?_eq_some_iff]
  constructor
  · rintro ⟨_, named, _, form, rfl, rfl⟩
    exact ⟨named, form⟩
  · rintro ⟨named, form⟩
    exact ⟨name, named, draft, form, rfl, rfl⟩

/-- The reader takes the values that are traces, and it has the drafts that they are traces of. -/
theorem draftsOfJson?_eq_some_iff (value : Json.Value) (drafts : Roster String DraftCounter) :
    draftsOfJson? convert value = some drafts ↔ TraceForm convert drafts value := by
  have each := mapM_eq_some_iff_of (@entryOfJson?_eq_some_iff convert)
  constructor
  · intro read
    unfold draftsOfJson? at read
    split at read
    next members =>
      obtain ⟨entries, found, same⟩ := Option.bind_eq_some_iff.mp read
      exact .object ((each members entries).mp found)
        ((Roster.putAll_eq_iff entries drafts).mp (Option.some.inj same))
    next => cases read
  · rintro ⟨listed, collected⟩
    rw [draftsOfJson?, (each _ _).mpr listed]
    exact congrArg some ((Roster.putAll_eq_iff _ drafts).mpr collected)

end TraceChart
