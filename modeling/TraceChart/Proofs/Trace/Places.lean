import TraceChart.Proofs.Trace.Order

/-!
# Places of codes

A document has places for codes: the category of a counter, and the code of an event. Level by
level, what is read of a document is put together from the code that is read in the place and from
the rest. So a document with no code in the place is no trace, and codes that are the same integer
make no difference.
-/

namespace TraceChart

/-! ### Readers around places -/

section Around

variable {α β γ δ ζ η : Type} {inner : α → Option δ} {middle : β → Option ζ}
  {outer : γ → Option η} {place : α → β} {around : β → γ} {related : δ → δ → Prop}
  {between : ζ → ζ → Prop} {same : η → η → Prop}

/-- What is read around a place is built from what is read in it, if anything is read at all, and
the same is built from what is related. -/
def ReadAround (inner : α → Option δ) (place : α → β) (middle : β → Option ζ)
    (related : δ → δ → Prop) (same : ζ → ζ → Prop) : Prop :=
  ∃ build? : Option (δ → ζ),
    (∀ value, middle (place value) = (inner value).bind fun read => build?.map (· read)) ∧
    ∀ build ∈ build?, ∀ read other, related read other → same (build read) (build other)

theorem ReadAround.of_none (fails : ∀ value, middle (place value) = none) :
    ReadAround inner place middle related between :=
  ⟨none, fun value => by rw [fails]; cases inner value <;> rfl, nofun⟩

theorem ReadAround.of_some (build : δ → ζ)
    (reads : ∀ value, middle (place value) = (inner value).map build)
    (congruent : ∀ read other, related read other → between (build read) (build other)) :
    ReadAround inner place middle related between := by
  refine ⟨some build, fun value => ?_, fun other found => ?_⟩
  · rw [reads]
    cases inner value <;> rfl
  · cases found
    exact congruent

theorem ReadAround.of_rest {θ : Type} (rest? : Option θ) (build : δ → θ → ζ)
    (reads : ∀ value,
      middle (place value) = (inner value).bind fun read => rest?.map (build read))
    (congruent : ∀ read other rest, related read other →
      between (build read rest) (build other rest)) :
    ReadAround inner place middle related between := by
  cases rest? with
  | none =>
    refine .of_none fun value => ?_
    rw [reads]
    cases inner value <;> rfl
  | some rest =>
    refine .of_some (build · rest) (fun value => ?_) fun read other => congruent read other rest
    rw [reads]
    cases inner value <;> rfl

/-- A place within a place. -/
theorem ReadAround.trans (first : ReadAround inner place middle related between)
    (second : ReadAround middle around outer between same) :
    ReadAround inner (around ∘ place) outer related same := by
  obtain ⟨build?, reads, congruent⟩ := first
  obtain ⟨wrap?, readsAround, congruentAround⟩ := second
  cases build? with
  | none =>
    refine .of_none fun value => ?_
    rw [Function.comp_apply, readsAround, reads]
    cases inner value <;> rfl
  | some build =>
    cases wrap? with
    | none =>
      refine .of_none fun value => ?_
      rw [Function.comp_apply, readsAround]
      cases middle (place value) <;> rfl
    | some wrap =>
      refine .of_some (wrap ∘ build) (fun value => ?_) fun read other agree => ?_
      · rw [Function.comp_apply, readsAround, reads]
        cases inner value <;> rfl
      · exact congruentAround wrap rfl _ _ (congruent build rfl read other agree)

/-- The place of an item in a list. -/
theorem ReadAround.item (reflexive : ∀ read, related read read) (before after : List α) :
    ReadAround inner (fun item => before ++ item :: after) (List.mapM inner) related
      (List.Forall₂ related) := by
  have read (item : α) : (before ++ item :: after).mapM inner =
      (before.mapM inner).bind fun front => (inner item).bind fun read =>
        (after.mapM inner).map fun back => front ++ read :: back := by
    rw [List.mapM_append, List.mapM_cons]
    cases before.mapM inner <;> cases inner item <;> cases after.mapM inner <;> rfl
  have same (items : List δ) : List.Forall₂ related items items :=
    List.forall₂_same.mpr fun read _ => reflexive read
  -- The other items are read whatever the value, or fail whatever it is.
  cases earlier : before.mapM inner with
  | none => exact .of_none fun item => by rw [read, earlier, Option.bind_none]
  | some front =>
    cases later : after.mapM inner with
    | none =>
      refine .of_none fun item => ?_
      rw [read, earlier, later]
      cases inner item <;> rfl
    | some back =>
      refine .of_some (fun read => front ++ read :: back) (fun item => ?_) fun one other agree => ?_
      · rw [read, earlier, later]
        cases inner item <;> rfl
      · exact List.rel_append (same front) (.cons agree (same back))

/-- Nothing is read around a place in which nothing is read. -/
theorem ReadAround.eq_none (around : ReadAround inner place middle related between) {value : α}
    (nothing : inner value = none) : middle (place value) = none := by
  obtain ⟨build?, reads, _⟩ := around
  rw [reads, nothing, Option.bind_none]

/-- Where related things are read in a place, nothing is read around either, or the same. -/
theorem ReadAround.rel (around : ReadAround inner place middle related between) {value other : α}
    {read otherRead : δ} (found : inner value = some read)
    (otherFound : inner other = some otherRead) (agree : related read otherRead) :
    Option.Rel between (middle (place value)) (middle (place other)) := by
  obtain ⟨build?, reads, congruent⟩ := around
  rw [reads, reads, found, otherFound, Option.bind_some, Option.bind_some]
  cases build? with
  | none => exact .none
  | some build => exact .some (congruent build rfl read otherRead agree)

end Around

/-! ### Fields -/

/-- A record with a place for the value of a field: under its name among the members of an object,
or at its position in an array. -/
inductive FieldPlace (name : String) (position : Nat) : (Json.Value → Json.Value) → Prop
  | member (before after : List (Json.Text × Json.Value)) :
      FieldPlace name position fun value => .object (before ++ (some name, value) :: after)
  | item {before : List Json.Value} (after : List Json.Value) (counted : before.length = position) :
      FieldPlace name position fun value => .array (before ++ value :: after)

namespace Json

variable (before after : List (Text × Value)) (name : String)

/-- The member is found where it is the only one of its name, whatever its value. -/
theorem field?_member : ∃ sole : Bool, ∀ value,
    field? (before ++ (some name, value) :: after) name =
      if sole then some (some value) else none := by
  have values (value : Value) : valuesOf (before ++ (some name, value) :: after) name =
      valuesOf before name ++ value :: valuesOf after name := by
    simp [valuesOf]
  simp only [field?, values]
  cases valuesOf before name with
  | nil =>
    cases valuesOf after name with
    | nil => exact ⟨true, fun _ => rfl⟩
    | cons => exact ⟨false, fun _ => rfl⟩
  | cons first front =>
    refine ⟨false, fun value => ?_⟩
    cases front <;> rfl

theorem field?_other {other : String} (different : name ≠ other) (value : Value) :
    field? (before ++ (some name, value) :: after) other = field? (before ++ after) other := by
  have values : valuesOf (before ++ (some name, value) :: after) other =
      valuesOf (before ++ after) other := by
    simp [valuesOf, different]
  rw [field?, values, field?]

theorem fieldsOfObject?_pair (members : List (Text × Value)) (first second : String) :
    fieldsOfObject? [first, second] members =
      if members.all (fun member => member.1.isSome) then
        (field? members first).bind fun one => (field? members second).map fun other => [one, other]
      else none := by
  unfold fieldsOfObject?
  split
  · simp only [List.mapM_cons, List.mapM_nil]
    cases field? members first <;> cases field? members second <;> rfl
  · rfl

end Json

/-- The value in the place of the first of two fields is read as that field, unless nothing is. -/
theorem FieldPlace.fields?_first {first : String} {place : Json.Value → Json.Value}
    (field : FieldPlace first 0 place) (second : String) (different : first ≠ second) :
    ∃ rest? : Option (Option Json.Value), ∀ value,
      (place value).fields? [first, second] = rest?.map fun rest => [some value, rest] := by
  cases field with
  | member before after =>
    simp only [Json.Value.fields?, Json.fieldsOfObject?_pair, Json.field?_other before after first
      different, List.all_append, List.all_cons]
    obtain ⟨sole, found⟩ := Json.field?_member before after first
    split
    · refine ⟨if sole then Json.field? (before ++ after) second else none, fun value => ?_⟩
      rw [found]
      cases sole <;> rfl
    · exact ⟨none, fun _ => rfl⟩
  | item after counted =>
    -- Only an array of two items has an item for each field.
    obtain rfl := List.eq_nil_of_length_eq_zero counted
    rcases after with _ | ⟨second, _ | ⟨third, rest⟩⟩
    · exact ⟨none, fun _ => rfl⟩
    · exact ⟨some (some second), fun _ => rfl⟩
    · exact ⟨none, fun _ => by simp [Json.Value.fields?]⟩

/-- The same for the place of the second field. -/
theorem FieldPlace.fields?_second {second : String} {place : Json.Value → Json.Value}
    (field : FieldPlace second 1 place) (first : String) (different : first ≠ second) :
    ∃ rest? : Option (Option Json.Value), ∀ value,
      (place value).fields? [first, second] = rest?.map fun rest => [rest, some value] := by
  cases field with
  | member before after =>
    simp only [Json.Value.fields?, Json.fieldsOfObject?_pair, Json.field?_other before after second
      different.symm, List.all_append, List.all_cons]
    obtain ⟨sole, found⟩ := Json.field?_member before after second
    split
    · refine ⟨if sole then Json.field? (before ++ after) first else none, fun value => ?_⟩
      rw [found]
      cases sole <;> cases Json.field? (before ++ after) first <;> rfl
    · exact ⟨none, fun _ => rfl⟩
  | item after counted =>
    obtain ⟨first, rfl⟩ := List.length_eq_one_iff.mp counted
    cases after with
    | nil => exact ⟨some (some first), fun _ => rfl⟩
    | cons third rest => exact ⟨none, fun _ => by simp [Json.Value.fields?]⟩

/-! ### Records -/

/-- Two ways to say one integer. -/
def Code.Agree (code other : Code) : Prop :=
  ∃ value, code.toInt? = some value ∧ other.toInt? = some value

theorem Code.Agree.resolve {code other : Code} (agree : code.Agree other) (track field : String) :
    code.resolve track field = other.resolve track field := by
  obtain ⟨value, stands, otherStands⟩ := agree
  rw [Code.resolve, Code.resolve, stands, otherStands]

def DraftEvent.Agree (event other : DraftEvent) : Prop :=
  ∀ track, event.resolve track = other.resolve track

def DraftCounter.Agree (counter other : DraftCounter) : Prop :=
  ∀ track, counter.resolve track = other.resolve track

/-- Entries of one track that resolve to the same. -/
def EntriesAgree : String × DraftCounter → String × DraftCounter → Prop :=
  Roster.Pair DraftCounter.Agree

theorem EntriesAgree.refl (entry : String × DraftCounter) : EntriesAgree entry entry :=
  ⟨rfl, fun _ => rfl⟩

variable (convert : Conversion)

/-- The code of an event is read beside its time. -/
theorem FieldPlace.event {place : Json.Value → Json.Value} (field : FieldPlace "type" 0 place) :
    ReadAround (Code.ofJson? convert) place (DraftEvent.ofJson? convert) Code.Agree
      DraftEvent.Agree := by
  obtain ⟨rest?, fields⟩ := field.fields?_first "value" (by decide)
  refine .of_rest (rest?.join.bind (timeOfJson? convert)) .mk (fun value => ?_)
    fun code other time agree track => ?_
  · rw [DraftEvent.ofJson?, fields]
    rcases rest? with _ | _ | time
    · cases Code.ofJson? convert value <;> rfl
    · cases Code.ofJson? convert value <;> rfl
    · change ((Code.ofJson? convert value).bind fun code => (timeOfJson? convert time).bind
        fun time => some (DraftEvent.mk code time)) = _
      simp only [Option.map_eq_bind]
      rfl
  · simp only [DraftEvent.resolve, agree.resolve]

theorem readAround_events : ReadAround (List.mapM (DraftEvent.ofJson? convert)) Json.Value.array
    (eventsOfJson? convert) (List.Forall₂ DraftEvent.Agree) (List.Forall₂ DraftEvent.Agree) :=
  .of_some id (fun items => by rw [Option.map_id]; rfl) fun _ _ agree => agree

/-- A category is read as the first field of a counter, also in an array of it alone. -/
theorem FieldPlace.fields?_category {place : Json.Value → Json.Value}
    (field : FieldPlace "counter type" 0 place) :
    ∃ rest? : Option (Option Json.Value), ∀ value,
      DraftCounter.fields? (place value) = rest?.map fun rest => [some value, rest] := by
  obtain ⟨rest?, fields⟩ := field.fields?_first "events" (by decide)
  cases field with
  | member => exact ⟨rest?, fields⟩
  | item after counted =>
    obtain rfl := List.eq_nil_of_length_eq_zero counted
    cases after with
    | nil => exact ⟨some none, fun _ => rfl⟩
    | cons => exact ⟨rest?, fields⟩

theorem FieldPlace.category {place : Json.Value → Json.Value}
    (field : FieldPlace "counter type" 0 place) :
    ReadAround (Code.ofJson? convert) place (DraftCounter.ofJson? convert) Code.Agree
      DraftCounter.Agree := by
  obtain ⟨rest?, fields⟩ := field.fields?_category
  -- Events that are left out are none.
  let events? : Option (List DraftEvent) :=
    rest?.bind fun events => events.elim (some []) (eventsOfJson? convert)
  refine .of_rest events? .mk (fun value => ?_) fun code other events agree track => ?_
  · rw [DraftCounter.ofJson?, fields]
    rcases rest? with _ | _ | events
    · cases Code.ofJson? convert value <;> rfl
    · rfl
    · change ((Code.ofJson? convert value).bind fun code => (eventsOfJson? convert events).bind
        fun events => some (DraftCounter.mk code events)) = _
      simp only [Option.map_eq_bind]
      rfl
  · simp only [DraftCounter.resolve, agree.resolve]

theorem FieldPlace.events {place : Json.Value → Json.Value} (field : FieldPlace "events" 1 place) :
    ReadAround (eventsOfJson? convert) place (DraftCounter.ofJson? convert)
      (List.Forall₂ DraftEvent.Agree) DraftCounter.Agree := by
  obtain ⟨rest?, fields⟩ : ∃ rest? : Option (Option Json.Value), ∀ value,
      DraftCounter.fields? (place value) = rest?.map fun rest => [rest, some value] := by
    obtain ⟨rest?, fields⟩ := field.fields?_second "counter type" (by decide)
    cases field with
    | member => exact ⟨rest?, fields⟩
    | item after counted =>
      -- With something in front of the events, the array is no category alone.
      obtain ⟨category, rfl⟩ := List.length_eq_one_iff.mp counted
      exact ⟨rest?, fields⟩
  refine .of_rest (rest?.join.bind (Code.ofJson? convert)) (fun events code => ⟨code, events⟩)
    (fun value => ?_) fun events others code agree track => ?_
  · rw [DraftCounter.ofJson?, fields]
    rcases rest? with _ | _ | category
    · cases eventsOfJson? convert value <;> rfl
    · cases eventsOfJson? convert value <;> rfl
    · change ((Code.ofJson? convert category).bind fun code => (eventsOfJson? convert value).bind
        fun events => some (DraftCounter.mk code events)) = (eventsOfJson? convert value).bind
          fun events => (Code.ofJson? convert category).map fun code => ⟨code, events⟩
      cases Code.ofJson? convert category <;> cases eventsOfJson? convert value <;> rfl
  · have resolved : events.mapM (DraftEvent.resolve track) =
        others.mapM (DraftEvent.resolve track) :=
      mapM_congr_forall₂ (agree.imp fun _ _ same => same track)
    simp only [DraftCounter.resolve, resolved]

/-! ### Documents -/

theorem readAround_entry (key : Json.Text) : ReadAround (DraftCounter.ofJson? convert) (key, ·)
    (entryOfJson? convert) DraftCounter.Agree EntriesAgree := by
  refine .of_rest key (fun counter name => (name, counter)) (fun value => ?_)
    fun counter other name agree => ⟨rfl, agree⟩
  change (key.bind fun name => (DraftCounter.ofJson? convert value).bind fun counter =>
    some (name, counter)) = _
  cases key <;> cases DraftCounter.ofJson? convert value <;> rfl

theorem readAround_document : ReadAround (List.mapM (entryOfJson? convert)) Json.Value.object
    (draftsOfJson? convert) (List.Forall₂ EntriesAgree) (List.Forall₂ EntriesAgree) := by
  refine .of_some (Roster.putAll []) (fun members => ?_) fun _ _ agree =>
    Roster.pairs_putAll agree .nil
  change (members.mapM (entryOfJson? convert)).bind (fun entries =>
    some (Roster.putAll [] entries)) = _
  rw [Option.map_eq_bind]
  rfl

/-- The place of a counter in a document. -/
theorem readAround_counter (key : Json.Text) (before after : List (Json.Text × Json.Value)) :
    ReadAround (DraftCounter.ofJson? convert)
      (fun value => .object (before ++ (key, value) :: after)) (draftsOfJson? convert)
      DraftCounter.Agree (List.Forall₂ EntriesAgree) :=
  ((readAround_entry convert key).trans (.item EntriesAgree.refl before after)).trans
    (readAround_document convert)

/-- The place of an event among the events of a counter in a document. -/
theorem readAround_event {counter : Json.Value → Json.Value}
    (listed : FieldPlace "events" 1 counter) (before after : List (Json.Text × Json.Value))
    (key : Json.Text) (earlier later : List Json.Value) :
    ReadAround (DraftEvent.ofJson? convert)
      (fun value =>
        .object (before ++ (key, counter (.array (earlier ++ value :: later))) :: after))
      (draftsOfJson? convert) DraftEvent.Agree (List.Forall₂ EntriesAgree) := by
  -- From the event outwards, each level is read around the one in it.
  have items : ReadAround (DraftEvent.ofJson? convert) (fun event => earlier ++ event :: later)
      (List.mapM (DraftEvent.ofJson? convert)) DraftEvent.Agree (List.Forall₂ DraftEvent.Agree) :=
    .item (fun _ _ => rfl) earlier later
  have events := (items.trans (readAround_events convert)).trans (listed.events convert)
  exact events.trans (readAround_counter convert key before after)

/-- A document with a place for a code: the category of a counter, or the code of an event. -/
inductive CodePlace : (Json.Value → Json.Value) → Prop
  | category {counter : Json.Value → Json.Value} (field : FieldPlace "counter type" 0 counter)
      (before after : List (Json.Text × Json.Value)) (key : Json.Text) :
      CodePlace fun value => .object (before ++ (key, counter value) :: after)
  | event {counter event : Json.Value → Json.Value} (listed : FieldPlace "events" 1 counter)
      (field : FieldPlace "type" 0 event) (before after : List (Json.Text × Json.Value))
      (key : Json.Text) (earlier later : List Json.Value) :
      CodePlace fun value =>
        .object (before ++ (key, counter (.array (earlier ++ event value :: later))) :: after)

theorem CodePlace.readAround {place : Json.Value → Json.Value} (coded : CodePlace place) :
    ReadAround (Code.ofJson? convert) place (draftsOfJson? convert) Code.Agree
      (List.Forall₂ EntriesAgree) := by
  cases coded with
  | category field before after key =>
    exact (field.category convert).trans (readAround_counter convert key before after)
  | event listed field before after key earlier later =>
    exact (field.event convert).trans
      (readAround_event convert listed before after key earlier later)

theorem resolveAll_congr {drafts others : Roster String DraftCounter}
    (agree : List.Forall₂ EntriesAgree drafts others) :
    (drafts.mapM fun (name, draft) => draft.resolve name) =
      others.mapM fun (name, draft) => draft.resolve name := by
  refine mapM_congr_forall₂ (agree.imp fun entry other same => ?_)
  obtain ⟨name, draft⟩ := entry
  obtain ⟨_, otherDraft⟩ := other
  obtain ⟨rfl, counters⟩ := same
  exact counters name

variable {convert}

/-- What is no code in the place of one is no part of a trace. -/
theorem CodePlace.malformed {place : Json.Value → Json.Value} (coded : CodePlace place)
    {value : Json.Value} (nothing : Code.ofJson? convert value = none) :
    countersOfJson convert (place value) = .error .malformed := by
  rw [countersOfJson, (coded.readAround convert).eq_none nothing]

/-- A document says the same whichever way an integer is written in the place of a code. -/
theorem CodePlace.congr {place : Json.Value → Json.Value} (coded : CodePlace place)
    {value other : Json.Value} {code otherCode : Code}
    (read : Code.ofJson? convert value = some code)
    (otherRead : Code.ofJson? convert other = some otherCode) (agree : code.Agree otherCode) :
    countersOfJson convert (place value) = countersOfJson convert (place other) := by
  have drafts := (coded.readAround convert).rel read otherRead agree
  rw [countersOfJson, countersOfJson]
  generalize draftsOfJson? convert (place value) = one at drafts
  generalize draftsOfJson? convert (place other) = another at drafts
  cases drafts with
  | none => rfl
  | some drafts => exact resolveAll_congr drafts

end TraceChart
