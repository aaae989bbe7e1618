import TraceChart.Proofs.Json.Members
import TraceChart.Proofs.Trace.Places

/-!
# Places of objects

A document has places for the objects of its counters and of its events. What is read of the
document depends on the fields of such an object and on nothing else of it: members that are no
fields may say anything and stand anywhere, and an object with a field that comes twice is no part
of a trace.
-/

namespace TraceChart

/-! ### Members of objects -/

namespace Json

/-- Members under texts that are none of some names. -/
def Unknown (names : List String) (members : List (Text × Value)) : Prop :=
  ∀ member ∈ members, ∃ name, member.1 = some name ∧ name ∉ names

/-- Members under one name, wherever they stand and whatever else there is. -/
def Repeated (members : List (Text × Value)) (name : String) : Prop :=
  List.Duplicate (some name) (members.map Prod.fst)

variable {names : List String}

theorem Unknown.missing {members : List (Text × Value)} (unknown : Unknown names members)
    {name : String} (known : name ∈ names) : Missing members name := by
  intro member listed same
  obtain ⟨other, named, absent⟩ := unknown member listed
  obtain rfl : other = name := Option.some.inj (named.symm.trans same)
  exact absent known

/-- Fields are found whatever other members stand between them. -/
theorem fieldsOfObject?_inserted {added : List (Text × Value)} (unknown : Unknown names added)
    (front back : List (Text × Value)) :
    fieldsOfObject? names (front ++ added ++ back) = fieldsOfObject? names (front ++ back) := by
  have keyed : added.all (fun member => member.1.isSome) = true := by
    rw [List.all_eq_true]
    intro member listed
    obtain ⟨name, named, _⟩ := unknown member listed
    rw [named, Option.isSome_some]
  have values (name : String) (known : name ∈ names) :
      valuesOf (front ++ added ++ back) name = valuesOf (front ++ back) name := by
    have nothing := (valuesOf_eq_nil_iff added name).mpr (unknown.missing known)
    simp only [valuesOf, List.filter_append, List.map_append] at nothing ⊢
    rw [nothing, List.append_nil]
  have same : names.mapM (field? (front ++ added ++ back)) = names.mapM (field? (front ++ back)) :=
    mapM_congr_forall₂ <| List.forall₂_same.mpr fun name known => by
      rw [field?, field?, values name known]
  simp only [fieldsOfObject?, List.all_append, keyed, Bool.and_true, same]

theorem field?_of_repeated {members : List (Text × Value)} {name : String}
    (repeated : Repeated members name) : field? members name = none := by
  have several : 2 ≤ (valuesOf members name).length := by
    have twice := (List.duplicate_iff_sublist.mp repeated).filter
      fun key => decide (key = some name)
    simpa [valuesOf, List.filter_map, Function.comp_def] using twice.length_le
  unfold field?
  split
  next nothing => simp [nothing] at several
  next value single => simp [single] at several
  next => rfl

theorem fieldsOfObject?_of_repeated {members : List (Text × Value)} {name : String}
    (known : name ∈ names) (repeated : Repeated members name) :
    fieldsOfObject? names members = none := by
  rw [fieldsOfObject?, mapM_eq_none known (field?_of_repeated repeated), ite_self]

end Json

/-! ### Objects in documents -/

/-- A document with a place for an object, by the names of its fields: the object of a counter or
that of an event. -/
inductive ObjectPlace : List String → (Json.Value → Json.Value) → Prop
  | counter (before after : List (Json.Text × Json.Value)) (key : Json.Text) :
      ObjectPlace ["counter type", "events"] fun value => .object (before ++ (key, value) :: after)
  | event {counter : Json.Value → Json.Value} (listed : FieldPlace "events" 1 counter)
      (before after : List (Json.Text × Json.Value)) (key : Json.Text)
      (earlier later : List Json.Value) :
      ObjectPlace ["type", "value"] fun value =>
        .object (before ++ (key, counter (.array (earlier ++ value :: later))) :: after)

/-- The fields of an object are all that is read of it in its place. -/
theorem ObjectPlace.reads {names : List String} {place : Json.Value → Json.Value}
    (placed : ObjectPlace names place) (convert : Conversion) :
    ∃ rest? : List (Option Json.Value) → Option (Roster String DraftCounter), ∀ members,
      draftsOfJson? convert (place (.object members)) =
        (Json.fieldsOfObject? names members).bind rest? := by
  cases placed with
  | counter before after key =>
    obtain ⟨build?, reads, _⟩ := readAround_counter convert key before after
    simp only [DraftCounter.ofJson?, Option.bind_eq_bind, Option.bind_assoc] at reads
    exact ⟨_, fun members => reads (.object members)⟩
  | event listed before after key earlier later =>
    obtain ⟨build?, reads, _⟩ := readAround_event convert listed before after key earlier later
    simp only [DraftEvent.ofJson?, Option.bind_eq_bind, Option.bind_assoc] at reads
    exact ⟨_, fun members => reads (.object members)⟩

theorem FieldPlace.encloses {name : String} {position : Nat} {place : Json.Value → Json.Value}
    (field : FieldPlace name position place) : Json.Encloses place := by
  cases field with
  | member before after => exact .member before after (some name)
  | item after _ => exact .item _ after

theorem ObjectPlace.encloses {names : List String} {place : Json.Value → Json.Value}
    (placed : ObjectPlace names place) : Json.Encloses place := by
  cases placed with
  | counter before after key => exact .member before after key
  | event listed before after key earlier later =>
    exact ((Json.Encloses.item earlier later).trans listed.encloses).trans
      (.member before after key)

end TraceChart
