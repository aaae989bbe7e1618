import TraceChart.Proofs.Trace.Objects

/-!
# Members that are no fields

Members under unknown names may be put into the objects of a document at any position, however
many, under whatever other names and with whatever values: the document reads the same.
-/

namespace TraceChart

/-- More members in one of the objects of a document, none of them a field. -/
inductive Inserted : Json.Value → Json.Value → Prop
  | members {names : List String} {place : Json.Value → Json.Value}
      (placed : ObjectPlace names place) (front : List (Json.Text × Json.Value))
      {added : List (Json.Text × Json.Value)} (unknown : Json.Unknown names added)
      (back : List (Json.Text × Json.Value)) :
      Inserted (place (.object (front ++ back))) (place (.object (front ++ added ++ back)))

theorem Inserted.drafts {value extended : Json.Value} (inserted : Inserted value extended)
    (convert : Conversion) : draftsOfJson? convert extended = draftsOfJson? convert value := by
  cases inserted with
  | members placed front unknown back =>
    obtain ⟨rest?, reads⟩ := placed.reads convert
    rw [reads, reads, Json.fieldsOfObject?_inserted unknown]

/-- Insertion upon insertion changes nothing either. -/
theorem drafts_of_insertions {value extended : Json.Value}
    (inserted : Relation.ReflTransGen Inserted value extended) (convert : Conversion) :
    draftsOfJson? convert extended = draftsOfJson? convert value := by
  induction inserted with
  | refl => rfl
  | tail _ last ih => rw [last.drafts, ih]

/-- With unknown members in its objects, a document is a trace of the same drafts if it was one, and
it reads the same, in whatever way it is written. The members can be written into it at their
position, all else being left as it is. -/
theorem readTrace_of_unknown_members (convert : Conversion) :
    (∀ value extended bytes extendedBytes, Relation.ReflTransGen Inserted value extended →
      value.Form bytes → extended.Form extendedBytes →
        (∀ drafts, TraceDocument convert drafts extendedBytes ↔
          TraceDocument convert drafts bytes) ∧
        readTrace convert extendedBytes = readTrace convert bytes) ∧
    (∀ names place front back bytes, ObjectPlace names place →
      (place (.object (front ++ back))).Form bytes →
        ∃ before after, bytes = before ++ after ∧ ∀ added inserted, Json.Unknown names added →
          Json.Cut (Json.insertedTokens front added back) inserted →
            (place (.object (front ++ added ++ back))).Form (before ++ inserted ++ after) ∧
            readTrace convert (before ++ inserted ++ after) = readTrace convert bytes) := by
  have same {value extended : Json.Value} {bytes extendedBytes : List UInt8}
      (inserted : Relation.ReflTransGen Inserted value extended) (form : value.Form bytes)
      (extendedForm : extended.Form extendedBytes) :
      readTrace convert extendedBytes = readTrace convert bytes := by
    rw [readTrace_of_form form, readTrace_of_form extendedForm, countersOfJson, countersOfJson,
      drafts_of_insertions inserted]
  constructor
  · intro value extended bytes extendedBytes inserted form extendedForm
    refine ⟨fun drafts => ?_, same inserted form extendedForm⟩
    rw [traceDocument_iff_of_form form, traceDocument_iff_of_form extendedForm,
      ← draftsOfJson?_eq_some_iff, ← draftsOfJson?_eq_some_iff, drafts_of_insertions inserted]
  · intro names place front back bytes placed form
    obtain ⟨before, after, split, insert⟩ := placed.encloses.insert front back form
    refine ⟨before, after, split, fun added inserted unknown cut => ?_⟩
    have extendedForm := insert added inserted cut
    exact ⟨extendedForm, same (.single (.members placed front unknown back)) form extendedForm⟩

/-- Members with half a surrogate pair, a number beyond all range and a bracket in a string, put
into an event and a counter. -/
theorem readTrace_of_nested_members :
    let text := "\x7b\"a\":\x7b\"counter type\":3," ++
      "\"events\":[\x7b\"type\":5,\"value\":1\x7d]\x7d\x7d"
    let extendedText := "\x7b\"a\":\x7b\"\":[\"\\ud800\"],\"counter type\":3," ++
      "\"events\":[\x7b\"type\":5,\"y\":1e999,\"y\":\"]\",\"value\":1\x7d]\x7d\x7d"
    readTrace .stepwise extendedText.toUTF8.toList = .ok [⟨"a", .computeUnit, [⟨1.0, 5⟩]⟩] ∧
      ∃ before after, text.toUTF8.toList = before ++ after ∧
        readTrace .stepwise (before ++ "\"y\": [[]],".toUTF8.toList ++ after) =
          .ok [⟨"a", .computeUnit, [⟨1.0, 5⟩]⟩] := by
  intro text extendedText
  let type : Json.Text × Json.Value := (some "type", .number ⟨false, [5], [], none⟩)
  let value : Json.Text × Json.Value := (some "value", .number ⟨false, [1], [], none⟩)
  let category : Json.Text × Json.Value := (some "counter type", .number ⟨false, [3], [], none⟩)
  let counter (event : Json.Value) : List (Json.Text × Json.Value) :=
    [category, (some "events", .array [event])]
  let inEvent : List (Json.Text × Json.Value) :=
    [(some "y", .number ⟨false, [1], [], some 999⟩), (some "y", .string (some "]"))]
  let inCounter : List (Json.Text × Json.Value) := [(some "", .array [.string none])]
  have placed : ObjectPlace ["type", "value"] fun object =>
      .object [(some "a", .object (counter object))] :=
    .event (.member [category] []) [] [] (some "a") [] []
  have unknown : Json.Unknown ["type", "value"] inEvent := by simp [Json.Unknown, inEvent]
  let event : Json.Value := .object ([type] ++ inEvent ++ [value])
  have first : Inserted (.object [(some "a", .object (counter (.object [type, value])))])
      (.object [(some "a", .object (counter event))]) :=
    .members placed [type] unknown [value]
  have second : Inserted (.object [(some "a", .object (counter event))])
      (.object [(some "a", .object (inCounter ++ counter event))]) :=
    .members (.counter [] [] (some "a")) [] (by simp [Json.Unknown]) (counter event)
  have read : readTrace .stepwise text.toUTF8.toList =
      .ok [⟨"a", .computeUnit, [⟨1.0, 5⟩]⟩] := by decide +kernel
  have form : (Json.Value.object [(some "a", .object (counter (.object [type, value])))]).Form
      text.toUTF8.toList := by
    rw [← Json.ofBytes?_eq_some_iff]
    cbv
  obtain ⟨same, insert⟩ := readTrace_of_unknown_members .stepwise
  constructor
  · rw [← read]
    refine (same _ _ _ _ (.tail (.single first) second) form ?_).2
    rw [← Json.ofBytes?_eq_some_iff]
    cbv
  · obtain ⟨before, after, split, inserted⟩ := insert _ _ [type] [value] _ placed form
    refine ⟨before, after, split, ?_⟩
    rw [← read]
    refine (inserted [(some "y", .array [.array []])] _ (by simp [Json.Unknown]) ?_).2
    exact Json.readAll_sound (by cbv)

end TraceChart
