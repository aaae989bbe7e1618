import TraceChart.Proofs.Trace.Objects

/-!
# Names that come again

Of the counters of one name the last one counts, in the place of the first. The others must still
be counters, but nobody looks at their codes. A field that comes again is another matter: there is
no trace with one.
-/

namespace TraceChart

variable {convert : Conversion}

/-- An entry of a document with the draft of its counter. -/
def EntryForm (convert : Conversion) (entry : String × DraftCounter)
    (member : Json.Text × Json.Value) : Prop :=
  member.1 = some entry.1 ∧ CounterForm convert entry.2 member.2

/-- The drafts of a trace are those of its surviving members. -/
theorem TraceForm.kept {drafts : Roster String DraftCounter}
    {members kept : List (Json.Text × Json.Value)}
    (form : TraceForm convert drafts (.object members))
    (collected : Roster.Collected members kept) : List.Forall₂ (EntryForm convert) drafts kept := by
  cases form with
  | @object _ entries each drafted =>
    -- The roster of the entries is built like that of the members, under keys that may be no text.
    have pairs : List.Forall₂ (Roster.Pair (CounterForm convert))
        (entries.map (Prod.map some id)) members := by
      rw [List.forall₂_map_left_iff]
      exact each.imp fun entry member form => ⟨form.1.symm, form.2⟩
    have rosters := Roster.pairs_putAll pairs .nil
    have mapped := Roster.putAll_map (Option.some_injective String) [] entries
    rw [List.map_nil] at mapped
    rw [mapped, (Roster.putAll_eq_iff entries drafts).mpr drafted,
      (Roster.putAll_eq_iff members kept).mpr collected, List.forall₂_map_left_iff] at rosters
    exact rosters.imp fun entry member pair => ⟨pair.1.symm, pair.2⟩

/-- A trace of surviving members alone has the same drafts. -/
theorem TraceForm.reduced {drafts : Roster String DraftCounter}
    {members kept : List (Json.Text × Json.Value)}
    (form : TraceForm convert drafts (.object members))
    (collected : Roster.Collected members kept) : TraceForm convert drafts (.object kept) := by
  refine .object (form.kept collected) ?_
  cases form with
  | object _ drafted => exact drafted.again

/-- The drafts of a trace do not depend on a counter whose name comes again. -/
theorem TraceForm.overwrite {drafts : Roster String DraftCounter}
    {before after : List (Json.Text × Json.Value)} {name : String} {value other : Json.Value}
    {draft : DraftCounter}
    (form : TraceForm convert drafts (.object (before ++ (some name, value) :: after)))
    (again : some name ∈ after.map Prod.fst) (otherForm : CounterForm convert draft other) :
    TraceForm convert drafts (.object (before ++ (some name, other) :: after)) := by
  cases form with
  | @object _ entries each collected =>
    have earlier := List.forall₂_take_append _ _ _ each
    have rest := List.forall₂_drop_append _ _ _ each
    obtain ⟨⟨key, overwritten⟩, later, first, pairs, split⟩ := List.forall₂_cons_right_iff.mp rest
    obtain rfl : name = key := Option.some.inj first.1
    have whole : entries = entries.take before.length ++ (name, overwritten) :: later := by
      rw [← split, List.take_append_drop]
    -- The name comes again among the entries as it does among the members.
    obtain ⟨member, behind, named⟩ := List.mem_map.mp again
    obtain ⟨entry, listed, form⟩ := forall₂_exists pairs.flip member behind
    have repeated : name ∈ later.map Prod.fst :=
      List.mem_map.mpr ⟨entry, listed, Option.some.inj (form.1.symm.trans named)⟩
    rw [whole] at collected
    exact .object (List.rel_append earlier (.cons ⟨rfl, otherForm⟩ pairs))
      (collected.overwrite repeated draft)

/-- What is no counter is no part of a trace, under whatever name it stands. -/
theorem counters_of_no_counter {members : List (Json.Text × Json.Value)}
    {member : Json.Text × Json.Value} (listed : member ∈ members)
    (other : ∀ draft, ¬CounterForm convert draft member.2) :
    countersOfJson convert (.object members) = .error .malformed := by
  have nothing : draftsOfJson? convert (.object members) = none := by
    refine Option.eq_none_iff_forall_ne_some.mpr fun drafts read => ?_
    cases (draftsOfJson?_eq_some_iff _ drafts).mp read with
    | object each _ =>
      obtain ⟨entry, _, form⟩ := forall₂_exists each.flip member listed
      exact other entry.2 form.2
  rw [countersOfJson, nothing]

/-! ### Documents -/

/-- The drafts of a trace are those of its surviving members: each name once, in the place where it
came first, with the counter that came last. They alone are resolved, in their order, so a document
of the surviving members alone reads the same. What was overwritten must be a counter, and nothing
more is asked of it. A field that comes again in the object of a counter or an event is always
malformed. -/
theorem readTrace_of_repeated_names (convert : Conversion) :
    (∀ drafts bytes, TraceDocument convert drafts bytes →
      ∃ members kept, (Json.Value.object members).Form bytes ∧ Roster.Collected members kept ∧
        (drafts.map Prod.fst).Nodup ∧ List.Forall₂ (EntryForm convert) drafts kept ∧
        readTrace convert bytes = drafts.mapM (fun entry => entry.2.resolve entry.1) ∧
        (∀ counters, readTrace convert bytes = .ok counters →
          counters.map Counter.name = drafts.map Prod.fst) ∧
        (∃ keptBytes, (Json.Value.object kept).Form keptBytes) ∧
        ∀ keptBytes, (Json.Value.object kept).Form keptBytes →
          TraceDocument convert drafts keptBytes ∧
            readTrace convert keptBytes = readTrace convert bytes) ∧
    (∀ before after name value bytes, some name ∈ after.map Prod.fst →
      (Json.Value.object (before ++ (some name, value) :: after)).Form bytes →
        ((∀ draft, ¬CounterForm convert draft value) →
          readTrace convert bytes = .error .malformed) ∧
        ∀ other otherBytes draft otherDraft, CounterForm convert draft value →
          CounterForm convert otherDraft other →
          (Json.Value.object (before ++ (some name, other) :: after)).Form otherBytes →
            readTrace convert otherBytes = readTrace convert bytes) ∧
    (∀ names place name members bytes, ObjectPlace names place → name ∈ names →
      Json.Repeated members name → (place (.object members)).Form bytes →
        readTrace convert bytes = .error .malformed) := by
  refine ⟨?_, ?_, ?_⟩
  -- The surviving members are read as the drafts, and nothing but the drafts is resolved.
  · intro drafts bytes document
    have returned := readTrace_of_document document
    obtain ⟨value, form, shape⟩ := document
    cases shape with
    | @object members entries each drafted =>
      have shape : TraceForm convert drafts (.object members) := .object each drafted
      have collected := Roster.collected_putAll members
      have written := Json.exists_form_of_subset collected.subset form
      refine ⟨members, _, form, collected, drafted.nodup, shape.kept collected, returned, ?_, written,
        ?_⟩
      · intro counters accepted
        rw [returned] at accepted
        exact names_of_resolve accepted
      · intro keptBytes keptForm
        have kept : TraceDocument convert drafts keptBytes :=
          ⟨_, keptForm, shape.reduced collected⟩
        exact ⟨kept, by rw [readTrace_of_document kept, returned]⟩
  · intro before after name value bytes again form
    constructor
    · intro other
      rw [readTrace_of_form form]
      exact counters_of_no_counter (List.mem_append_right before List.mem_cons_self) other
    · -- Whatever drafts one document has, the other has them too.
      intro other otherBytes draft otherDraft shape otherShape otherForm
      have same : draftsOfJson? convert (.object (before ++ (some name, other) :: after)) =
          draftsOfJson? convert (.object (before ++ (some name, value) :: after)) := by
        refine Option.ext fun drafts => ?_
        rw [draftsOfJson?_eq_some_iff, draftsOfJson?_eq_some_iff]
        exact ⟨fun form => form.overwrite again shape, fun form => form.overwrite again otherShape⟩
      rw [readTrace_of_form form, readTrace_of_form otherForm, countersOfJson, countersOfJson, same]
  · intro names place name members bytes placed known repeated form
    obtain ⟨rest?, reads⟩ := placed.reads convert
    rw [readTrace_of_form form, countersOfJson, reads,
      Json.fieldsOfObject?_of_repeated known repeated, Option.bind_none]

/-- A counter with an unknown category is overwritten, and a category comes again. -/
theorem readTrace_of_overwritten_counter :
    let text := "\x7b\"a\":[7],\"b\":[2],\"a\":[3]\x7d"
    let drafts : Roster String DraftCounter := [("a", ⟨.integer 3, []⟩), ("b", ⟨.integer 2, []⟩)]
    let counters : List (Counter Binary64) := [⟨"a", .computeUnit, []⟩, ⟨"b", .memoryUnit, []⟩]
    TraceDocument .stepwise drafts text.toUTF8.toList ∧
      readTrace .stepwise text.toUTF8.toList = .ok counters ∧
      (∃ kept, kept.map Prod.fst = [some "a", some "b"] ∧ ∀ keptBytes,
        (Json.Value.object kept).Form keptBytes → readTrace .stepwise keptBytes = .ok counters) ∧
      readTrace .stepwise "\x7b\"a\":[\"x\"],\"b\":[2],\"a\":[3]\x7d".toUTF8.toList =
        .ok counters ∧
      readTrace .stepwise "\x7b\"a\":[],\"b\":[2],\"a\":[3]\x7d".toUTF8.toList =
        .error .malformed ∧
      readTrace .stepwise
          "\x7b\"a\":\x7b\"counter type\":3,\"counter type\":3\x7d\x7d".toUTF8.toList =
        .error .malformed := by
  intro text drafts counters
  let digit (code : Digit) : Json.Value := .number ⟨false, [code], [], none⟩
  let after : List (Json.Text × Json.Value) :=
    [(some "b", .array [digit 2]), (some "a", .array [digit 3])]
  have again : some "a" ∈ after.map Prod.fst := by simp [after]
  have read : readTrace .stepwise text.toUTF8.toList = .ok counters := by decide +kernel
  have form : (Json.Value.object ((some "a", .array [digit 7]) :: after)).Form
      text.toUTF8.toList := by
    rw [← Json.ofBytes?_eq_some_iff]
    cbv
  have document : TraceDocument .stepwise drafts text.toUTF8.toList :=
    ⟨_, form, (draftsOfJson?_eq_some_iff _ _).mp (by decide +kernel)⟩
  have seven : CounterForm .stepwise ⟨.integer 7, []⟩ (.array [digit 7]) :=
    (DraftCounter.ofJson?_eq_some_iff _ _).mp (by decide +kernel)
  obtain ⟨reduced, overwritten, repeated⟩ := readTrace_of_repeated_names .stepwise
  refine ⟨document, read, ?_, ?_, ?_, ?_⟩
  · obtain ⟨_, kept, _, _, _, each, _, _, _, same⟩ := reduced drafts _ document
    refine ⟨kept, ?_, fun keptBytes keptForm => ?_⟩
    · obtain ⟨_, _, first, rest, rfl⟩ := List.forall₂_cons_left_iff.mp each
      obtain ⟨_, _, second, ended, rfl⟩ := List.forall₂_cons_left_iff.mp rest
      obtain rfl := List.forall₂_nil_left_iff.mp ended
      rw [List.map_cons, List.map_cons, first.1, second.1]
      rfl
    · rw [(same keptBytes keptForm).2, read]
  · obtain ⟨_, same⟩ := overwritten [] after "a" (.array [digit 7]) _ again form
    rw [← read]
    refine same (.array [.string (some "x")]) _ _ ⟨.text "x", []⟩ seven
      (.arrayWithoutEvents (.text "x")) ?_
    rw [← Json.ofBytes?_eq_some_iff]
    cbv
  · have other : ∀ draft, ¬CounterForm .stepwise draft (.array []) := fun draft form => by
      cases form
    refine (overwritten [] after "a" (.array []) _ again ?_).1 other
    rw [← Json.ofBytes?_eq_some_iff]
    cbv
  · let category : Json.Text × Json.Value := (some "counter type", digit 3)
    have twice : Json.Repeated [category, category] "counter type" :=
      List.Mem.duplicate_cons_self List.mem_cons_self
    refine repeated _ _ "counter type" [category, category] _ (.counter [] [] (some "a"))
      List.mem_cons_self twice ?_
    rw [← Json.ofBytes?_eq_some_iff]
    cbv

end TraceChart
