import TraceChart.Proofs.Json.Layout
import TraceChart.Proofs.Traversal
import TraceChart.Record.Codec

/-!
# Laws of serialized forms

A serialized form is lawful where the reader takes what was written for the value that it was
written of, and where whatever else the reader takes could have been written. Lists and options of
lawful forms are lawful, and so are records once their fields are.
-/

namespace TraceChart

namespace Codec

/-- A form that is read as it was written, for values of which it says which they are. -/
class Lawful (δ : Type) [Codec δ] where
  Representable : δ → Prop
  decode?_encode : ∀ {value : δ}, Representable value →
    decode? .nearest (encode value) = some value
  representable : ∀ {json : Json.Value} {value : δ}, decode? .nearest json = some value →
    Representable value
  writable : ∀ value : δ, (encode value).Writable

/-- A form that is never mistaken for that of a missing value. -/
class Present (δ : Type) [Codec δ] [Lawful δ] : Prop where
  encode_ne_null : ∀ {value : δ}, Lawful.Representable value → encode value ≠ .null

/-- The values in a predicate are restored from what is written of them, and all that is read is
among them. -/
structure Restores {δ : Type} [Codec δ] (representable : δ → Prop) : Prop where
  restored : ∀ value, representable value → read? .nearest (write value) = some value
  /-- Whatever text it was read from, the written form of a value is read as the value again. -/
  rewritten : ∀ text value, read? .nearest text = some value →
    representable value ∧ read? .nearest (write value) = some value

variable {δ : Type} [Codec δ] [Lawful δ]

theorem read?_write {value : δ} (representable : Lawful.Representable value) :
    read? .nearest (write value) = some value := by
  have parsed := Json.ofString?_compact (Lawful.writable value)
  rw [read?, write, parsed]
  exact Lawful.decode?_encode representable

/-- A value is read from its form spread over lines too, with or without a line break at the end.
-/
theorem read?_pretty {value : δ} (representable : Lawful.Representable value) (level : Nat) :
    read? .nearest ((encode value).pretty level) = some value ∧
      read? .nearest ((encode value).pretty level ++ "\n") = some value := by
  obtain ⟨alone, ended⟩ := Json.ofString?_pretty (Lawful.writable value) level
  constructor
  · rw [read?, alone]
    exact Lawful.decode?_encode representable
  · rw [read?, ended]
    exact Lawful.decode?_encode representable

theorem Lawful.restores : Restores (Lawful.Representable (δ := δ)) where
  restored _ := read?_write
  rewritten text value read := by
    obtain ⟨json, -, decoded⟩ := Option.bind_eq_some_iff.mp read
    have representable := Lawful.representable decoded
    exact ⟨representable, read?_write representable⟩

/-! ### Values without parts -/

instance : Lawful String where
  Representable _ := True
  decode?_encode _ := rfl
  representable _ := trivial
  writable text := .string text

instance : Present String where
  encode_ne_null _ := nofun

instance : Lawful Bool where
  Representable _ := True
  decode?_encode _ := rfl
  representable _ := trivial
  writable truth := .bool truth

/-- An integer is written without a sign where it is none, so it never reads as minus zero. -/
theorem integer?_ofInt (value : Int) :
    Numeral.integer? ⟨value < 0, Digit.ofNat value.natAbs, [], none⟩ = some value := by
  have significand : Numeral.significand ⟨value < 0, Digit.ofNat value.natAbs, [], none⟩ =
      value.natAbs := by
    rw [Numeral.significand, List.append_nil, Digit.value_ofNat]
  have signed : ¬(decide (value < 0) = true ∧ value.natAbs = 0) := by
    rw [decide_eq_true_eq]
    omega
  rw [Numeral.integer?, significand, if_pos ⟨rfl, rfl, signed⟩, Binary64.signed_natAbs]

instance : Lawful Int where
  Representable value := fitsWord value = true
  decode?_encode {value} fits := by
    change (Numeral.integer? ⟨value < 0, Digit.ofNat value.natAbs, [], none⟩).filter fitsWord = _
    rw [integer?_ofInt, Option.filter_some, if_pos fits]
  representable {json value} read := by
    cases json with
    | number numeral => exact (Option.filter_eq_some_iff.mp read).2
    | _ => cases read
  writable value := by
    obtain ⟨first, rest, front, leading, -⟩ := Digit.ofNat_front value.natAbs
    exact .number ⟨first, rest, front, leading⟩

instance : Lawful Binary64 where
  Representable number := number.isFinite = true
  decode?_encode {number} finite := by
    obtain ⟨numeral, written⟩ := Json.numberStyle.exists_numeral? finite
    have read : Conversion.nearest numeral = number := Style.toBinary64_of_numeral? written
    change decode? .nearest (Json.Value.ofBinary64 number) = some number
    rw [Json.Value.ofBinary64, written]
    change (if (Conversion.nearest numeral).isFinite then some (Conversion.nearest numeral)
      else none) = some number
    rw [read, if_pos finite]
  representable {json number} read := by
    cases json with
    | number numeral =>
      change (if (Conversion.nearest numeral).isFinite then some (Conversion.nearest numeral)
        else none) = some number at read
      split at read
      next finite =>
        cases read
        exact finite
      next => cases read
    | _ => cases read
  writable number := by
    change (Json.Value.ofBinary64 number).Writable
    unfold Json.Value.ofBinary64
    split
    next numeral written => exact .number (Style.standard_of_numeral? written)
    next => exact .null

/-! ### Lists and options -/

instance : Lawful (List δ) where
  Representable values := ∀ value ∈ values, Lawful.Representable value
  decode?_encode {values} representable := by
    change (values.map encode).mapM (decode? .nearest) = some values
    rw [mapM_eq_some_iff, List.forall₂_map_left_iff, List.forall₂_same]
    exact fun value member => Lawful.decode?_encode (representable value member)
  representable {json values} read := by
    cases json with
    | array items =>
      have each := (mapM_eq_some_iff _ _ _).mp read
      intro value member
      obtain ⟨item, -, decoded⟩ := forall₂_exists each.flip value member
      exact Lawful.representable decoded
    | _ => cases read
  writable values := by
    refine .array fun item member => ?_
    obtain ⟨value, -, rfl⟩ := List.mem_map.mp member
    exact Lawful.writable value

omit [Lawful δ] in
/-- A value that has a form of its own is no missing value. -/
theorem decode?_some {json : Json.Value} (present : json ≠ .null) :
    decode? (δ := Option δ) .nearest json = (decode? .nearest json).map some := by
  cases json with
  | null => exact absurd rfl present
  | _ => rfl

instance [Present δ] : Lawful (Option δ) where
  Representable value := ∀ content ∈ value, Lawful.Representable content
  decode?_encode {value} representable := by
    cases value with
    | none => rfl
    | some content =>
      have representable := representable content rfl
      change decode? .nearest (encode content) = some (some content)
      rw [decode?_some (Present.encode_ne_null representable), Lawful.decode?_encode representable]
      rfl
  representable {json value} read := by
    rintro content rfl
    -- Null is read as a missing value, so a content was read from something else.
    by_cases null : json = .null
    · rw [null] at read
      cases read
    · rw [decode?_some null, Option.map_eq_some_iff] at read
      obtain ⟨_, decoded, same⟩ := read
      rw [Option.some.inj same] at decoded
      exact Lawful.representable decoded
  writable value := by
    cases value with
    | none => exact .null
    | some content => exact Lawful.writable content

/-! ### Fields -/

theorem required?_encode (value : δ) (representable : Lawful.Representable value) :
    required? .nearest (some (encode value)) = some value :=
  Lawful.decode?_encode representable

theorem representable_of_required? {field : Option Json.Value} {value : δ}
    (read : required? .nearest field = some value) : Lawful.Representable value := by
  obtain ⟨json, -, decoded⟩ := Option.bind_eq_some_iff.mp read
  exact Lawful.representable decoded

theorem optional?_encode [Present δ] (value : Option δ)
    (representable : Lawful.Representable value) :
    optional? .nearest (some (encode value)) = some value :=
  Lawful.decode?_encode representable

theorem valuesOf_members {entries : List (String × Json.Value)}
    (distinct : (entries.map Prod.fst).Nodup) {entry : String × Json.Value}
    (member : entry ∈ entries) :
    Json.valuesOf (entries.map fun (name, value) => (some name, value)) entry.1 = [entry.2] := by
  -- Before and behind the entry, all names are other ones.
  obtain ⟨before, after, rfl⟩ := List.append_of_mem member
  rw [List.map_append, List.map_cons, List.nodup_append, List.nodup_cons] at distinct
  obtain ⟨-, ⟨later, -⟩, apart⟩ := distinct
  have none_before (other : String × Json.Value) (included : other ∈ before) :
      other.1 ≠ entry.1 :=
    apart _ (List.mem_map_of_mem included) _ List.mem_cons_self
  have none_after (other : String × Json.Value) (included : other ∈ after) :
      other.1 ≠ entry.1 :=
    fun same => later (same ▸ List.mem_map_of_mem included)
  have nothing {others : List (String × Json.Value)}
      (different : ∀ other ∈ others, other.1 ≠ entry.1) :
      Json.valuesOf (others.map fun (name, value) => (some name, value)) entry.1 = [] := by
    rw [Json.valuesOf, List.map_eq_nil_iff, List.filter_eq_nil_iff, List.forall_mem_map]
    exact fun other included same =>
      different other included (Option.some.inj (of_decide_eq_true same))
  have split : Json.valuesOf ((before ++ entry :: after).map
      fun (name, value) => (some name, value)) entry.1 =
        Json.valuesOf (before.map fun (name, value) => (some name, value)) entry.1 ++
          entry.2 :: Json.valuesOf (after.map fun (name, value) => (some name, value)) entry.1 := by
    simp [Json.valuesOf]
  rw [split, nothing none_before, nothing none_after, List.nil_append]

/-- Each field of a record is found under its name. -/
theorem fields?_members (entries : List (String × Json.Value))
    (distinct : (entries.map Prod.fst).Nodup) :
    (members entries).fields? (entries.map Prod.fst) =
      some (entries.map fun entry => some entry.2) := by
  have keyed : (entries.map fun (name, value) => ((some name : Json.Text), value)).all
      (fun member => member.1.isSome) = true := by simp
  change Json.fieldsOfObject? _ _ = _
  rw [Json.fieldsOfObject?, if_pos keyed, mapM_eq_some_iff, List.forall₂_map_left_iff,
    List.forall₂_map_right_iff, List.forall₂_same]
  intro entry member
  rw [Json.field?, valuesOf_members distinct member]

/-- A record is read from the values of its fields. -/
theorem read_members {ρ : Type} (names : List String) (values : List Json.Value)
    (matched : names.length = values.length) (distinct : names.Nodup)
    (read : List (Option Json.Value) → Option ρ) :
    ((members (names.zip values)).fields? names >>= read) = read (values.map some) := by
  have named : (names.zip values).map Prod.fst = names := List.map_fst_zip matched.le
  have valued : (names.zip values).map (fun entry => some entry.2) = values.map some := by
    have seconds : (names.zip values).map Prod.snd = values := List.map_snd_zip matched.ge
    rw [← Function.comp_def some, ← List.map_map, seconds]
  have found := fields?_members (names.zip values) (by rwa [named])
  rw [named, valued] at found
  rw [found]
  rfl

theorem writable_members (names : List String) (values : List Json.Value)
    (each : ∀ value ∈ values, value.Writable) : (members (names.zip values)).Writable := by
  refine .object (fun member included => ?_) fun member included => ?_
  · obtain ⟨entry, -, rfl⟩ := List.mem_map.mp included
    rfl
  · obtain ⟨entry, known, rfl⟩ := List.mem_map.mp included
    exact each entry.2 (List.of_mem_zip known).2

end Codec

end TraceChart
