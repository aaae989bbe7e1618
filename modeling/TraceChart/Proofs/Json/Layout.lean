import TraceChart.Proofs.Json.Writing

/-!
# Documents spread over lines

Line breaks and the blanks behind them are white space between tokens, so a document that is spread
over lines spells the same value as one that is not.
-/

namespace TraceChart.Json

theorem spacing_lineBreak (level : Nat) : Spacing (encoded (lineBreak level).toList) := by
  intro byte member
  obtain ⟨char, listed, included⟩ := List.mem_flatMap.mp member
  rw [lineBreak, String.toList_ofList, List.mem_cons, List.mem_replicate] at listed
  rcases listed with rfl | ⟨_, rfl⟩
  · obtain rfl : byte = 0x0A := List.mem_singleton.mp included
    rfl
  · obtain rfl : byte = 0x20 := List.mem_singleton.mp included
    rfl

/-- The bytes of a part that stands on a line of its own. -/
def lineBytes (level : Nat) (piece : List UInt8) : List UInt8 :=
  encoded (lineBreak level).toList ++ piece

theorem Written.line {tokens : List Token} {piece : List UInt8} (written : Written tokens piece)
    (level : Nat) : Written tokens (lineBytes level piece) :=
  (Written.blanks (spacing_lineBreak level)).append written

private theorem encode_layout :
    String.utf8EncodeChar ',' = [0x2C] ∧ String.utf8EncodeChar ':' = [0x3A] ∧
      String.utf8EncodeChar ' ' = [0x20] ∧
      String.utf8EncodeChar '[' = [0x5B] ∧ String.utf8EncodeChar ']' = [0x5D] ∧
      String.utf8EncodeChar '\x7b' = [0x7B] ∧ String.utf8EncodeChar '\x7d' = [0x7D] :=
  ⟨rfl, rfl, rfl, rfl, rfl, rfl, rfl⟩

theorem prettyItems_bytes (level : Nat) (items : List Value) :
    encoded (Value.prettyItems level items).toList = [0x2C].intercalate
      (items.map fun item => lineBytes level (encoded (item.pretty level).toList)) := by
  refine intercalate_of_cons _ (fun items => encoded (Value.prettyItems level items).toList)
    (by rw [Value.prettyItems]; rfl) (fun item => by simp [Value.prettyItems, lineBytes]) ?_ _
  intro item next items
  rw [Value.prettyItems.eq_3 _ _ _ (List.cons_ne_nil _ _)]
  simp [lineBytes, encode_layout]

theorem prettyMembers_bytes (level : Nat) (members : List (Text × Value)) :
    encoded (Value.prettyMembers level members).toList =
      [0x2C].intercalate (members.map fun member =>
        lineBytes level (memberBytes [0x20] (Value.pretty level) member)) := by
  refine intercalate_of_cons _ (fun members => encoded (Value.prettyMembers level members).toList)
    (by rw [Value.prettyMembers]; rfl)
    (fun member => by simp [Value.prettyMembers, lineBytes, memberBytes, encode_layout]) ?_ _
  intro member next members
  rw [Value.prettyMembers.eq_3 _ _ _ _ (List.cons_ne_nil _ _)]
  simp [lineBytes, memberBytes, encode_layout]

theorem Value.Writable.written_pretty {value : Value} (writable : value.Writable) (level : Nat) :
    Written value.tokens (encoded (value.pretty level).toList) := by
  induction writable generalizing level with
  | null =>
    rw [Value.pretty]
    exact .token .null
  | bool truth =>
    rw [Value.pretty]
    cases truth with
    | true => exact .token .trueWord
    | false => exact .token .falseWord
  | number standard =>
    rw [Value.pretty]
    exact .token (.number (.written standard))
  | string text =>
    rw [Value.pretty]
    exact .token (.quoted text)
  | @array items _ ih =>
    have inside : Written (Value.itemTokens items)
        (encoded (Value.prettyItems (level + 1) items).toList) := by
      rw [itemTokens_eq, prettyItems_bytes]
      refine .commas ?_
      rw [List.forall₂_map_left_iff, List.forall₂_map_right_iff, List.forall₂_same]
      exact fun item included => (ih item included (level + 1)).line (level + 1)
    have closed := ((Written.token .openArray).append inside).append
      ((Written.token .closeArray).line level)
    cases items with
    | nil =>
      rw [Value.tokens, Value.itemTokens, Value.pretty]
      exact (Written.token .openArray).append (.token .closeArray)
    | cons item items =>
      rw [Value.tokens, Value.pretty]
      · simpa [encode_layout, lineBytes] using closed
      · exact List.cons_ne_nil _ _
  | @object members keyed _ ih =>
    have inside : Written (Value.memberTokens members)
        (encoded (Value.prettyMembers (level + 1) members).toList) := by
      rw [memberTokens_eq, prettyMembers_bytes]
      refine .commas ?_
      rw [List.forall₂_map_left_iff, List.forall₂_map_right_iff, List.forall₂_same]
      exact fun member included => (Written.member (List.forall_mem_singleton.mpr rfl)
        (keyed member included) (ih member included (level + 1))).line (level + 1)
    have closed := ((Written.token .openObject).append inside).append
      ((Written.token .closeObject).line level)
    cases members with
    | nil =>
      rw [Value.tokens, Value.memberTokens, Value.pretty]
      exact (Written.token .openObject).append (.token .closeObject)
    | cons member members =>
      rw [Value.tokens, Value.pretty]
      · simpa [encode_layout, lineBytes] using closed
      · exact List.cons_ne_nil _ _

/-- A document that is spread over lines is read as its value, with or without a line break at its
end. -/
theorem ofString?_pretty {value : Value} (writable : value.Writable) (level : Nat) :
    Value.ofString? (value.pretty level) = some value ∧
      Value.ofString? (value.pretty level ++ "\n") = some value := by
  have written := writable.written_pretty level
  constructor
  · have read := ofBytes?_of_written written (List.forall_mem_nil _)
    rwa [List.append_nil, ← toList_toUTF8] at read
  · have ended : encoded (value.pretty level ++ "\n").toList =
        encoded (value.pretty level).toList ++ [0x0A] := by
      rw [String.toList_append, encoded_append]
      rfl
    rw [Value.ofString?, toList_toUTF8, ended]
    exact ofBytes?_of_written written (List.forall_mem_singleton.mpr rfl)

end TraceChart.Json
