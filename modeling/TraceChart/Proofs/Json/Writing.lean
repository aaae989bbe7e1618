import TraceChart.Proofs.Json.Parsing
import TraceChart.Proofs.Number.Numeral
import TraceChart.Json.Writer

/-!
# Written documents

What the compact writer puts down is one of the spellings of a value, so the reader takes it for
that value. The values are those that have a written form: their strings are texts, and their
numbers begin with zero only where no other digit stands before the point.
-/

namespace TraceChart

private theorem toList_loop (bytes : ByteArray) (index : Nat) (reversed : List UInt8) :
    ByteArray.toList.loop bytes index reversed =
      reversed.reverse ++ bytes.data.toList.drop index := by
  induction index, reversed using ByteArray.toList.loop.induct bytes with
  | case1 index reversed inside ih =>
    have byte : bytes.data.toList.get ⟨index, inside⟩ = bytes.get! index := by
      rw [List.get_eq_getElem, Array.getElem_toList]
      exact (getElem!_pos bytes.data index inside).symm
    rw [List.get_eq_getElem] at byte
    rw [ByteArray.toList.loop, if_pos inside, ih, List.reverse_cons,
      List.drop_eq_getElem_cons inside, byte, List.append_assoc, List.singleton_append]
  | case2 index reversed beyond =>
    have short : bytes.data.toList.length ≤ index := Nat.le_of_not_lt beyond
    rw [ByteArray.toList.loop, if_neg beyond, List.drop_eq_nil_of_le short, List.append_nil]

theorem toList_toUTF8 (text : String) : text.toUTF8.toList = encoded text.toList := by
  have bytes : text.toUTF8 = text.toList.utf8Encode := String.utf8Encode_toList.symm
  rw [bytes, ByteArray.toList, toList_loop]
  simp [encoded, List.utf8Encode]

/-! ### Numbers -/

theorem Digit.encode_char (digit : Digit) : String.utf8EncodeChar digit.char = [digit.byte] := by
  revert digit
  decide

theorem Digit.encoded_chars (digits : List Digit) :
    encoded (Digit.chars digits) = digits.map Digit.byte := by
  induction digits with
  | nil => rfl
  | cons digit digits ih =>
    rw [Digit.chars, List.map_cons, encoded_cons, digit.encode_char]
    exact congrArg (digit.byte :: ·) ih

namespace Json

/-- An exponent is written with its sign, and it has a digit without any in front of it. -/
theorem ExponentSpelled.written (exponent : Int) :
    ExponentSpelled (some exponent) (encoded ('e' :: Numeral.exponentChars true 1 exponent)) := by
  obtain ⟨first, rest, front, -⟩ := Digit.ofNat_front exponent.natAbs
  -- There is at least one digit, so none is filled in.
  have filled : 1 - (Digit.chars (Digit.ofNat exponent.natAbs)).length = 0 := by
    simp [front, Digit.chars]
  have digits : encoded (Digit.chars (Digit.ofNat exponent.natAbs)) =
      (Digit.ofNat exponent.natAbs).map Digit.byte := Digit.encoded_chars _
  have sign : ∃ sign, SignSpelled (exponent < 0) sign ∧
      encoded (if exponent < 0 then ['-'] else ['+']) = sign := by
    rcases Int.lt_or_le exponent 0 with negative | positive
    · exact ⟨[0x2D], by simpa [negative] using SignSpelled.minus, by rw [if_pos negative]; rfl⟩
    · have positive := Int.not_lt.mpr positive
      exact ⟨[0x2B], by simpa [positive] using SignSpelled.plus, by rw [if_neg positive]; rfl⟩
  obtain ⟨sign, spelled, signed⟩ := sign
  have present := ExponentSpelled.present 0x65 (Digit.ofNat exponent.natAbs) (Or.inl rfl) spelled
    (by simp [front])
  rw [Digit.value_ofNat, Binary64.signed_natAbs] at present
  have bytes : encoded ('e' :: Numeral.exponentChars true 1 exponent) =
      0x65 :: sign ++ (Digit.ofNat exponent.natAbs).map Digit.byte := by
    simp only [Numeral.exponentChars, if_true, filled, List.replicate_zero, List.append_nil,
      encoded_cons, encoded_append, signed, digits]
    rfl
  rw [bytes]
  exact present

theorem NumeralSpelled.written {numeral : Numeral} (standard : numeral.Standard) :
    NumeralSpelled numeral (encoded (numeralText numeral).toList) := by
  obtain ⟨negative, whole, fraction, exponent⟩ := numeral
  obtain ⟨first, rest, rfl, leading⟩ := standard
  have sign : encoded (if negative then ['-'] else []) = if negative then [0x2D] else [] := by
    cases negative <;> rfl
  have point : encoded (if fraction = [] then [] else '.' :: Digit.chars fraction) =
      if fraction = [] then [] else 0x2E :: fraction.map Digit.byte := by
    split
    · rfl
    · rw [encoded_cons, Digit.encoded_chars]
      rfl
  have parts {mark : Option Int} {chars : List Char}
      (raised : ExponentSpelled mark (encoded chars)) :
      NumeralSpelled ⟨negative, first :: rest, fraction, mark⟩
        (encoded ((if negative then ['-'] else []) ++ Digit.chars (first :: rest) ++
          (if fraction = [] then [] else '.' :: Digit.chars fraction) ++ chars)) := by
    have spelled := NumeralSpelled.parts negative first rest fraction leading raised
    rwa [← sign, ← point, ← Digit.encoded_chars, ← encoded_append, ← encoded_append,
      ← encoded_append] at spelled
  rw [numeralText, String.toList_ofList]
  cases exponent with
  | none => exact parts .absent
  | some exponent => exact parts (.written exponent)

/-! ### Strings -/

theorem hexDigit?_hexChar (digit : Fin 16) :
    ∃ byte, String.utf8EncodeChar (hexChar digit) = [byte] ∧ hexDigit? byte = some digit := by
  have known : ∀ digit : Fin 16,
      String.utf8EncodeChar (hexChar digit) = [UInt8.ofNat (hexChar digit).toNat] ∧
        hexDigit? (UInt8.ofNat (hexChar digit).toNat) = some digit := by decide
  exact ⟨_, known digit⟩

/-- A character is escaped where it could not stand for itself, and only there. -/
theorem CharSpelled.escaped (char : Char) : CharSpelled char (encoded (escapeChar char)) := by
  unfold escapeChar
  split
  -- Seven characters have an escape of one letter.
  · exact .short 0x22 0x22 rfl
  · exact .short 0x5C 0x5C rfl
  · exact .short 0x62 0x08 rfl
  · exact .short 0x66 0x0C rfl
  · exact .short 0x6E 0x0A rfl
  · exact .short 0x72 0x0D rfl
  · exact .short 0x74 0x09 rfl
  next unquoted unescaped _ _ _ _ _ =>
    split
    next control =>
      -- Below 0x20, the number of a character has two hexadecimal digits.
      obtain ⟨third, thirdByte, thirdValue⟩ := hexDigit?_hexChar ⟨char.toNat / 16, by omega⟩
      obtain ⟨fourth, fourthByte, fourthValue⟩ := hexDigit?_hexChar ⟨char.toNat % 16, by omega⟩
      have zero : hexDigit? 0x30 = some 0 := rfl
      have number : unit? 0x30 0x30 third fourth = some char.toNat := by
        simp only [unit?, zero, thirdValue, fourthValue, Option.bind_eq_bind, Option.bind_some,
          Option.pure_def]
        exact congrArg some (by omega)
      have bytes : encoded ['\\', 'u', '0', '0', hexChar (char.toNat / 16),
          hexChar (char.toNat % 16)] = [0x5C, 0x75, 0x30, 0x30, third, fourth] := by
        simp only [encoded_cons, thirdByte, fourthByte]
        rfl
      rw [bytes]
      exact .unit char 0x30 0x30 third fourth number
    next printed =>
      have literal := CharSpelled.literal char (by omega) (by simpa using unquoted)
        (by simpa using unescaped)
      rwa [encoded_cons, encoded_nil, List.append_nil]

theorem TokenSpelled.quoted (text : String) :
    TokenSpelled (.string (some text)) (encoded (quote text).toList) := by
  have chars : List.Forall₂ CharSpelled text.toList
      (text.toList.map fun char => encoded (escapeChar char)) := by
    rw [List.forall₂_map_right_iff, List.forall₂_same]
    exact fun char _ => .escaped char
  have escaped : encoded (text.toList.flatMap escapeChar) =
      (text.toList.map fun char => encoded (escapeChar char)).flatten := by
    rw [encoded, List.flatMap_assoc, List.flatMap_def]
    rfl
  have bytes : encoded (quote text).toList =
      0x22 :: (text.toList.map fun char => encoded (escapeChar char)).flatten ++ [0x22] := by
    rw [quote, String.toList_ofList, encoded_append, encoded_cons, escaped]
    rfl
  rw [bytes]
  exact .string chars

/-! ### Values -/

/-- A value that has a written form. -/
inductive Value.Writable : Value → Prop
  | null : Value.Writable .null
  | bool (truth : Bool) : Value.Writable (.bool truth)
  | number {numeral : Numeral} (standard : numeral.Standard) : Value.Writable (.number numeral)
  | string (text : String) : Value.Writable (.string (some text))
  | array {items : List Value} (each : ∀ item ∈ items, Value.Writable item) :
      Value.Writable (.array items)
  | object {members : List (Text × Value)} (keyed : ∀ member ∈ members, member.1.isSome = true)
      (each : ∀ member ∈ members, Value.Writable member.2) : Value.Writable (.object members)

/-- Bytes that spell some tokens, whatever comes next. -/
structure Written (tokens : List Token) (bytes : List UInt8) : Prop where
  before : ∀ {more : List Token} {rest : List UInt8}, Lexed more rest →
    Lexed (tokens ++ more) (bytes ++ rest)

namespace Written

theorem token {token : Token} {bytes : List UInt8} (spelled : TokenSpelled token bytes) :
    Written [token] bytes where
  before later := .next spelled later

theorem append {tokens others : List Token} {bytes otherBytes : List UInt8}
    (first : Written tokens bytes) (second : Written others otherBytes) :
    Written (tokens ++ others) (bytes ++ otherBytes) where
  before later := by
    rw [List.append_assoc, List.append_assoc]
    exact first.before (second.before later)

theorem blanks {blanks : List UInt8} (spacing : Spacing blanks) : Written [] blanks where
  before later := by
    cases later with
    | done others => exact .done (List.forall_mem_append.mpr ⟨spacing, others⟩)
    | token others spelled later =>
      rw [List.nil_append, ← List.append_assoc, ← List.append_assoc]
      exact .token (List.forall_mem_append.mpr ⟨spacing, others⟩) spelled later

/-- Parts with commas between them. -/
theorem commas {parts : List (List Token)} {pieces : List (List UInt8)}
    (each : List.Forall₂ Written parts pieces) :
    Written ([Token.comma].intercalate parts) ([0x2C].intercalate pieces) := by
  induction each with
  | nil => exact blanks (List.forall_mem_nil _)
  | cons first rest ih =>
    cases rest with
    | nil =>
      rw [List.intercalate_singleton, List.intercalate_singleton]
      exact first
    | cons second rest =>
      rw [List.intercalate_cons_cons, List.intercalate_cons_cons]
      exact (first.append (token TokenSpelled.comma)).append ih

end Written

/-- A list put together from the back, part by part with a separator. -/
theorem intercalate_of_cons {β γ : Type} {separator : List γ} (part : β → List γ)
    (whole : List β → List γ) (nil : whole [] = []) (single : ∀ item, whole [item] = part item)
    (cons : ∀ item next items,
      whole (item :: next :: items) = part item ++ separator ++ whole (next :: items))
    (items : List β) : whole items = separator.intercalate (items.map part) := by
  induction items with
  | nil => rw [nil, List.map_nil, List.intercalate_nil]
  | cons item items ih =>
    cases items with
    | nil => rw [single, List.map_singleton, List.intercalate_singleton]
    | cons next items =>
      rw [cons, ih, List.map_cons, List.map_cons, List.map_cons, List.intercalate_cons_cons]

def memberTokens (member : Text × Value) : List Token :=
  [.string member.1, .colon] ++ member.2.tokens

theorem itemTokens_eq (items : List Value) :
    Value.itemTokens items = [Token.comma].intercalate (items.map Value.tokens) := by
  refine intercalate_of_cons _ Value.itemTokens (by rw [Value.itemTokens])
    (fun item => by rw [Value.itemTokens]) ?_ _
  intro item next items
  rw [itemTokens_cons, List.append_assoc, List.singleton_append]

theorem memberTokens_eq (members : List (Text × Value)) :
    Value.memberTokens members = [Token.comma].intercalate (members.map memberTokens) := by
  refine intercalate_of_cons _ Value.memberTokens (by rw [Value.memberTokens])
    (fun member => by rw [Value.memberTokens]; rfl) ?_ _
  intro member next members
  rw [memberTokens_cons, memberTokens, List.append_assoc, List.append_assoc,
    List.singleton_append]
  rfl

private theorem encode_marks :
    String.utf8EncodeChar ',' = [0x2C] ∧ String.utf8EncodeChar ':' = [0x3A] ∧
      String.utf8EncodeChar '[' = [0x5B] ∧ String.utf8EncodeChar ']' = [0x5D] ∧
      String.utf8EncodeChar '\x7b' = [0x7B] ∧ String.utf8EncodeChar '\x7d' = [0x7D] :=
  ⟨rfl, rfl, rfl, rfl, rfl, rfl⟩

/-- The bytes of a member: its key, a colon and its value, with white space before the value. -/
def memberBytes (blanks : List UInt8) (write : Value → String) (member : Text × Value) :
    List UInt8 :=
  encoded member.1.quote.toList ++ [0x3A] ++ blanks ++ encoded (write member.2).toList

theorem Written.member {blanks : List UInt8} (spacing : Spacing blanks) {write : Value → String}
    {member : Text × Value} (keyed : member.1.isSome = true)
    (valued : Written member.2.tokens (encoded (write member.2).toList)) :
    Written (memberTokens member) (memberBytes blanks write member) := by
  obtain ⟨_, value⟩ := member
  obtain ⟨key, rfl⟩ := Option.isSome_iff_exists.mp keyed
  exact (((token (.quoted key)).append (token .colon)).append (.blanks spacing)).append valued

theorem compactItems_bytes (items : List Value) : encoded (Value.compactItems items).toList =
    [0x2C].intercalate (items.map fun item => encoded item.compact.toList) := by
  refine intercalate_of_cons _ (fun items => encoded (Value.compactItems items).toList)
    (by rw [Value.compactItems]; rfl) (fun item => by rw [Value.compactItems]) ?_ _
  intro item next items
  rw [Value.compactItems.eq_3 _ _ (List.cons_ne_nil _ _)]
  simp [encode_marks]

theorem compactMembers_bytes (members : List (Text × Value)) :
    encoded (Value.compactMembers members).toList =
      [0x2C].intercalate (members.map (memberBytes [] Value.compact)) := by
  refine intercalate_of_cons _ (fun members => encoded (Value.compactMembers members).toList)
    (by rw [Value.compactMembers]; rfl)
    (fun member => by simp [Value.compactMembers, memberBytes, encode_marks]) ?_ _
  intro member next members
  rw [Value.compactMembers.eq_3 _ _ _ (List.cons_ne_nil _ _)]
  simp [encode_marks, memberBytes]

theorem Value.Writable.written {value : Value} (writable : value.Writable) :
    Written value.tokens (encoded value.compact.toList) := by
  induction writable with
  | null =>
    rw [Value.compact]
    exact .token .null
  | bool truth =>
    rw [Value.compact]
    cases truth with
    | true => exact .token .trueWord
    | false => exact .token .falseWord
  | number standard =>
    rw [Value.compact]
    exact .token (.number (.written standard))
  | string text =>
    rw [Value.compact]
    exact .token (.quoted text)
  | @array items _ ih =>
    have inside : Written (Value.itemTokens items) (encoded (Value.compactItems items).toList) := by
      rw [itemTokens_eq, compactItems_bytes]
      refine .commas ?_
      rw [List.forall₂_map_left_iff, List.forall₂_map_right_iff, List.forall₂_same]
      exact ih
    rw [Value.tokens, Value.compact]
    simpa [encode_marks] using
      ((Written.token .openArray).append inside).append (.token .closeArray)
  | @object members keyed _ ih =>
    have inside : Written (Value.memberTokens members)
        (encoded (Value.compactMembers members).toList) := by
      rw [memberTokens_eq, compactMembers_bytes]
      refine .commas ?_
      rw [List.forall₂_map_left_iff, List.forall₂_map_right_iff, List.forall₂_same]
      exact fun member included =>
        .member (List.forall_mem_nil _) (keyed member included) (ih member included)
    rw [Value.tokens, Value.compact]
    simpa [encode_marks] using
      ((Written.token .openObject).append inside).append (.token .closeObject)

/-- A document is spelled by bytes that spell its tokens, and white space behind them. -/
theorem ofBytes?_of_written {value : Value} {bytes blanks : List UInt8}
    (written : Written value.tokens bytes) (spacing : Spacing blanks) :
    Value.ofBytes? (bytes ++ blanks) = some value := by
  have lexed := written.before (.done spacing)
  rw [List.append_nil] at lexed
  exact ofBytes?_of_spelled lexed

/-- The written form of a value is read as the value. -/
theorem ofString?_compact {value : Value} (writable : value.Writable) :
    Value.ofString? value.compact = some value := by
  have read := ofBytes?_of_written writable.written (List.forall_mem_nil _)
  rwa [List.append_nil, ← toList_toUTF8] at read

end Json

end TraceChart
