import TraceChart.Proofs.Json.Spelling
import TraceChart.Proofs.Traversal

/-!
# Strict documents

The grammar of all documents that the reader takes. In a document that spells a value, every string
spells a text. The grammar asks less of strings: their escapes must be whole and their bytes may
not be control characters, but what they denote need not be a text.
-/

namespace TraceChart

/-- The bytes of some characters. -/
def encoded (chars : List Char) : List UInt8 :=
  chars.flatMap String.utf8EncodeChar

@[simp] theorem encoded_nil : encoded [] = [] := rfl

@[simp] theorem encoded_cons (char : Char) (chars : List Char) :
    encoded (char :: chars) = String.utf8EncodeChar char ++ encoded chars := rfl

@[simp] theorem encoded_append (front back : List Char) :
    encoded (front ++ back) = encoded front ++ encoded back :=
  List.flatMap_append

theorem fromUTF8?_encoded (text : String) :
    String.fromUTF8? ⟨(encoded text.toList).toArray⟩ = some text := by
  have bytes : (⟨(encoded text.toList).toArray⟩ : ByteArray) = text.toByteArray := by
    rw [← String.utf8Encode_toList]
    apply ByteArray.ext
    simp [encoded, List.utf8Encode]
  have valid : text.toByteArray.IsValidUTF8 := text.isValidUTF8
  rw [bytes, String.fromUTF8?, dif_pos valid]
  rfl

theorem fromUTF8?_eq_some_iff (bytes : List UInt8) (text : String) :
    String.fromUTF8? ⟨bytes.toArray⟩ = some text ↔ bytes = encoded text.toList := by
  constructor
  · intro read
    unfold String.fromUTF8? at read
    split at read
    next valid =>
      have known : text.toByteArray = ⟨bytes.toArray⟩ := by
        rw [← Option.some.inj read]
        rfl
      have array := congrArg (fun content : ByteArray => content.data.toList) known
      rw [← String.utf8Encode_toList] at array
      simpa [encoded, List.utf8Encode] using array.symm
    next => cases read
  · rintro rfl
    exact fromUTF8?_encoded text

namespace Json

/-! ### Strings -/

/-- A byte that stands for itself inside a string. -/
def Plain (byte : UInt8) : Prop :=
  0x20 ≤ byte ∧ byte ≠ 0x22 ∧ byte ≠ 0x5C

/-- What a string is made of, each piece with its bytes. -/
inductive PieceSpelled : Piece → List UInt8 → Prop
  | plain (byte : UInt8) (plain : Plain byte) : PieceSpelled (.byte byte) [byte]
  | short (letter byte : UInt8) (known : shortEscape? letter = some byte) :
      PieceSpelled (.byte byte) [0x5C, letter]
  | unit (first second third fourth : UInt8) (number : Nat)
      (known : unit? first second third fourth = some number) :
      PieceSpelled (.unit number) [0x5C, 0x75, first, second, third, fourth]

/-- The bytes that pieces denote: those of a character for a unit, or for two units that pair. -/
inductive Denoted : List Piece → List UInt8 → Prop
  | done : Denoted [] []
  | byte {pieces : List Piece} {bytes : List UInt8} (byte : UInt8) (more : Denoted pieces bytes) :
      Denoted (.byte byte :: pieces) (byte :: bytes)
  | unit {pieces : List Piece} {bytes : List UInt8} (char : Char) (more : Denoted pieces bytes) :
      Denoted (.unit char.toNat :: pieces) (String.utf8EncodeChar char ++ bytes)
  | pair {pieces : List Piece} {bytes : List UInt8} (char : Char) (leading trailing : Nat)
      (opens : isLeading leading = true) (closes : isTrailing trailing = true)
      (number : char.toNat = 0x10000 + (leading - 0xD800) * 0x400 + (trailing - 0xDC00))
      (more : Denoted pieces bytes) :
      Denoted (.unit leading :: .unit trailing :: pieces) (String.utf8EncodeChar char ++ bytes)

/-- A string with the text of which its pieces denote the bytes, and with none where there is no
such text. -/
inductive StringForm : Text → List UInt8 → Prop
  | pieces {text : Text} {pieces : List Piece} {chunks : List (List UInt8)}
      (spelled : List.Forall₂ PieceSpelled pieces chunks)
      (denoted : ∀ known : String, text = some known ↔ Denoted pieces (encoded known.toList)) :
      StringForm text (0x22 :: chunks.flatten ++ [0x22])

/-! ### Documents -/

def TokenForm : Token → List UInt8 → Prop
  | .string text, bytes => StringForm text bytes
  | token, bytes => TokenSpelled token bytes

/-- Tokens one after the other, with white space before and after each. -/
inductive Cut : List Token → List UInt8 → Prop
  | done {blanks : List UInt8} (spacing : Spacing blanks) : Cut [] blanks
  | token {blanks bytes rest : List UInt8} {token : Token} {tokens : List Token}
      (spacing : Spacing blanks) (form : TokenForm token bytes) (more : Cut tokens rest) :
      Cut (token :: tokens) (blanks ++ bytes ++ rest)

/-- A strict document of a value. -/
def Value.Form (value : Value) (bytes : List UInt8) : Prop :=
  Cut value.tokens bytes

/-! ### What pieces denote -/

theorem toNat_not_surrogate (char : Char) :
    isLeading char.toNat = false ∧ isTrailing char.toNat = false := by
  have valid : char.toNat < 0xD800 ∨ 0xDFFF < char.toNat ∧ char.toNat < 0x110000 := char.valid
  constructor
  · exact decide_eq_false (by omega)
  · exact decide_eq_false (by omega)

theorem bytes?_unit (number : Nat) (later : List Piece) (first : isLeading number = false)
    (second : isTrailing number = false) :
    Text.bytes? (.unit number :: later) =
      (Text.bytes? later).map (String.utf8EncodeChar (Char.ofNat number) ++ ·) := by
  cases later with
  | nil => simp [Text.bytes?, first, second]
  | cons piece later => cases piece <;> simp [Text.bytes?, first, second]

theorem bytes?_of_denoted {pieces : List Piece} {bytes : List UInt8}
    (denoted : Denoted pieces bytes) : Text.bytes? pieces = some bytes := by
  induction denoted with
  | done => rfl
  | byte byte _ ih => rw [Text.bytes?, ih, Option.map_some]
  | unit char _ ih =>
    obtain ⟨first, second⟩ := toNat_not_surrogate char
    rw [bytes?_unit _ _ first second, ih, Char.ofNat_toNat, Option.map_some]
  | pair char leading trailing opens closes number _ ih =>
    rw [Text.bytes?, if_pos opens, if_pos closes, ih, ← number]
    dsimp only
    rw [Char.ofNat_toNat, Option.map_some]

/-- Units have sixteen bits, so none of them is beyond all characters. -/
def Piece.Bounded : Piece → Prop
  | .byte _ => True
  | .unit number => number < 0x10000

/-- A number that is no surrogate is that of a character. -/
theorem exists_char {number : Nat} (bounded : number < 0x110000)
    (first : isLeading number = false) (second : isTrailing number = false) :
    ∃ char : Char, char.toNat = number := by
  have first := of_decide_eq_false first
  have second := of_decide_eq_false second
  have valid : number.isValidChar := by
    unfold Nat.isValidChar
    omega
  exact ⟨Char.ofNat number, by rw [Char.toNat_ofNat, if_pos valid]⟩

theorem denoted_of_bytes? {pieces : List Piece} {bytes : List UInt8}
    (bounded : ∀ piece ∈ pieces, piece.Bounded) (read : Text.bytes? pieces = some bytes) :
    Denoted pieces bytes := by
  -- A unit that is no surrogate stands for its character, whatever comes next.
  have alone {number : Nat} {later : List Piece} {bytes : List UInt8}
      (small : (Piece.unit number).Bounded) (first : isLeading number = false)
      (second : isTrailing number = false)
      (read : Text.bytes? (.unit number :: later) = some bytes)
      (ih : ∀ {bytes}, Text.bytes? later = some bytes → Denoted later bytes) :
      Denoted (.unit number :: later) bytes := by
    have small : number < 0x10000 := small
    obtain ⟨char, rfl⟩ := exists_char (by omega) first second
    rw [bytes?_unit _ _ first second, Option.map_eq_some_iff] at read
    obtain ⟨more, read, rfl⟩ := read
    rw [Char.ofNat_toNat]
    exact .unit char (ih read)
  induction pieces using Text.bytes?.induct generalizing bytes with
  | case1 =>
    cases read
    exact .done
  | case2 byte rest ih =>
    rw [Text.bytes?, Option.map_eq_some_iff] at read
    obtain ⟨more, read, rfl⟩ := read
    exact .byte byte (ih (List.forall_mem_of_forall_mem_cons bounded) read)
  | case3 leading trailing rest opens closes ih =>
    rw [Text.bytes?, if_pos opens, if_pos closes, Option.map_eq_some_iff] at read
    obtain ⟨more, read, rfl⟩ := read
    have range := of_decide_eq_true opens
    have trailingRange := of_decide_eq_true closes
    -- Two surrogates make up a number beyond all that sixteen bits hold.
    obtain ⟨char, number⟩ := @exists_char
      (0x10000 + (leading - 0xD800) * 0x400 + (trailing - 0xDC00)) (by omega)
      (decide_eq_false (by omega)) (decide_eq_false (by omega))
    rw [← number, Char.ofNat_toNat]
    refine .pair char leading trailing opens closes number (ih (fun piece member => ?_) read)
    exact bounded piece (List.mem_cons_of_mem _ (List.mem_cons_of_mem _ member))
  | case4 leading trailing rest opens other =>
    rw [Text.bytes?, if_pos opens, if_neg other] at read
    cases read
  | case5 leading trailing rest other closes =>
    rw [Text.bytes?, if_neg other, if_pos closes] at read
    cases read
  | case6 leading trailing rest first second ih =>
    exact alone (bounded _ List.mem_cons_self) (eq_false_of_ne_true first)
      (eq_false_of_ne_true second) read (ih (List.forall_mem_of_forall_mem_cons bounded))
  | case7 number rest last surrogate =>
    rw [Text.bytes?.eq_4 _ _ last, if_pos surrogate] at read
    cases read
  | case8 number rest last other ih =>
    rw [Bool.or_eq_true, not_or] at other
    exact alone (bounded _ List.mem_cons_self) (eq_false_of_ne_true other.1)
      (eq_false_of_ne_true other.2) read (ih (List.forall_mem_of_forall_mem_cons bounded))

theorem hexDigit?_lt {byte : UInt8} {value : Nat} (known : hexDigit? byte = some value) :
    value < 16 := by
  unfold hexDigit? at known
  -- Three ranges of bytes are digits, and each ends before sixteen.
  simp only [UInt8.le_iff_toNat_le] at known
  split at known
  · cases known
    have bounds : byte.toNat ≤ 0x39 := by simp_all
    omega
  · split at known
    · cases known
      have bounds : byte.toNat ≤ 0x46 := by simp_all
      omega
    · split at known
      · cases known
        have bounds : byte.toNat ≤ 0x66 := by simp_all
        omega
      · cases known

theorem PieceSpelled.bounded {piece : Piece} {bytes : List UInt8}
    (spelled : PieceSpelled piece bytes) : piece.Bounded := by
  cases spelled with
  | plain => trivial
  | short => trivial
  | unit first second third fourth number known =>
    simp only [unit?, Option.bind_eq_bind, Option.bind_eq_some_iff, Option.pure_def,
      Option.some.injEq] at known
    obtain ⟨first, knownFirst, second, knownSecond, third, knownThird, fourth, knownFourth,
      rfl⟩ := known
    have := hexDigit?_lt knownFirst
    have := hexDigit?_lt knownSecond
    have := hexDigit?_lt knownThird
    have := hexDigit?_lt knownFourth
    change ((first * 16 + second) * 16 + third) * 16 + fourth < 0x10000
    omega

/-- The text of some pieces is the one whose bytes they denote. -/
theorem ofPieces_eq_some_iff {pieces : List Piece} {chunks : List (List UInt8)}
    (spelled : List.Forall₂ PieceSpelled pieces chunks) (text : String) :
    Text.ofPieces pieces = some text ↔ Denoted pieces (encoded text.toList) := by
  have bounded : ∀ piece ∈ pieces, piece.Bounded := fun piece member => by
    obtain ⟨chunk, -, spelled⟩ := forall₂_exists spelled piece member
    exact spelled.bounded
  rw [Text.ofPieces, Option.bind_eq_bind, Option.bind_eq_some_iff]
  -- The bytes are settled first, and only then whether they are those of a text.
  constructor
  · rintro ⟨bytes, read, decoded⟩
    rw [fromUTF8?_eq_some_iff] at decoded
    rw [← decoded]
    exact denoted_of_bytes? bounded read
  · exact fun denoted => ⟨_, bytes?_of_denoted denoted, fromUTF8?_encoded text⟩

theorem stringForm_iff (text : Text) (bytes : List UInt8) :
    StringForm text bytes ↔ ∃ pieces chunks, List.Forall₂ PieceSpelled pieces chunks ∧
      bytes = 0x22 :: chunks.flatten ++ [0x22] ∧ text = Text.ofPieces pieces := by
  constructor
  · rintro ⟨spelled, denoted⟩
    refine ⟨_, _, spelled, rfl, Option.ext fun known => ?_⟩
    rw [denoted, ofPieces_eq_some_iff spelled]
  · rintro ⟨pieces, chunks, spelled, rfl, rfl⟩
    exact .pieces spelled (ofPieces_eq_some_iff spelled)

/-! ### Spelled texts -/

theorem plain_ofNat (number : Nat) (small : number < 256)
    (apart : 0x20 ≤ number ∧ number ≠ 0x22 ∧ number ≠ 0x5C) : Plain (UInt8.ofNat number) := by
  have kept : (UInt8.ofNat number).toNat = number := UInt8.toNat_ofNat_of_lt' small
  refine ⟨?_, ?_, ?_⟩
  · rw [UInt8.le_iff_toNat_le, kept]
    exact apart.1
  · intro quote
    rw [quote] at kept
    exact apart.2.1 kept.symm
  · intro backslash
    rw [backslash] at kept
    exact apart.2.2 kept.symm

/-- A character outside ASCII is written by bytes that are all outside it too. -/
theorem plain_of_mem_utf8EncodeChar (char : Char) (printed : 0x20 ≤ char.toNat)
    (unquoted : char ≠ '"') (unescaped : char ≠ '\\') :
    ∀ byte ∈ String.utf8EncodeChar char, Plain byte := by
  have notQuote : char.toNat ≠ 0x22 := fun same => unquoted (Char.toNat_inj.mp same)
  have notBackslash : char.toNat ≠ 0x5C := fun same => unescaped (Char.toNat_inj.mp same)
  intro byte member
  unfold String.utf8EncodeChar at member
  change 0x20 ≤ char.val.toNat at printed
  change char.val.toNat ≠ 0x22 at notQuote
  change char.val.toNat ≠ 0x5C at notBackslash
  dsimp only at member
  -- One case for each length of an encoding. Beyond the first, all bytes are at least 0x80.
  split at member
  · obtain rfl := List.mem_singleton.mp member
    exact plain_ofNat _ (by omega) ⟨printed, notQuote, notBackslash⟩
  · split at member
    · simp only [List.mem_cons, List.not_mem_nil, or_false] at member
      rcases member with rfl | rfl <;> exact plain_ofNat _ (by omega) (by omega)
    · split at member <;> simp only [List.mem_cons, List.not_mem_nil, or_false] at member
      · rcases member with rfl | rfl | rfl <;> exact plain_ofNat _ (by omega) (by omega)
      · rcases member with rfl | rfl | rfl | rfl <;> exact plain_ofNat _ (by omega) (by omega)

private theorem pieces_of_plain {bytes : List UInt8} (plain : ∀ byte ∈ bytes, Plain byte) :
    List.Forall₂ PieceSpelled (bytes.map Piece.byte) (bytes.map fun byte => [byte]) := by
  rw [List.forall₂_map_left_iff, List.forall₂_map_right_iff, List.forall₂_same]
  exact fun byte member => .plain byte (plain byte member)

private theorem denoted_bytes (bytes : List UInt8) {later : List Piece} {denoted : List UInt8}
    (more : Denoted later denoted) :
    Denoted (bytes.map Piece.byte ++ later) (bytes ++ denoted) := by
  induction bytes with
  | nil => exact more
  | cons byte bytes ih => exact .byte byte ih

/-- The pieces of a spelling of a character, which denote its bytes whatever comes next. -/
theorem CharSpelled.pieces {char : Char} {bytes : List UInt8} (spelled : CharSpelled char bytes) :
    ∃ pieces chunks, List.Forall₂ PieceSpelled pieces chunks ∧ chunks.flatten = bytes ∧
      ∀ {later denoted}, Denoted later denoted →
        Denoted (pieces ++ later) (String.utf8EncodeChar char ++ denoted) := by
  cases spelled with
  | literal _ printed unquoted unescaped =>
    have plain := plain_of_mem_utf8EncodeChar char printed unquoted unescaped
    exact ⟨_, _, pieces_of_plain plain, by simp [← List.flatMap_def], denoted_bytes _⟩
  | short letter byte known =>
    have encoding : String.utf8EncodeChar (Char.ofNat byte.toNat) = [byte] := by
      unfold shortEscape? at known
      split at known <;> cases known <;> rfl
    refine ⟨[.byte byte], [[0x5C, letter]], .cons (.short letter byte known) .nil, rfl, ?_⟩
    intro later denoted more
    rw [encoding]
    exact .byte byte more
  | unit _ first second third fourth number =>
    exact ⟨[.unit char.toNat], [[0x5C, 0x75, first, second, third, fourth]],
      .cons (.unit first second third fourth char.toNat number) .nil, rfl, .unit char⟩
  | pair _ leading trailing first second third fourth fifth sixth seventh eighth front back opens
      closes number =>
    exact ⟨[.unit leading, .unit trailing],
      [[0x5C, 0x75, first, second, third, fourth], [0x5C, 0x75, fifth, sixth, seventh, eighth]],
      .cons (.unit first second third fourth leading front)
        (.cons (.unit fifth sixth seventh eighth trailing back) .nil),
      rfl, .pair char leading trailing opens closes number⟩

theorem pieces_of_chars {chars : List Char} {spellings : List (List UInt8)}
    (spelled : List.Forall₂ CharSpelled chars spellings) :
    ∃ pieces chunks, List.Forall₂ PieceSpelled pieces chunks ∧
      chunks.flatten = spellings.flatten ∧ Denoted pieces (encoded chars) := by
  induction spelled with
  | nil => exact ⟨[], [], .nil, rfl, .done⟩
  | cons first _ ih =>
    obtain ⟨front, frontChunks, spelledFront, joined, denotes⟩ := first.pieces
    obtain ⟨back, backChunks, spelledBack, joinedBack, denoted⟩ := ih
    exact ⟨front ++ back, frontChunks ++ backChunks, List.rel_append spelledFront spelledBack,
      by simp [joined, joinedBack], denotes denoted⟩

theorem TokenSpelled.form {token : Token} {bytes : List UInt8}
    (spelled : TokenSpelled token bytes) : TokenForm token bytes := by
  cases spelled with
  | @string text _ spelled =>
    obtain ⟨pieces, chunks, sound, joined, denoted⟩ := pieces_of_chars spelled
    refine (stringForm_iff _ _).mpr ⟨pieces, chunks, sound, by rw [joined], ?_⟩
    exact ((ofPieces_eq_some_iff sound text).mpr denoted).symm
  | number spelled => exact .number spelled
  | openArray => exact .openArray
  | closeArray => exact .closeArray
  | openObject => exact .openObject
  | closeObject => exact .closeObject
  | comma => exact .comma
  | colon => exact .colon
  | null => exact .null
  | trueWord => exact .trueWord
  | falseWord => exact .falseWord

theorem Lexed.cut {tokens : List Token} {bytes : List UInt8} (lexed : Lexed tokens bytes) :
    Cut tokens bytes := by
  induction lexed with
  | done spacing => exact .done spacing
  | token spacing spelled _ ih => exact .token spacing spelled.form ih

/-- What spells a value is a strict document of it. -/
theorem Value.Spelled.form {value : Value} {bytes : List UInt8} (spelled : value.Spelled bytes) :
    value.Form bytes :=
  Lexed.cut spelled

end Json

end TraceChart
