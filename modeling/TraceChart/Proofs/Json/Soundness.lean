import TraceChart.Proofs.Json.Parsing

/-!
# Soundness of the reader

Whatever the reader takes is a strict document of the value that it returns. The bytes of a token
can be read back off the token and what follows it, and the tokens that the machine has taken can
be read back off its state. With completeness, the reader decides the grammar.
-/

namespace TraceChart.Json

/-! ### Numbers -/

theorem byte_of_digit? {byte : UInt8} {digit : Digit} (known : digit? byte = some digit) :
    byte = digit.byte := by
  unfold digit? at known
  split at known
  next bounds =>
    cases known
    simp only [UInt8.le_iff_toNat_le] at bounds
    have low : 0x30 ≤ byte.toNat := bounds.1
    have high : byte.toNat ≤ 0x39 := bounds.2
    have value : 0x30 + (byte.toNat - 0x30) % 10 = byte.toNat := by omega
    rw [Digit.byte, Fin.val_ofNat, value, UInt8.ofNat_toNat]
  next => cases known

theorem readDigits_sound (reversed : List Digit) (bytes : List UInt8) :
    ∃ digits, (readDigits reversed bytes).1 = reversed.reverse ++ digits ∧
      bytes = digits.map Digit.byte ++ (readDigits reversed bytes).2 := by
  induction bytes generalizing reversed with
  | nil => exact ⟨[], by simp [readDigits], by simp [readDigits]⟩
  | cons byte bytes ih =>
    cases known : digit? byte with
    | none => exact ⟨[], by simp [readDigits, known], by simp [readDigits, known]⟩
    | some digit =>
      obtain ⟨digits, read, split⟩ := ih (digit :: reversed)
      refine ⟨digit :: digits, by simp [readDigits, known, read], ?_⟩
      rw [byte_of_digit? known]
      simp [readDigits, split.symm]

/-- The digits at the front of some bytes, with what follows them. -/
theorem bytes_of_readDigits {bytes rest : List UInt8} {digits : List Digit}
    (read : readDigits [] bytes = (digits, rest)) : bytes = digits.map Digit.byte ++ rest := by
  obtain ⟨more, all, split⟩ := readDigits_sound [] bytes
  rw [read] at all split
  rw [split, ← all.trans (List.nil_append more)]

theorem readWhole_sound {bytes rest : List UInt8} {whole : List Digit}
    (read : readWhole bytes = some (whole, rest)) :
    bytes = whole.map Digit.byte ++ rest ∧
      ∃ first others, whole = first :: others ∧ (first = Digit.zero → others = []) := by
  unfold readWhole at read
  cases digits : readDigits [] bytes with
  | mk front after =>
    rw [digits] at read
    have split := bytes_of_readDigits digits
    match front with
    | [] => cases read
    | [first] =>
      cases read
      exact ⟨split, first, [], rfl, fun _ => rfl⟩
    | first :: second :: others =>
      dsimp only at read
      split at read
      next => cases read
      next nonzero =>
        cases read
        exact ⟨split, first, _, rfl, fun zero => absurd zero nonzero⟩

theorem readFraction_sound {bytes rest : List UInt8} {fraction : List Digit}
    (read : readFraction bytes = some (fraction, rest)) :
    bytes = (if fraction = [] then [] else 0x2E :: fraction.map Digit.byte) ++ rest := by
  unfold readFraction at read
  split at read
  next after =>
    cases digits : readDigits [] after with
    | mk front behind =>
      rw [digits] at read
      have split := bytes_of_readDigits digits
      match front with
      | [] => cases read
      | first :: others =>
        cases read
        rw [split, if_neg (List.cons_ne_nil _ _), List.cons_append]
  next =>
    cases read
    rfl

theorem readExponentDigits_sound {negative : Bool} {bytes rest : List UInt8} {exponent : Int}
    (read : readExponentDigits negative bytes = some (exponent, rest)) :
    ∃ digits, digits ≠ [] ∧ exponent = Binary64.signed negative (Digit.value digits) ∧
      bytes = digits.map Digit.byte ++ rest := by
  unfold readExponentDigits at read
  cases found : readDigits [] bytes with
  | mk front after =>
    rw [found] at read
    have split := bytes_of_readDigits found
    match front with
    | [] => cases read
    | first :: others =>
      cases read
      exact ⟨_, List.cons_ne_nil _ _, rfl, split⟩

theorem readExponent_sound {bytes rest : List UInt8} {mark : Option Int}
    (read : readExponent bytes = some (mark, rest)) :
    ∃ exponent, ExponentSpelled mark exponent ∧ bytes = exponent ++ rest := by
  unfold readExponent at read
  split at read
  next byte after =>
    split at read
    next letter =>
      -- With each sign, the digits end where the exponent does.
      have signed {negative : Bool} {sign behind : List UInt8} (spelled : SignSpelled negative sign)
          (read : (readExponentDigits negative behind).map
            (fun (exponent, rest) => (some exponent, rest)) = some (mark, rest)) :
          ∃ exponent, ExponentSpelled mark exponent ∧
            byte :: sign ++ behind = exponent ++ rest := by
        obtain ⟨⟨exponent, behind⟩, found, same⟩ := Option.map_eq_some_iff.mp read
        cases same
        obtain ⟨digits, written, rfl, rfl⟩ := readExponentDigits_sound found
        exact ⟨_, .present byte digits letter spelled written, by simp⟩
      dsimp only at read
      split at read
      next => exact signed .plus read
      next => exact signed .minus read
      next => exact signed .absent read
    next =>
      cases read
      exact ⟨[], .absent, rfl⟩
  next =>
    cases read
    exact ⟨[], .absent, rfl⟩

theorem readNumeral_sound {bytes rest : List UInt8} {numeral : Numeral}
    (read : readNumeral bytes = some (numeral, rest)) :
    ∃ front, NumeralSpelled numeral front ∧ bytes = front ++ rest := by
  unfold readNumeral at read
  split at read
  next negative unsigned sign =>
    have signed : bytes = (if negative then [0x2D] else []) ++ unsigned := by
      split at sign <;> cases sign <;> rfl
    simp only [Option.bind_eq_bind, Option.bind_eq_some_iff, Option.pure_def, Option.some.injEq,
      Prod.exists, Prod.mk.injEq] at read
    obtain ⟨whole, _, readWhole, fraction, _, readFraction, mark, _, readExponent, rfl, rfl⟩ := read
    -- Each part is followed by what the next one was read from.
    obtain ⟨rfl, first, others, rfl, leading⟩ := readWhole_sound readWhole
    obtain rfl := readFraction_sound readFraction
    obtain ⟨exponent, raised, rfl⟩ := readExponent_sound readExponent
    exact ⟨_, .parts negative first others fraction leading raised, by simp [signed]⟩

/-! ### Strings -/

theorem readPieces_sound {reversed pieces : List Piece} {bytes rest : List UInt8}
    (read : readPieces reversed bytes = some (pieces, rest)) :
    ∃ more chunks, pieces = reversed.reverse ++ more ∧ List.Forall₂ PieceSpelled more chunks ∧
      bytes = chunks.flatten ++ 0x22 :: rest := by
  -- A piece that was read stands before all that the rest of the string is read as.
  have next {piece : Piece} {chunk after : List UInt8} {reversed : List Piece}
      (spelled : PieceSpelled piece chunk)
      (later : ∃ more chunks, pieces = (piece :: reversed).reverse ++ more ∧
        List.Forall₂ PieceSpelled more chunks ∧ after = chunks.flatten ++ 0x22 :: rest) :
      ∃ more chunks, pieces = reversed.reverse ++ more ∧
        List.Forall₂ PieceSpelled more chunks ∧
        chunk ++ after = chunks.flatten ++ 0x22 :: rest := by
    obtain ⟨more, chunks, rfl, spelledMore, rfl⟩ := later
    exact ⟨piece :: more, chunk :: chunks, by simp, .cons spelled spelledMore, by simp⟩
  -- One case for each way in which the next bytes are read or refused.
  induction reversed, bytes using readPieces.induct with
  | case1 => cases read
  | case2 reversed after =>
    rw [readPieces] at read
    cases read
    exact ⟨[], [], by simp, .nil, rfl⟩
  | case3 reversed first second third fourth after number known ih =>
    rw [readPieces, known] at read
    exact next (.unit first second third fourth number known) (ih read)
  | case4 reversed first second third fourth after unknown =>
    rw [readPieces, unknown] at read
    cases read
  | case5 reversed letter after notUnit byte known ih =>
    rw [readPieces.eq_4 _ _ _ notUnit, known] at read
    exact next (.short letter byte known) (ih read)
  | case6 reversed letter after notUnit unknown =>
    rw [readPieces.eq_4 _ _ _ notUnit, unknown] at read
    cases read
  | case7 reversed byte after unquoted notUnit notShort refused =>
    rw [readPieces.eq_5 _ _ _ unquoted notUnit notShort, if_pos refused] at read
    cases read
  | case8 reversed byte after unquoted notUnit notShort other ih =>
    rw [readPieces.eq_5 _ _ _ unquoted notUnit notShort, if_neg other] at read
    rw [not_or] at other
    exact next (.plain byte ⟨UInt8.not_lt.mp other.1, unquoted, other.2⟩) (ih read)

/-! ### Tokens -/

theorem read?_sound {bytes rest : List UInt8} {token : Token}
    (read : Token.read? bytes = some (token, rest)) :
    ∃ front, TokenForm token front ∧ bytes = front ++ rest := by
  unfold Token.read? at read
  split at read
  · cases read
  · cases read
    exact ⟨[0x5B], .openArray, rfl⟩
  · cases read
    exact ⟨[0x5D], .closeArray, rfl⟩
  · cases read
    exact ⟨[0x7B], .openObject, rfl⟩
  · cases read
    exact ⟨[0x7D], .closeObject, rfl⟩
  · cases read
    exact ⟨[0x2C], .comma, rfl⟩
  · cases read
    exact ⟨[0x3A], .colon, rfl⟩
  · cases read
    exact ⟨[0x6E, 0x75, 0x6C, 0x6C], .null, rfl⟩
  · cases read
    exact ⟨[0x74, 0x72, 0x75, 0x65], .trueWord, rfl⟩
  · cases read
    exact ⟨[0x66, 0x61, 0x6C, 0x73, 0x65], .falseWord, rfl⟩
  · obtain ⟨⟨pieces, after⟩, found, same⟩ := Option.map_eq_some_iff.mp read
    cases same
    obtain ⟨pieces, chunks, rfl, spelled, rfl⟩ := readPieces_sound found
    exact ⟨_, (stringForm_iff _ _).mpr ⟨pieces, chunks, spelled, rfl, rfl⟩, by simp⟩
  · obtain ⟨⟨numeral, after⟩, found, same⟩ := Option.map_eq_some_iff.mp read
    cases same
    obtain ⟨front, spelled, rfl⟩ := readNumeral_sound found
    exact ⟨front, .number spelled, rfl⟩

theorem readMany_sound {reversed tokens : List Token} {fuel : Nat} {bytes : List UInt8}
    (read : Token.readMany reversed fuel bytes = some tokens) :
    ∃ more, tokens = reversed.reverse ++ more ∧ Cut more bytes := by
  induction fuel generalizing reversed bytes with
  | zero =>
    rw [Token.readMany.eq_def] at read
    dsimp only at read
    split at read
    next blank =>
      cases read
      exact ⟨[], by simp, .done (List.dropWhile_eq_nil_iff.mp blank)⟩
    next => cases read
  | succ fuel ih =>
    rw [Token.readMany.eq_def] at read
    dsimp only at read
    split at read
    next blank =>
      cases read
      exact ⟨[], by simp, .done (List.dropWhile_eq_nil_iff.mp blank)⟩
    next byte after dropped =>
      split at read
      next token rest found =>
        -- The white space that was dropped stands before the token.
        obtain ⟨more, rfl, cut⟩ := ih read
        obtain ⟨front, form, split⟩ := read?_sound found
        have spacing : Spacing (bytes.takeWhile isSpacing) := fun byte member =>
          List.mem_takeWhile_imp member
        have whole : bytes = bytes.takeWhile isSpacing ++ front ++ rest := by
          rw [List.append_assoc, ← split, ← dropped, List.takeWhile_append_dropWhile]
        refine ⟨token :: more, by simp, ?_⟩
        rw [whole]
        exact .token spacing form cut
      next => cases read

theorem readAll_sound {bytes : List UInt8} {tokens : List Token}
    (read : Token.readAll bytes = some tokens) : Cut tokens bytes := by
  obtain ⟨more, rfl, cut⟩ := readMany_sound read
  exact cut

/-! ### The machine -/

/-- The tokens of items that more items follow. -/
def itemsBefore (items : List Value) : List Token :=
  items.flatMap fun item => item.tokens ++ [.comma]

/-- The tokens of members that more members follow. -/
def membersBefore (members : List (Text × Value)) : List Token :=
  members.flatMap fun (key, value) => .string key :: .colon :: value.tokens ++ [.comma]

theorem itemTokens_append (front : List Value) {back : List Value} (some_left : back ≠ []) :
    Value.itemTokens (front ++ back) = itemsBefore front ++ Value.itemTokens back := by
  induction front with
  | nil => rfl
  | cons first front ih =>
    -- Behind the first item there is at least one more, so a comma follows.
    obtain ⟨next, others, rest⟩ := List.exists_cons_of_ne_nil
      (List.append_ne_nil_of_right_ne_nil front some_left)
    rw [List.cons_append, rest, itemTokens_cons, ← rest, ih]
    simp [itemsBefore]

theorem memberTokens_append (front : List (Text × Value)) {back : List (Text × Value)}
    (some_left : back ≠ []) :
    Value.memberTokens (front ++ back) = membersBefore front ++ Value.memberTokens back := by
  induction front with
  | nil => rfl
  | cons first front ih =>
    obtain ⟨next, others, rest⟩ := List.exists_cons_of_ne_nil
      (List.append_ne_nil_of_right_ne_nil front some_left)
    obtain ⟨firstKey, firstValue⟩ := first
    rw [List.cons_append, rest, memberTokens_cons, ← rest, ih]
    simp [membersBefore]

theorem itemTokens_concat (items : List Value) (item : Value) :
    Value.itemTokens (items ++ [item]) = itemsBefore items ++ item.tokens := by
  rw [itemTokens_append items (List.cons_ne_nil item []), Value.itemTokens]

theorem memberTokens_concat (members : List (Text × Value)) (key : Text) (value : Value) :
    Value.memberTokens (members ++ [(key, value)]) =
      membersBefore members ++ .string key :: .colon :: value.tokens := by
  rw [memberTokens_append members (List.cons_ne_nil (key, value) []), Value.memberTokens]

/-- What stands before more items is what stood before the bracket, with a comma. -/
theorem itemsBefore_of_ne_nil {items : List Value} (some_read : items ≠ []) :
    itemsBefore items = Value.itemTokens items ++ [.comma] := by
  rw [← List.dropLast_concat_getLast some_read, itemTokens_concat]
  simp [itemsBefore]

theorem membersBefore_of_ne_nil {members : List (Text × Value)} (some_read : members ≠ []) :
    membersBefore members = Value.memberTokens members ++ [.comma] := by
  rw [← List.dropLast_concat_getLast some_read, memberTokens_concat]
  simp [membersBefore]

/-- The tokens that opened what is open, up to where a value is due. -/
def opened : List Frame → List Token
  | [] => []
  | .array reversed :: frames => opened frames ++ .openArray :: itemsBefore reversed.reverse
  | .object reversed key :: frames =>
    opened frames ++ .openObject :: membersBefore reversed.reverse ++ [.string key, .colon]

namespace State

/-- The tokens that the machine has taken to reach a state. -/
def taken : State → List Token
  | .awaitValue frames => opened frames
  | .arrayOpened frames => opened frames ++ [.openArray]
  | .inArray reversed frames => opened frames ++ .openArray :: Value.itemTokens reversed.reverse
  | .objectOpened frames => opened frames ++ [.openObject]
  | .awaitKey reversed frames => opened frames ++ .openObject :: membersBefore reversed.reverse
  | .awaitColon reversed key frames =>
    opened frames ++ .openObject :: membersBefore reversed.reverse ++ [.string key]
  | .inObject reversed frames =>
    opened frames ++ .openObject :: Value.memberTokens reversed.reverse
  | .done value => value.tokens

/-- An array or object that takes a comma has something to stand before it. -/
def Proper : State → Prop
  | .inArray reversed _ => reversed ≠ []
  | .inObject reversed _ => reversed ≠ []
  | _ => True

theorem taken_complete (value : Value) (frames : List Frame) :
    (complete value frames).taken = opened frames ++ value.tokens := by
  match frames with
  | [] => rfl
  | .array reversed :: frames =>
    simp [complete, taken, opened, itemTokens_concat]
  | .object reversed key :: frames =>
    simp [complete, taken, opened, memberTokens_concat]

theorem proper_complete (value : Value) (frames : List Frame) : (complete value frames).Proper := by
  match frames with
  | [] => trivial
  | .array _ :: _ => exact List.cons_ne_nil _ _
  | .object _ _ :: _ => exact List.cons_ne_nil _ _

theorem takeValue_sound {frames : List Frame} {token : Token} {next : State}
    (stepped : takeValue frames token = some next) :
    next.Proper ∧ next.taken = opened frames ++ [token] := by
  unfold takeValue at stepped
  split at stepped <;> cases stepped
  · exact ⟨trivial, rfl⟩
  · exact ⟨trivial, rfl⟩
  all_goals exact ⟨proper_complete _ _, by rw [taken_complete, Value.tokens]⟩

/-- Each step takes one token. -/
theorem step_sound {state next : State} {token : Token} (proper : state.Proper)
    (stepped : state.step token = some next) :
    next.Proper ∧ next.taken = state.taken ++ [token] := by
  unfold step at stepped
  split at stepped
  next => exact takeValue_sound stepped
  next frames =>
    cases stepped
    exact ⟨proper_complete _ _, by
      rw [taken_complete]
      simp [taken, Value.tokens, Value.itemTokens]⟩
  next => exact takeValue_sound stepped
  next reversed frames =>
    cases stepped
    -- The comma was not due before the first item.
    have before := itemsBefore_of_ne_nil (List.reverse_ne_nil_iff.mpr proper)
    exact ⟨trivial, by simp [taken, opened, before]⟩
  next =>
    cases stepped
    exact ⟨proper_complete _ _, by
      rw [taken_complete]
      simp [taken, Value.tokens]⟩
  next =>
    cases stepped
    exact ⟨proper_complete _ _, by
      rw [taken_complete]
      simp [taken, Value.tokens, Value.memberTokens]⟩
  next =>
    cases stepped
    exact ⟨trivial, by simp [taken, membersBefore]⟩
  next =>
    cases stepped
    exact ⟨trivial, by simp [taken]⟩
  next =>
    cases stepped
    exact ⟨trivial, by simp [taken, opened]⟩
  next reversed frames =>
    cases stepped
    have before := membersBefore_of_ne_nil (List.reverse_ne_nil_iff.mpr proper)
    exact ⟨trivial, by simp [taken, before]⟩
  next =>
    cases stepped
    exact ⟨proper_complete _ _, by
      rw [taken_complete]
      simp [taken, Value.tokens]⟩
  next => cases stepped

theorem run_sound {state last : State} {tokens : List Token} (proper : state.Proper)
    (ran : state.run tokens = some last) : last.taken = state.taken ++ tokens := by
  induction tokens generalizing state with
  | nil =>
    cases ran
    rw [List.append_nil]
  | cons token tokens ih =>
    rw [run_cons, Option.bind_eq_some_iff] at ran
    obtain ⟨next, stepped, ran⟩ := ran
    obtain ⟨properNext, took⟩ := step_sound proper stepped
    rw [ih properNext ran, took, List.append_assoc, List.singleton_append]

end State

/-! ### Documents -/

theorem ofTokens?_eq_some_iff (tokens : List Token) (value : Value) :
    Value.ofTokens? tokens = some value ↔ tokens = value.tokens := by
  constructor
  · intro read
    obtain ⟨last, ran, final⟩ := Option.bind_eq_some_iff.mp read
    have took : last.taken = tokens := @State.run_sound (.awaitValue []) last tokens trivial ran
    unfold State.value? at final
    split at final
    next =>
      cases final
      exact took.symm
    next => cases final
  · rintro rfl
    exact ofTokens?_tokens value

/-- A value is read from the strict documents of it, and from nothing else. -/
theorem ofBytes?_eq_some_iff (bytes : List UInt8) (value : Value) :
    Value.ofBytes? bytes = some value ↔ value.Form bytes := by
  constructor
  · intro read
    obtain ⟨tokens, cut, parsed⟩ := Option.bind_eq_some_iff.mp read
    rw [ofTokens?_eq_some_iff] at parsed
    rw [Value.Form, ← parsed]
    exact readAll_sound cut
  · exact ofBytes?_of_form

end TraceChart.Json
