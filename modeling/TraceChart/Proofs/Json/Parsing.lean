import TraceChart.Proofs.Json.Lexing

/-!
# Parsing

The stack machine reads the tokens of a value back into this value, whatever is open around it.
With the cutting of bytes this makes the reader complete: every document that holds a value is
read as it.
-/

namespace TraceChart.Json

/-- The state after some tokens, unless one of them is out of place. -/
def State.run (state : State) (tokens : List Token) : Option State :=
  tokens.foldlM State.step state

namespace State

@[simp] theorem run_nil (state : State) : state.run [] = some state := rfl

@[simp] theorem run_cons (state : State) (token : Token) (tokens : List Token) :
    state.run (token :: tokens) = (state.step token).bind fun next => next.run tokens := rfl

end State

/-! ### The tokens of a value -/

/-- Where a value has its first token, an array that was just opened takes it as its first item. -/
private theorem run_arrayOpened (value : Value) (frames : List Frame) (rest : List Token) :
    (State.arrayOpened frames).run (value.tokens ++ rest) =
      (State.awaitValue (.array [] :: frames)).run (value.tokens ++ rest) := by
  cases value <;> simp [Value.tokens, State.step]

theorem itemTokens_cons (item next : Value) (items : List Value) :
    Value.itemTokens (item :: next :: items) =
      item.tokens ++ .comma :: Value.itemTokens (next :: items) := by
  rw [Value.itemTokens]
  simp

theorem memberTokens_cons (key : Text) (value : Value) (next : Text × Value)
    (members : List (Text × Value)) :
    Value.memberTokens ((key, value) :: next :: members) =
      .string key :: .colon :: value.tokens ++ .comma :: Value.memberTokens (next :: members) := by
  rw [Value.memberTokens]
  simp

/-- The tokens of items that come behind others. -/
def itemsAfter (items : List Value) : List Token :=
  items.flatMap fun item => .comma :: item.tokens

/-- The tokens of members that come behind others. -/
def membersAfter (members : List (Text × Value)) : List Token :=
  members.flatMap fun (key, value) => .comma :: .string key :: .colon :: value.tokens

theorem itemTokens_first (item : Value) (items : List Value) :
    Value.itemTokens (item :: items) = item.tokens ++ itemsAfter items := by
  induction items generalizing item with
  | nil => rw [Value.itemTokens, itemsAfter, List.flatMap_nil, List.append_nil]
  | cons next items ih =>
    rw [itemTokens_cons, ih, itemsAfter, itemsAfter, List.flatMap_cons, List.cons_append]

theorem memberTokens_first (key : Text) (value : Value) (members : List (Text × Value)) :
    Value.memberTokens ((key, value) :: members) =
      .string key :: .colon :: value.tokens ++ membersAfter members := by
  induction members generalizing key value with
  | nil => rw [Value.memberTokens, membersAfter, List.flatMap_nil, List.append_nil]
  | cons next members ih =>
    rw [memberTokens_cons, ih, membersAfter, membersAfter, List.flatMap_cons]
    rfl

/-! ### Running the machine -/

mutual

/-- The machine completes a value with its last token. -/
theorem run_tokens (value : Value) (frames : List Frame) (rest : List Token) :
    (State.awaitValue frames).run (value.tokens ++ rest) =
      (State.complete value frames).run rest := by
  cases value with
  | null => rfl
  | bool truth => rfl
  | number numeral => rfl
  | string text => rfl
  | array items =>
    have opened := run_itemTokens items [] frames rest
    cases items with
    | nil => rfl
    | cons item items =>
      -- The first item is taken where the array might still have been closed.
      have front := itemTokens_first item items
      specialize opened (List.cons_ne_nil item items)
      rw [front, List.append_assoc, ← run_arrayOpened, ← List.append_assoc, ← front] at opened
      rw [Value.tokens, List.append_assoc, List.cons_append, State.run_cons]
      exact opened
  | object members =>
    have opened := run_memberTokens members [] frames rest
    cases members with
    | nil => rfl
    | cons member members =>
      obtain ⟨key, value⟩ := member
      have front := memberTokens_first key value members
      specialize opened (List.cons_ne_nil (key, value) members)
      rw [Value.tokens, List.append_assoc, List.cons_append, State.run_cons]
      rw [front] at opened ⊢
      exact opened

/-- The items that are still to come join those that are there. -/
theorem run_itemTokens (items reversed : List Value) (frames : List Frame) (rest : List Token)
    (some_left : items ≠ []) :
    (State.awaitValue (.array reversed :: frames)).run
        (Value.itemTokens items ++ ([.closeArray] ++ rest)) =
      (State.complete (.array (reversed.reverse ++ items)) frames).run rest := by
  match items with
  | [item] =>
    rw [Value.itemTokens, run_tokens item, ← List.reverse_cons]
    rfl
  | item :: next :: items =>
    -- The item that is complete joins the others in reverse, and the comma asks for the next.
    have later := run_itemTokens (next :: items) (item :: reversed) frames rest
      (List.cons_ne_nil next items)
    rw [List.reverse_cons, ← List.append_cons] at later
    rw [itemTokens_cons, List.append_assoc, run_tokens item, ← later]
    rfl

/-- The members that are still to come join those that are there. -/
theorem run_memberTokens (members reversed : List (Text × Value)) (frames : List Frame)
    (rest : List Token) (some_left : members ≠ []) :
    (State.awaitKey reversed frames).run
        (Value.memberTokens members ++ ([.closeObject] ++ rest)) =
      (State.complete (.object (reversed.reverse ++ members)) frames).run rest := by
  match members with
  | [(key, value)] =>
    rw [Value.memberTokens, ← List.reverse_cons]
    exact run_tokens value (.object reversed key :: frames) _
  | (key, value) :: next :: members =>
    have valued := run_tokens value (.object reversed key :: frames)
    have later := run_memberTokens (next :: members) ((key, value) :: reversed) frames rest
      (List.cons_ne_nil next members)
    rw [List.reverse_cons, ← List.append_cons] at later
    rw [memberTokens_cons, List.append_assoc, ← later]
    exact valued _

end

/-! ### Documents -/

private theorem foldlM_tokens (value : Value) :
    value.tokens.foldlM State.step (.awaitValue []) = some (.done value) := by
  have completed := run_tokens value [] []
  rw [List.append_nil, State.run_nil] at completed
  exact completed

theorem ofTokens?_tokens (value : Value) : Value.ofTokens? value.tokens = some value := by
  unfold Value.ofTokens?
  rw [foldlM_tokens]
  rfl

/-- After a number, a number is out of place: the state it leaves takes none. -/
private theorem step_step_number (state : State) (token next : Token)
    (number : token.isNumber = true) (nextNumber : next.isNumber = true) :
    (state.step token).bind (fun passed => passed.step next) = none := by
  have complete_number (value : Value) (frames : List Frame) :
      (State.complete value frames).step next = none := by
    cases next <;> simp [Token.isNumber] at nextNumber
    rcases frames with _ | ⟨_ | _, frames⟩ <;> rfl
  cases token <;> simp only [Token.isNumber, Bool.false_eq_true] at number
  cases state with
  | awaitValue frames => exact complete_number _ frames
  | arrayOpened frames => exact complete_number _ (.array [] :: frames)
  | _ => rfl

/-- No two numbers follow each other in tokens that the machine takes. -/
theorem separated_of_run (tokens : List Token) (state last : State)
    (taken : state.run tokens = some last) : Separated tokens := by
  induction tokens generalizing state with
  | nil => exact List.IsChain.nil
  | cons token tokens ih =>
    rw [State.run_cons, Option.bind_eq_some_iff] at taken
    obtain ⟨passed, stepped, taken⟩ := taken
    have separated := ih passed taken
    cases tokens with
    | nil => exact List.IsChain.singleton token
    | cons next tokens =>
      refine List.IsChain.cons_cons ?_ separated
      intro number
      -- The state after the first number would have to take the second.
      by_contra following
      have refused := step_step_number state token next number (by simpa using following)
      rw [State.run_cons, Option.bind_eq_some_iff] at taken
      obtain ⟨later, steppedNext, _⟩ := taken
      rw [stepped, Option.bind_some, steppedNext] at refused
      exact Option.some_ne_none later refused

theorem separated_tokens (value : Value) : Separated value.tokens :=
  separated_of_run value.tokens _ _ (foldlM_tokens value)

/-- A strict document of a value is read as it. -/
theorem ofBytes?_of_form {value : Value} {bytes : List UInt8} (form : value.Form bytes) :
    Value.ofBytes? bytes = some value := by
  have cut := readAll_of_cut form (separated_tokens value)
  unfold Value.ofBytes?
  rw [cut]
  exact ofTokens?_tokens value

/-- Every document that spells a value is read as it. -/
theorem ofBytes?_of_spelled {value : Value} {bytes : List UInt8} (spelled : value.Spelled bytes) :
    Value.ofBytes? bytes = some value :=
  ofBytes?_of_form spelled.form

end TraceChart.Json
