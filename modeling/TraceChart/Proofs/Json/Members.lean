import TraceChart.Proofs.Json.Soundness

/-!
# Members of documents

The tokens of a value stand together among the tokens of all that it is a part of, and so do those
of the first members of an object, and of the last ones. To put members between them is to put their
tokens there, with commas that part them from their neighbours. The rest of a document stays as it
is, byte by byte. What is left of an object without some of its members can be written as well.
-/

namespace TraceChart.Json

/-! ### Bytes in two parts -/

theorem Cut.blanks {blanks rest : List UInt8} {tokens : List Token} (spacing : Spacing blanks)
    (cut : Cut tokens rest) : Cut tokens (blanks ++ rest) := by
  cases cut with
  | done others => exact .done (List.forall_mem_append.mpr ⟨spacing, others⟩)
  | token others form more =>
    rw [← List.append_assoc, ← List.append_assoc]
    exact .token (List.forall_mem_append.mpr ⟨spacing, others⟩) form more

theorem Cut.append {front back : List Token} {bytes rest : List UInt8} (cut : Cut front bytes)
    (more : Cut back rest) : Cut (front ++ back) (bytes ++ rest) := by
  induction cut with
  | done spacing => exact more.blanks spacing
  | token spacing form _ ih =>
    rw [List.cons_append, List.append_assoc]
    exact .token spacing form ih

/-- White space between the parts is counted with the second one. -/
theorem Cut.split {front back : List Token} {bytes : List UInt8} (cut : Cut (front ++ back) bytes) :
    ∃ before after, bytes = before ++ after ∧ Cut front before ∧ Cut back after := by
  induction front generalizing bytes with
  | nil => exact ⟨[], bytes, rfl, .done (List.forall_mem_nil _), cut⟩
  | cons token front ih =>
    cases cut with
    | token spacing form more =>
      obtain ⟨before, after, rfl, first, second⟩ := ih more
      exact ⟨_, after, (List.append_assoc _ before after).symm, .token spacing form first, second⟩

/-! ### Places -/

/-- A place whose value has its tokens between the same tokens, whatever they are. -/
def Encloses (place : Value → Value) : Prop :=
  ∃ opening closing, ∀ value, (place value).tokens = opening ++ value.tokens ++ closing

theorem Encloses.item (before after : List Value) :
    Encloses fun value => .array (before ++ value :: after) := by
  refine ⟨.openArray :: itemsBefore before, itemsAfter after ++ [.closeArray], fun value => ?_⟩
  rw [Value.tokens, itemTokens_append before (List.cons_ne_nil value after), itemTokens_first]
  simp only [List.cons_append, List.append_assoc]

theorem Encloses.member (before after : List (Text × Value)) (key : Text) :
    Encloses fun value => .object (before ++ (key, value) :: after) := by
  refine ⟨.openObject :: membersBefore before ++ [.string key, .colon],
    membersAfter after ++ [.closeObject], fun value => ?_⟩
  rw [Value.tokens, memberTokens_append before (List.cons_ne_nil (key, value) after),
    memberTokens_first]
  simp only [List.cons_append, List.nil_append, List.append_assoc]

theorem Encloses.trans {place around : Value → Value} (first : Encloses place)
    (second : Encloses around) : Encloses (around ∘ place) := by
  obtain ⟨opening, closing, tokens⟩ := first
  obtain ⟨before, after, tokensAround⟩ := second
  refine ⟨before ++ opening, closing ++ after, fun value => ?_⟩
  rw [Function.comp_apply, tokensAround, tokens]
  simp only [List.append_assoc]

/-! ### Insertion -/

/-- The tokens that come with members between others: commas part them from the members behind
them, or else from those before them. -/
def insertedTokens (front added back : List (Text × Value)) : List Token :=
  match back, front with
  | _ :: _, _ => membersBefore added
  | [], _ :: _ => membersAfter added
  | [], [] => Value.memberTokens added

theorem memberTokens_inserted (front back : List (Text × Value)) :
    ∃ opening closing, Value.memberTokens (front ++ back) = opening ++ closing ∧
      ∀ added, Value.memberTokens (front ++ added ++ back) =
        opening ++ insertedTokens front added back ++ closing := by
  -- The position is before the member that comes next, or else behind the last one.
  match back, front with
  | next :: back, front =>
    have some_left := List.cons_ne_nil next back
    refine ⟨membersBefore front, Value.memberTokens (next :: back),
      memberTokens_append front some_left, fun added => ?_⟩
    rw [memberTokens_append _ some_left, membersBefore, List.flatMap_append]
    rfl
  | [], (key, value) :: front =>
    refine ⟨Value.memberTokens ((key, value) :: front), [], by simp, fun added => ?_⟩
    rw [List.append_nil, List.append_nil, List.cons_append, memberTokens_first, memberTokens_first,
      membersAfter, List.flatMap_append, ← List.append_assoc]
    rfl
  | [], [] => exact ⟨[], [], rfl, fun added => by simp [insertedTokens]⟩

/-- A document has a position at which the bytes of members may be put in, and then it is a document
with these members. -/
theorem Encloses.insert {place : Value → Value} (enclosed : Encloses place)
    (front back : List (Text × Value)) {bytes : List UInt8}
    (form : (place (.object (front ++ back))).Form bytes) :
    ∃ before after, bytes = before ++ after ∧ ∀ added inserted,
      Cut (insertedTokens front added back) inserted →
        (place (.object (front ++ added ++ back))).Form (before ++ inserted ++ after) := by
  obtain ⟨outside, behind, around⟩ := enclosed
  obtain ⟨opening, closing, parts, partsAround⟩ := memberTokens_inserted front back
  have tokens : (place (.object (front ++ back))).tokens =
      (outside ++ .openObject :: opening) ++ (closing ++ .closeObject :: behind) := by
    rw [around, Value.tokens, parts]
    simp
  -- With the members, the same tokens stand before the position and behind it.
  rw [Value.Form, tokens] at form
  obtain ⟨before, after, split, first, second⟩ := form.split
  refine ⟨before, after, split, fun added inserted cut => ?_⟩
  have extended : (place (.object (front ++ added ++ back))).tokens =
      (outside ++ .openObject :: opening) ++ insertedTokens front added back ++
        (closing ++ .closeObject :: behind) := by
    rw [around, Value.tokens, partsAround]
    simp
  rw [Value.Form, extended]
  exact (first.append cut).append second

/-! ### Selection -/

theorem Cut.forms {tokens : List Token} {bytes : List UInt8} (cut : Cut tokens bytes) :
    ∀ token ∈ tokens, ∃ bytes, TokenForm token bytes := by
  induction cut with
  | done => exact List.forall_mem_nil _
  | token _ form _ ih => exact List.forall_mem_cons.mpr ⟨⟨_, form⟩, ih⟩

theorem exists_cut {tokens : List Token} (each : ∀ token ∈ tokens, ∃ bytes, TokenForm token bytes) :
    ∃ bytes, Cut tokens bytes := by
  induction tokens with
  | nil => exact ⟨[], .done (List.forall_mem_nil _)⟩
  | cons token tokens ih =>
    obtain ⟨⟨front, form⟩, later⟩ := List.forall_mem_cons.mp each
    obtain ⟨rest, more⟩ := ih later
    exact ⟨[] ++ front ++ rest, .token (List.forall_mem_nil _) form more⟩

/-- Besides commas, the tokens of an object are those of its members. -/
theorem mem_memberTokens {members : List (Text × Value)} {token : Token}
    (found : token ∈ Value.memberTokens members) : token = .comma ∨
      ∃ member ∈ members, token ∈ .string member.1 :: .colon :: member.2.tokens := by
  cases members with
  | nil => cases found
  | cons first members =>
    obtain ⟨key, value⟩ := first
    rw [memberTokens_first, List.mem_append, membersAfter, List.mem_flatMap] at found
    rcases found with own | ⟨member, listed, found⟩
    · exact .inr ⟨_, List.mem_cons_self, own⟩
    · rcases List.mem_cons.mp found with rfl | found
      · exact .inl rfl
      · exact .inr ⟨member, List.mem_cons_of_mem _ listed, found⟩

theorem memberTokens_of_mem {members : List (Text × Value)} {member : Text × Value}
    (listed : member ∈ members) {token : Token}
    (found : token ∈ .string member.1 :: .colon :: member.2.tokens) :
    token ∈ Value.memberTokens members := by
  obtain ⟨before, after, rfl⟩ := List.append_of_mem listed
  obtain ⟨key, value⟩ := member
  rw [memberTokens_append before (List.cons_ne_nil _ after), memberTokens_first]
  exact List.mem_append_right _ (List.mem_append_left _ found)

/-- Some of the members of an object in a document are an object that has a document. -/
theorem exists_form_of_subset {members kept : List (Text × Value)} (subset : kept ⊆ members)
    {bytes : List UInt8} (form : (Value.object members).Form bytes) :
    ∃ keptBytes, (Value.object kept).Form keptBytes := by
  rw [Value.Form, Value.tokens] at form
  have forms := Cut.forms form
  refine exists_cut fun token found => ?_
  rw [Value.tokens, List.mem_append, List.mem_cons, List.mem_singleton] at found
  rcases found with (rfl | found) | rfl
  · exact forms _ (by simp)
  · rcases mem_memberTokens found with rfl | ⟨member, listed, found⟩
    · exact ⟨_, .comma⟩
    · exact forms token (by simp [memberTokens_of_mem (subset listed) found])
  · exact forms _ (by simp)

end TraceChart.Json
