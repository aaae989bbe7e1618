import TraceChart.Proofs.Number.Reading
import TraceChart.Proofs.Number.Seventh
import TraceChart.Proofs.Svg.Chart

/-!
# Documents scan back

What a scanner finds in a document is what the commands ask for, one after the other, and nothing
else: whatever the texts of the commands are, each comes back as it is, inside the attribute or the
element that it was put into. A label that has no room is cut before it is written, so the cut never
falls into an entity. The tags nest just as the groups of the commands do.
-/

namespace TraceChart.Svg

/-! ### The tags and texts of a document -/

/-- An element with a text inside, which leaves nothing to scan where it is empty. -/
def elementTokens (name : String) (attributes : List Attribute) (content : String) : List Markup :=
  [.start name attributes] ++ (if content = "" then [] else [.text content]) ++ [.finish name]

/-- The number of characters that have room in a width: the whole part of its seventh, as far as
characters are counted. -/
def room (width : Binary64) : Nat :=
  if (width / 7.0).isFinite then min ⌊(width / 7.0).value⌋₊ mostCharacters.toNat
  else mostCharacters.toNat

/-- A label where there is room for some characters. -/
def fitLabel (label : String) (room : Nat) : String :=
  if label.length ≤ room then label
  else String.ofList (label.toList.take (room - 1) ++ ['…'])

def titleTokens : Option String → List Markup
  | some hover => elementTokens "title" [] hover
  | none => []

/-- A color that is named is put in as it is, and a role has the color of the theme. -/
def fillText (theme : Theme) : Paint → String
  | .named name => name
  | .token token => theme.color token

/-- The color of a label: light on the deep colors, dark on all others that are named. -/
def labelColor (theme : Theme) : Paint → String
  | .named name => if name ∈ deepColors then "#ffffff" else "#1a1a2e"
  | .token _ => theme.color .textPrimary

def edgeAttributes (theme : Theme) : Option Token → List Attribute
  | some edge => [⟨"stroke", theme.color edge⟩, ⟨"stroke-width", "0.5"⟩]
  | none => []

def anchorText : Align → String
  | .left => "start"
  | .center => "middle"
  | .right => "end"

/-- A label is written behind its rectangle, over it, if that is more than thirty wide. -/
def labelTokens (theme : Theme) (rect : Rect Binary64) (fill : Paint) :
    Option String → List Markup
  | some label =>
    if Scalar.lt 30.0 rect.width then
      elementTokens "text"
        [⟨"x", Scalar.plainText (rect.x + 3.0)⟩,
          ⟨"y", Scalar.plainText (rect.y + rect.height * 0.75)⟩,
          ⟨"fill", labelColor theme fill⟩, ⟨"style", "pointer-events:none"⟩]
        (fitLabel label (room rect.width))
    else []
  | none => []

def commandTokens (theme : Theme) : Command Binary64 → List Markup
  | .rect rect fill border label hover =>
    [.start "rect"
      ([⟨"x", Scalar.plainText rect.x⟩, ⟨"y", Scalar.plainText rect.y⟩,
        ⟨"width", Scalar.plainText rect.width⟩, ⟨"height", Scalar.plainText rect.height⟩,
        ⟨"fill", fillText theme fill⟩] ++ edgeAttributes theme border)] ++
      titleTokens hover ++ [.finish "rect"] ++ labelTokens theme rect fill label
  | .line start finish color width =>
    [.empty "line"
      [⟨"x1", Scalar.plainText start.x⟩, ⟨"y1", Scalar.plainText start.y⟩,
        ⟨"x2", Scalar.plainText finish.x⟩, ⟨"y2", Scalar.plainText finish.y⟩,
        ⟨"stroke", theme.color color⟩, ⟨"stroke-width", Scalar.plainText width⟩]]
  | .text position text color size align =>
    elementTokens "text"
      [⟨"x", Scalar.plainText position.x⟩, ⟨"y", Scalar.plainText position.y⟩,
        ⟨"fill", fillText theme color⟩, ⟨"font-size", Scalar.plainText size⟩,
        ⟨"text-anchor", anchorText align⟩] text
  | .beginGroup id _ => [.start "g" [⟨"id", id⟩]]
  | .endGroup => [.finish "g"]

def backgroundColor : Theme → String
  | .light => "#ffffff"
  | .dark => "#1a1a2e"

/-- The tag of a document with its size, and a rectangle of that size behind everything. -/
def frontTokens (theme : Theme) (width height : Binary64) : List Markup :=
  [.start "svg"
    [⟨"xmlns", "http://www.w3.org/2000/svg"⟩,
      ⟨"viewBox", "0 0 " ++ Scalar.plainText width ++ " " ++ Scalar.plainText height⟩,
      ⟨"width", Scalar.plainText width⟩, ⟨"height", Scalar.plainText height⟩,
      ⟨"style", "font-family:system-ui,-apple-system,sans-serif;font-size:11px"⟩],
    .empty "rect"
      [⟨"width", Scalar.plainText width⟩, ⟨"height", Scalar.plainText height⟩,
        ⟨"fill", backgroundColor theme⟩]]

def documentTokens (theme : Theme) (width height : Binary64) (commands : List (Command Binary64)) :
    List Markup :=
  frontTokens theme width height ++ commands.flatMap (commandTokens theme) ++ [.finish "svg"]

/-- A number sign and six hexadecimal digits. -/
def HexColor (text : String) : Prop :=
  text.toList.head? = some '#' ∧ text.toList.tail.length = 6 ∧
    ∀ digit ∈ text.toList.tail, digit ∈ "0123456789abcdef".toList

/-! ### What the tags are made of -/

@[simp] theorem paint_eq (theme : Theme) (fill : Paint) : theme.paint fill = fillText theme fill := by
  cases fill <;> rfl

@[simp] theorem inkOn_eq (theme : Theme) (fill : Paint) :
    theme.inkOn fill = labelColor theme fill := by
  cases fill <;> rfl

@[simp] theorem borderAttributes_eq (theme : Theme) (border : Option Token) :
    borderAttributes theme border = edgeAttributes theme border := by
  cases border <;> rfl

@[simp] theorem anchor_eq (align : Align) : anchor align = anchorText align := by
  cases align <;> rfl

theorem opening_eq (theme : Theme) (width height : Binary64) :
    opening theme width height = frontTokens theme width height := by
  cases theme <;> rfl

/-- No color of a theme has a character in it that could end an attribute. -/
theorem hexColor_color (theme : Theme) (token : Token) : HexColor (theme.color token) := by
  cases theme <;> cases token <;> simp [HexColor, Theme.color]

/-! ### Room for labels -/

theorem thirty_exact : (30.0 : Binary64).isFinite = true ∧ (30.0 : Binary64).value = 30 :=
  @Binary64.literal_exact 30 (by decide) (by decide)

/-- A width of more than thirty is a number that is greater, or infinite. -/
theorem wide_cases {width : Binary64} (wide : Scalar.lt 30.0 width = true) :
    width.isFinite = true ∧ 30 < width.value ∨ width = .infinite false := by
  obtain ⟨_, _, greater⟩ := OrderedScalar.lt_iff.mp wide
  cases width with
  | nan => cases wide
  | infinite negative =>
    cases negative with
    | false => exact Or.inr rfl
    | true => exact absurd wide (by decide)
  | finite negative significand exponent canonical =>
    refine Or.inl ⟨rfl, ?_⟩
    rw [← thirty_exact.2, ← not_le, ← Binary64.le_iff_value_le _ _ rfl thirty_exact.1]
    exact Bool.eq_false_iff.mp greater

/-- A seventh of a finite number is finite, and is rounded from the exact one. -/
theorem rounds_seventh {width : Binary64} (finite : width.isFinite = true) (wide : 7 ≤ width.value) :
    (width / 7.0).Rounds (width.value / 7) ∧ (width / 7.0).isFinite = true ∧
      1 ≤ (width / 7.0).value := by
  have rounds := Binary64.rounds_div_seven finite
  have one : (1.0 : Binary64).isFinite = true := by decide
  have between := rounds.between one finite
    (by rw [Binary64.value_one]; linarith) (by linarith)
  rw [Binary64.value_one] at between
  exact ⟨rounds, between.1, between.2.1⟩

theorem capacity_eq_room {width : Binary64} (wide : Scalar.lt 30.0 width = true) :
    capacity width = room width := by
  rcases wide_cases wide with ⟨finite, large⟩ | rfl
  · obtain ⟨_, seventhFinite, positive⟩ := rounds_seventh finite (by linarith)
    have truncated : Scalar.truncate (width / 7.0) = .at ⌊(width / 7.0).value⌋ :=
      Binary64.truncate_of_nonneg seventhFinite (by linarith)
    have nonneg : 0 ≤ ⌊(width / 7.0).value⌋ := Int.floor_nonneg.mpr (by linarith)
    rw [capacity, truncated, room, if_pos seventhFinite, ← Int.floor_toNat]
    simp only [Extended.within, mostCharacters]
    omega
  · rfl

/-- Up to 2^51 characters, there is room for as many as the exact quotient says. -/
theorem le_room_iff {width : Binary64} (finite : width.isFinite = true) (large : 7 ≤ width.value)
    {count : Nat} (small : count < 2251799813685248) :
    count ≤ room width ↔ 7 * count ≤ width.value := by
  obtain ⟨_, seventhFinite, positive⟩ := rounds_seventh finite large
  rw [← Binary64.le_seventh_iff finite large small, room, if_pos seventhFinite, le_min_iff,
    Nat.le_floor_iff (by linarith)]
  simp only [and_iff_left_iff_imp, mostCharacters]
  omega

theorem four_le_room {width : Binary64} (wide : Scalar.lt 30.0 width = true) : 4 ≤ room width := by
  rcases wide_cases wide with ⟨finite, large⟩ | rfl
  · rw [le_room_iff finite (by linarith) (by decide)]
    push_cast
    linarith
  · decide

/-- Where a rectangle is wide enough for a label, there is room for more than two characters, so a
label that is too long is cut. -/
theorem cutLabel_eq_fitLabel {width : Binary64} (wide : Scalar.lt 30.0 width = true)
    (label : String) : cutLabel label (capacity width) = fitLabel label (room width) := by
  have roomy := four_le_room wide
  rw [capacity_eq_room wide, cutLabel, fitLabel]
  by_cases long : room width < label.length
  · rw [if_pos ⟨long, by omega⟩, if_neg (by omega)]
  · rw [if_neg (fun both => long both.1), if_pos (by omega)]

/-- The exact quotient decides over every label of less than 2^51 characters. -/
theorem fitLabel_exact {width : Binary64} (finite : width.isFinite = true) (large : 7 ≤ width.value)
    {label : String} (short : label.length < 2251799813685248) :
    fitLabel label (room width) = fitLabel label ⌊width.value / 7⌋₊ := by
  have nonneg : 0 ≤ width.value / 7 := by linarith
  have exact_iff (count : Nat) : count ≤ ⌊width.value / 7⌋₊ ↔ 7 * count ≤ width.value := by
    rw [Nat.le_floor_iff nonneg, le_div_iff₀ (by norm_num), mul_comm]
  by_cases fits : label.length ≤ ⌊width.value / 7⌋₊
  · have roomy := (le_room_iff finite large short).mpr ((exact_iff _).mp fits)
    rw [fitLabel, fitLabel, if_pos roomy, if_pos fits]
  · -- The room that is too small for the label is below 2^51 itself.
    have above := (le_room_iff finite large (by omega)).mpr ((exact_iff _).mp le_rfl)
    have below : ¬ ⌊width.value / 7⌋₊ + 1 ≤ room width := by
      rw [le_room_iff finite large (by omega), ← exact_iff]
      omega
    have same : room width = ⌊width.value / 7⌋₊ := by omega
    rw [same]

/-! ### Scanning -/

theorem shown_element (name : String) (attributes : List Attribute) (content : String) :
    shown [.start name attributes, .text content, .finish name] =
      elementTokens name attributes content := by
  by_cases empty : content = "" <;> simp [shown, elementTokens, empty]

theorem shown_titleMarkup (hover : Option String) :
    shown (titleMarkup hover) = titleTokens hover := by
  cases hover with
  | none => rfl
  | some hover => exact shown_element "title" [] hover

theorem shown_labelMarkup (theme : Theme) (rect : Rect Binary64) (fill : Paint)
    (label : Option String) :
    shown (label.elim [] (labelMarkup theme rect fill)) = labelTokens theme rect fill label := by
  cases label with
  | none => rfl
  | some label =>
    simp only [Option.elim, labelMarkup, labelTokens]
    split
    next wide => rw [shown_element, cutLabel_eq_fitLabel wide, inkOn_eq]; rfl
    next => rfl

theorem shown_markup (theme : Theme) (command : Command Binary64) :
    shown (markup theme command) = commandTokens theme command := by
  cases command with
  | rect rect fill border label hover =>
    rw [markup, shown_append, shown_append, shown_append, shown_titleMarkup, shown_labelMarkup]
    simp [commandTokens, number, shown]
  | text position text color size align =>
    rw [markup, shown_element, paint_eq, anchor_eq]
    rfl
  | line start finish color width => simp [markup, commandTokens, number, shown]
  | beginGroup id label => simp [markup, commandTokens, shown]
  | endGroup => simp [markup, commandTokens, shown]

theorem scans_markup (theme : Theme) (command : Command Binary64) :
    Scans (markup theme command) := by
  -- A tag of a group is no element on its own, but it scans like any other tag.
  by_cases group : command.isGroup = true
  · cases command with
    | beginGroup id label => exact scans_start (by simp [IsName]) (by simp [IsName])
    | endGroup => exact scans_finish (by simp [IsName])
    | rect => cases group
    | text => cases group
    | line => cases group
  · obtain ⟨_, reads, _⟩ := draws_command theme command (by simpa using group)
    exact reads.scans

theorem scans_commands (theme : Theme) (commands : List (Command Binary64)) :
    Scans (commands.flatMap (markup theme)) := by
  induction commands with
  | nil => exact .nil
  | cons command commands ih => exact (scans_markup theme command).append ih

theorem shown_commands (theme : Theme) (commands : List (Command Binary64)) :
    shown (commands.flatMap (markup theme)) = commands.flatMap (commandTokens theme) := by
  induction commands with
  | nil => rfl
  | cons command commands ih =>
    rw [List.flatMap_cons, shown_append, shown_markup, ih, List.flatMap_cons]

theorem scan_documentMarkup (theme : Theme) (width height : Binary64)
    (commands : List (Command Binary64)) :
    (ScanMode.text []).scan (document theme width height commands).toList =
      some (documentTokens theme width height commands) := by
  have front : Scans (opening theme width height) :=
    (scans_start (by simp [IsName]) (by simp [IsName])).append
      (scans_empty (by simp [IsName]) (by simp [IsName]))
  have back : Scans [.finish "svg"] := scans_finish (by simp [IsName])
  have scanned := ((front.append (scans_commands theme commands)).append back) []
  have nothing : (ScanMode.text []).scan [] = some [] := rfl
  rw [List.append_nil, nothing, Option.map_some, List.append_nil, shown_append, shown_append,
    shown_commands] at scanned
  rw [document, Markup.write, String.toList_ofList, documentMarkup, scanned, opening_eq]
  simp [documentTokens, frontTokens, shown]

/-! ### Nesting -/

/-- Tags nest inside open elements: an end tag closes the innermost one, and in the end none is
open. -/
def Nested : List String → List Markup → Prop
  | opened, [] => opened = []
  | opened, .start name _ :: tokens => Nested (name :: opened) tokens
  | opened, .finish name :: tokens => ∃ outer, opened = name :: outer ∧ Nested outer tokens
  | opened, .empty _ _ :: tokens => Nested opened tokens
  | opened, .text _ :: tokens => Nested opened tokens

/-- Groups nest inside some open groups: none is ended that was not begun, and in the end none is
open. -/
def Balanced : Nat → List (Command Binary64) → Prop
  | depth, [] => depth = 0
  | depth, .beginGroup _ _ :: commands => Balanced (depth + 1) commands
  | depth, .endGroup :: commands => ∃ outer, depth = outer + 1 ∧ Balanced outer commands
  | depth, _ :: commands => Balanced depth commands

theorem nested_element (opened : List String) (name : String) (attributes : List Attribute)
    (content : String) (rest : List Markup) :
    Nested opened (elementTokens name attributes content ++ rest) ↔ Nested opened rest := by
  unfold elementTokens
  split <;> simp [Nested]

theorem nested_label (opened : List String) (theme : Theme) (rect : Rect Binary64) (fill : Paint)
    (label : Option String) (rest : List Markup) :
    Nested opened (labelTokens theme rect fill label ++ rest) ↔ Nested opened rest := by
  cases label with
  | none => rfl
  | some label =>
    simp only [labelTokens]
    split
    · exact nested_element _ _ _ _ _
    · rfl

theorem nested_title (opened : List String) (hover : Option String) (rest : List Markup) :
    Nested opened (titleTokens hover ++ rest) ↔ Nested opened rest := by
  cases hover with
  | none => rfl
  | some hover => exact nested_element _ _ _ _ _

/-- The elements that are open among the commands of a document. -/
def openElements (depth : Nat) : List String :=
  List.replicate depth "g" ++ ["svg"]

theorem nested_commands (theme : Theme) (commands : List (Command Binary64)) (depth : Nat) :
    Nested (openElements depth) (commands.flatMap (commandTokens theme) ++ [.finish "svg"]) ↔
      Balanced depth commands := by
  induction commands generalizing depth with
  | nil =>
    cases depth <;> simp [openElements, Nested, Balanced, List.replicate_succ]
  | cons command commands ih =>
    rw [List.flatMap_cons, List.append_assoc]
    cases command with
    | rect rect fill border label hover =>
      simp [commandTokens, Nested, Balanced, nested_title, nested_label, ih]
    | text position text color size align =>
      rw [commandTokens, nested_element, ih]
      rfl
    | line start finish color width => exact ih depth
    | beginGroup id label => exact ih (depth + 1)
    | endGroup =>
      -- Without an open group, the end tag would have to close the document.
      cases depth with
      | zero => simp [commandTokens, openElements, Nested, Balanced]
      | succ depth =>
        have outer := ih depth
        simpa [commandTokens, openElements, Nested, Balanced, List.replicate_succ] using outer

/-- A document scans as its own tags, a background and the elements of its commands in their order,
with every text of a command as it is, whatever its characters are. A label shows whole where it has
room and otherwise cut, behind which stands an ellipsis; there is room for a character in each seven
of the width. Up to 2^51 characters that is the exact quotient: only from there on the rounded one
can reach a whole number which the exact one does not. The tags nest if, and only if, the groups of
the commands do. What no text of a command decides is harmless: the colors of a theme are
hexadecimal, and a finite number is read back from its attribute. -/
theorem scan_document (theme : Theme) (width height : Binary64)
    (commands : List (Command Binary64)) :
    (ScanMode.text []).scan (document theme width height commands).toList =
        some (documentTokens theme width height commands) ∧
    (Nested [] (documentTokens theme width height commands) ↔ Balanced 0 commands) ∧
    (∀ (label : String) (rectWidth : Binary64), Scalar.lt 30.0 rectWidth = true →
      label.length < 2251799813685248 →
      (rectWidth.isFinite = true →
        fitLabel label (room rectWidth) = fitLabel label ⌊rectWidth.value / 7⌋₊) ∧
      (rectWidth.isFinite = false → fitLabel label (room rectWidth) = label)) ∧
    (∀ token, HexColor (theme.color token)) ∧
    ∀ number : Binary64, number.isFinite = true →
      readBinary64? (Scalar.plainText number).toList = some number := by
  refine ⟨scan_documentMarkup theme width height commands, nested_commands theme commands 0, ?_,
    hexColor_color theme, fun number finite => Style.plain.readBinary64?_text finite⟩
  intro label rectWidth wide short
  rcases wide_cases wide with ⟨finite, large⟩ | rfl
  · exact ⟨fun _ => fitLabel_exact finite (by linarith) short, fun infinite => by
      rw [finite] at infinite; cases infinite⟩
  · refine ⟨nofun, fun _ => ?_⟩
    have roomy : label.length ≤ room (.infinite false) := by
      change label.length ≤ 18446744073709551615
      omega
    exact if_pos roomy

end TraceChart.Svg
