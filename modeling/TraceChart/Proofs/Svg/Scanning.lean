import Mathlib
import TraceChart.Svg.Markup

/-!
# Written markup scans back

A scanner reads characters one by one and tells tags from text, as a reader of a document does. It
knows nothing of how the text was written. What has been written scans back to the same tags and
texts, whatever stands in attribute values and texts; an empty text leaves no trace.
-/

namespace TraceChart.Svg

/-- Text with its entities replaced by what they stand for. -/
def unescape : List Char → List Char
  | '&' :: 'a' :: 'm' :: 'p' :: ';' :: rest => '&' :: unescape rest
  | '&' :: 'l' :: 't' :: ';' :: rest => '<' :: unescape rest
  | '&' :: 'g' :: 't' :: ';' :: rest => '>' :: unescape rest
  | '&' :: 'q' :: 'u' :: 'o' :: 't' :: ';' :: rest => '"' :: unescape rest
  | '&' :: 'a' :: 'p' :: 'o' :: 's' :: ';' :: rest => '\'' :: unescape rest
  | char :: rest => char :: unescape rest
  | [] => []

/-- What the scanner is in the middle of, with the characters that it has collected. -/
inductive ScanMode where
  | text (raw : List Char)
  | front
  | startName (name : List Char)
  /-- Behind the name of a start tag or an attribute. -/
  | between (tag : String) (attributes : List Attribute)
  | attributeName (tag : String) (attributes : List Attribute) (name : List Char)
  | quote (tag : String) (attributes : List Attribute) (name : String)
  | value (tag : String) (attributes : List Attribute) (name : String) (raw : List Char)
  | slash (tag : String) (attributes : List Attribute)
  | finishName (name : List Char)

namespace ScanMode

def textTokens (raw : List Char) : List Markup :=
  if raw = [] then [] else [.text (String.ofList (unescape raw))]

/-- How a start tag goes on behind its name or an attribute. -/
def goOn (tag : String) (attributes : List Attribute) : Char → Option (ScanMode × List Markup)
  | ' ' => some (.attributeName tag attributes [], [])
  | '/' => some (.slash tag attributes, [])
  | '>' => some (.text [], [.start tag attributes])
  | _ => none

/-- Take one character, with the tags and texts that it completes. -/
def step : ScanMode → Char → Option (ScanMode × List Markup)
  | .text raw, char =>
    if char = '<' then some (.front, textTokens raw) else some (.text (raw ++ [char]), [])
  | .front, char =>
    if char = '/' then some (.finishName [], []) else some (.startName [char], [])
  | .startName name, char =>
    match goOn (String.ofList name) [] char with
    | some next => some next
    | none => some (.startName (name ++ [char]), [])
  | .between tag attributes, char => goOn tag attributes char
  | .attributeName tag attributes name, char =>
    if char = '=' then some (.quote tag attributes (String.ofList name), [])
    else some (.attributeName tag attributes (name ++ [char]), [])
  | .quote tag attributes name, char =>
    if char = '"' then some (.value tag attributes name [], []) else none
  | .value tag attributes name raw, char =>
    if char = '"' then
      some (.between tag (attributes ++ [⟨name, String.ofList (unescape raw)⟩]), [])
    else some (.value tag attributes name (raw ++ [char]), [])
  | .slash tag attributes, char =>
    if char = '>' then some (.text [], [.empty tag attributes]) else none
  | .finishName name, char =>
    if char = '>' then some (.text [], [.finish (String.ofList name)])
    else some (.finishName (name ++ [char]), [])

/-- The tags and texts of some characters. Inside a tag there must be more to come. -/
def scan : ScanMode → List Char → Option (List Markup)
  | .text raw, [] => some (textTokens raw)
  | _, [] => none
  | mode, char :: chars => do
    let (next, tokens) ← mode.step char
    let rest ← next.scan chars
    pure (tokens ++ rest)

theorem scan_cons (mode : ScanMode) (char : Char) (chars : List Char) :
    mode.scan (char :: chars) =
      (mode.step char).bind fun (next, tokens) => (next.scan chars).map (tokens ++ ·) := by
  have unfolded : mode.scan (char :: chars) =
      (mode.step char).bind fun (next, tokens) =>
        (next.scan chars).bind fun rest => some (tokens ++ rest) := by
    cases mode <;> rfl
  simp only [unfolded, Option.map_eq_bind]
  rfl

theorem scan_of_step {mode next : ScanMode} {char : Char}
    (stepped : mode.step char = some (next, [])) (chars : List Char) :
    mode.scan (char :: chars) = next.scan chars := by
  simp [scan_cons, stepped]

/-- Characters that a mode collects one by one are collected together. -/
theorem scan_collect (mode : List Char → ScanMode) (chars : List Char)
    (collects : ∀ collected, ∀ char ∈ chars,
      (mode collected).step char = some (mode (collected ++ [char]), []))
    (collected rest : List Char) :
    (mode collected).scan (chars ++ rest) = (mode (collected ++ chars)).scan rest := by
  induction chars generalizing collected with
  | nil => simp
  | cons char chars ih =>
    rw [List.cons_append, scan_of_step (collects collected char List.mem_cons_self),
      ih fun collected later member => collects collected later (List.mem_cons_of_mem _ member)]
    simp

end ScanMode

open ScanMode

/-! ### Entities -/

theorem unescape_cons {char : Char} (plain : char ≠ '&') (text : List Char) :
    unescape (char :: text) = char :: unescape text := by
  rw [unescape] <;> simp [plain]

theorem escapeChar_of_plain {char : Char}
    (plain : char ∉ ['&', '<', '>', '"', '\'']) : escapeChar char = [char] := by
  unfold escapeChar
  split <;> simp_all

theorem unescape_escape (text : List Char) : unescape (escape text) = text := by
  induction text with
  | nil => rfl
  | cons char text ih =>
    have split : escape (char :: text) = escapeChar char ++ escape text := rfl
    rw [split]
    by_cases special : char ∈ ['&', '<', '>', '"', '\'']
    · simp only [List.mem_cons, List.not_mem_nil, or_false] at special
      rcases special with rfl | rfl | rfl | rfl | rfl <;> simp [escapeChar, unescape, ih]
    · have plain : char ≠ '&' := fun same => special (by simp [same])
      rw [escapeChar_of_plain special, List.singleton_append, unescape_cons plain, ih]

theorem plain_of_mem_escape {text : List Char} {char : Char} (member : char ∈ escape text) :
    char ≠ '<' ∧ char ≠ '"' := by
  obtain ⟨source, _, member⟩ := List.mem_flatMap.mp member
  by_cases special : source ∈ ['&', '<', '>', '"', '\'']
  · simp only [List.mem_cons, List.not_mem_nil, or_false] at special
    rcases special with rfl | rfl | rfl | rfl | rfl <;>
      simp only [escapeChar, List.mem_cons, List.not_mem_nil, or_false] at member <;>
      rcases member with rfl | rfl | rfl | rfl | rfl | rfl <;> decide
  · rw [escapeChar_of_plain special, List.mem_singleton] at member
    subst member
    simp only [List.mem_cons, not_or] at special
    exact ⟨special.2.1, special.2.2.2.1⟩

/-! ### Tags and texts -/

def IsName (name : String) : Prop :=
  name.toList ≠ [] ∧ ∀ char ∈ name.toList, char ∉ [' ', '/', '>', '=']

/-- What remains of markup when it has been written: all but empty texts. -/
def shown (markup : List Markup) : List Markup :=
  markup.filter (· ≠ .text "")

theorem shown_append (left right : List Markup) :
    shown (left ++ right) = shown left ++ shown right :=
  List.filter_append left right

/-- Markup that scans back from between two tags, whatever stands behind it. -/
def Scans (markup : List Markup) : Prop :=
  ∀ rest, (ScanMode.text []).scan (markup.flatMap Markup.chars ++ rest) =
    ((ScanMode.text []).scan rest).map (shown markup ++ ·)

theorem Scans.nil : Scans [] := by
  intro rest
  simp [shown]

theorem Scans.append {left right : List Markup} (first : Scans left) (second : Scans right) :
    Scans (left ++ right) := by
  intro rest
  rw [List.flatMap_append, List.append_assoc, first, second, Option.map_map, shown_append]
  simp [Function.comp_def]

private theorem scan_attribute (tag : String) (attributes : List Attribute) (entry : Attribute)
    (named : IsName entry.name) (rest : List Char) :
    (ScanMode.between tag attributes).scan (Markup.attributeChars entry ++ rest) =
      (ScanMode.between tag (attributes ++ [entry])).scan rest := by
  have written : Markup.attributeChars entry ++ rest =
      ' ' :: (entry.name.toList ++ '=' :: '"' :: (escape entry.value.toList ++ '"' :: rest)) := by
    simp [Markup.attributeChars]
  have collectsName : ∀ collected, ∀ char ∈ entry.name.toList,
      (ScanMode.attributeName tag attributes collected).step char =
        some (.attributeName tag attributes (collected ++ [char]), []) := by
    intro collected char member
    have plain : char ≠ '=' := fun same => named.2 char member (by simp [same])
    simp [step, plain]
  have collectsValue : ∀ collected, ∀ char ∈ escape entry.value.toList,
      (ScanMode.value tag attributes entry.name collected).step char =
        some (.value tag attributes entry.name (collected ++ [char]), []) := by
    intro collected char member
    simp [step, (plain_of_mem_escape member).2]
  calc (ScanMode.between tag attributes).scan (Markup.attributeChars entry ++ rest)
      = (ScanMode.attributeName tag attributes []).scan
          (entry.name.toList ++ '=' :: '"' :: (escape entry.value.toList ++ '"' :: rest)) := by
        rw [written, scan_of_step (by rfl)]
    _ = (ScanMode.quote tag attributes entry.name).scan
          ('"' :: (escape entry.value.toList ++ '"' :: rest)) := by
        rw [scan_collect (ScanMode.attributeName tag attributes) _ collectsName,
          scan_of_step (by rfl), List.nil_append, String.ofList_toList]
    _ = (ScanMode.value tag attributes entry.name (escape entry.value.toList)).scan
          ('"' :: rest) := by
        rw [scan_of_step (by rfl),
          scan_collect (ScanMode.value tag attributes entry.name) _ collectsValue,
          List.nil_append]
    _ = (ScanMode.between tag (attributes ++ [entry])).scan rest := by
        rw [scan_of_step (by rfl), unescape_escape, String.ofList_toList]

private theorem scan_attributes (tag : String) (attributes entries : List Attribute)
    (named : ∀ entry ∈ entries, IsName entry.name) (rest : List Char) :
    (ScanMode.between tag attributes).scan (entries.flatMap Markup.attributeChars ++ rest) =
      (ScanMode.between tag (attributes ++ entries)).scan rest := by
  induction entries generalizing attributes with
  | nil => simp
  | cons entry entries ih =>
    rw [List.flatMap_cons, List.append_assoc,
      scan_attribute tag attributes entry (named entry List.mem_cons_self),
      ih _ fun later member => named later (List.mem_cons_of_mem _ member)]
    simp

private theorem scan_startName (name : List Char) {char : Char} (ends : char ∈ [' ', '/', '>'])
    (rest : List Char) : (ScanMode.startName name).scan (char :: rest) =
      (ScanMode.between (String.ofList name) []).scan (char :: rest) := by
  have same : (ScanMode.startName name).step char =
      (ScanMode.between (String.ofList name) []).step char := by
    simp only [List.mem_cons, List.not_mem_nil, or_false] at ends
    rcases ends with rfl | rfl | rfl <;> rfl
  rw [scan_cons, scan_cons, same]

/-- From an opening bracket to the end of the attributes. -/
private theorem scan_front {name : String} (named : IsName name) (entries : List Attribute)
    (entriesNamed : ∀ entry ∈ entries, IsName entry.name) {next : Char}
    (ends : next ∈ [' ', '/', '>']) (rest : List Char) :
    ScanMode.front.scan (name.toList ++ (entries.flatMap Markup.attributeChars ++ next :: rest)) =
      (ScanMode.between name entries).scan (next :: rest) := by
  obtain ⟨nonempty, plain⟩ := named
  obtain ⟨first, others, split⟩ := List.exists_cons_of_ne_nil nonempty
  have collects : ∀ collected, ∀ char ∈ others,
      (ScanMode.startName collected).step char =
        some (.startName (collected ++ [char]), []) := by
    intro collected char member
    have ordinary := plain char (by simp [split, member])
    have stays : goOn (String.ofList collected) [] char = none := by
      unfold goOn
      split <;> simp_all
    simp [step, stays]
  have opened : ScanMode.front.step first = some (.startName [first], []) := by
    have ordinary := plain first (by simp [split])
    simp only [List.mem_cons, not_or] at ordinary
    simp [step, ordinary.2.1]
  -- What ends the name is the blank before an attribute, or what ends the tag.
  obtain ⟨end_, later, behind, ending⟩ : ∃ end_ later,
      entries.flatMap Markup.attributeChars ++ next :: rest = end_ :: later ∧
        end_ ∈ [' ', '/', '>'] := by
    cases entries with
    | nil => exact ⟨next, rest, rfl, ends⟩
    | cons entry entries => exact ⟨' ', _, rfl, by simp⟩
  have restored : String.ofList ([first] ++ others) = name := by
    rw [List.singleton_append, ← split, String.ofList_toList]
  rw [split, List.cons_append, scan_of_step opened, scan_collect ScanMode.startName _ collects,
    behind, scan_startName _ ending, ← behind, restored,
    scan_attributes name [] entries entriesNamed, List.nil_append]

theorem scans_start {name : String} (named : IsName name) {attributes : List Attribute}
    (entriesNamed : ∀ entry ∈ attributes, IsName entry.name) : Scans [.start name attributes] := by
  intro rest
  have written : [Markup.start name attributes].flatMap Markup.chars ++ rest = '<' ::
      (name.toList ++ (attributes.flatMap Markup.attributeChars ++ '>' :: rest)) := by
    simp [Markup.chars]
  rw [written, scan_of_step (by rfl), scan_front named attributes entriesNamed (by simp), scan_cons]
  rfl

theorem scans_empty {name : String} (named : IsName name) {attributes : List Attribute}
    (entriesNamed : ∀ entry ∈ attributes, IsName entry.name) : Scans [.empty name attributes] := by
  intro rest
  have written : [Markup.empty name attributes].flatMap Markup.chars ++ rest = '<' ::
      (name.toList ++ (attributes.flatMap Markup.attributeChars ++ '/' :: '>' :: rest)) := by
    simp [Markup.chars]
  rw [written, scan_of_step (by rfl), scan_front named attributes entriesNamed (by simp),
    scan_of_step (by rfl), scan_cons]
  rfl

theorem scans_finish {name : String} (named : IsName name) : Scans [.finish name] := by
  intro rest
  have collects : ∀ collected, ∀ char ∈ name.toList,
      (ScanMode.finishName collected).step char =
        some (.finishName (collected ++ [char]), []) := by
    intro collected char member
    have plain : char ≠ '>' := fun same => named.2 char member (by simp [same])
    simp [step, plain]
  have written : [Markup.finish name].flatMap Markup.chars ++ rest =
      '<' :: '/' :: (name.toList ++ '>' :: rest) := by
    simp [Markup.chars]
  rw [written, scan_of_step (by rfl), scan_of_step (by rfl),
    scan_collect ScanMode.finishName _ collects, scan_cons, List.nil_append]
  simp [step, String.ofList_toList, shown]

theorem textTokens_escape (content : String) :
    textTokens (escape content.toList) = shown [.text content] := by
  by_cases empty : content = ""
  · subst empty
    rfl
  · have nonempty : escape content.toList ≠ [] := by
      intro same
      have restored := unescape_escape content.toList
      rw [same] at restored
      exact empty (String.toList_eq_nil_iff.mp restored.symm)
    simp [textTokens, nonempty, unescape_escape, shown, empty]

/-- A text scans back if a tag stands behind it; otherwise it would run on. -/
theorem scans_text_finish (content : String) {name : String} (named : IsName name) :
    Scans [.text content, .finish name] := by
  intro rest
  have collects : ∀ collected, ∀ char ∈ escape content.toList,
      (ScanMode.text collected).step char = some (.text (collected ++ [char]), []) := by
    intro collected char member
    simp [step, (plain_of_mem_escape member).1]
  have finished := scans_finish named rest
  have tag : [Markup.finish name].flatMap Markup.chars ++ rest =
      '<' :: '/' :: (name.toList ++ '>' :: rest) := by
    simp [Markup.chars]
  have written : [Markup.text content, .finish name].flatMap Markup.chars ++ rest =
      escape content.toList ++ '<' :: '/' :: (name.toList ++ '>' :: rest) := by
    simp [Markup.chars]
  have split : [Markup.text content, .finish name] = [.text content] ++ [.finish name] := rfl
  rw [tag, scan_of_step (by rfl)] at finished
  rw [written, scan_collect ScanMode.text _ collects, List.nil_append, scan_cons, split,
    shown_append, ← textTokens_escape]
  simp only [step, if_true, Option.bind_some, finished, Option.map_map, Function.comp_def,
    List.append_assoc]

end TraceChart.Svg
