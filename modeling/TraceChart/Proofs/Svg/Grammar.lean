import TraceChart.Proofs.Svg.Scanning
import TraceChart.Text.Ranges

/-!
# Well-formed documents

The part of XML 1.0 that charts need: one element, which may hold others, with character data and
references to the five predefined entities in between; attributes stand in double quotes, and no tag
has two of one name. There are no declarations, comments, sections or instructions. Which characters
a document may hold is left open, so that it can be said of a document that it is well formed but
for its characters.
-/

namespace TraceChart.Xml

/-! ### Characters and names -/

/-- The code points of the production Char. -/
def charRanges : List (Nat × Nat) :=
  [(0x9, 0xA), (0xD, 0xD), (0x20, 0xD7FF), (0xE000, 0xFFFD), (0x10000, 0x10FFFF)]

def isChar (char : Char) : Bool :=
  inRanges charRanges char.toNat

/-- The code points of the production NameStartChar. -/
def nameStartRanges : List (Nat × Nat) :=
  [(0x3A, 0x3A), (0x41, 0x5A), (0x5F, 0x5F), (0x61, 0x7A), (0xC0, 0xD6), (0xD8, 0xF6),
    (0xF8, 0x2FF), (0x370, 0x37D), (0x37F, 0x1FFF), (0x200C, 0x200D), (0x2070, 0x218F),
    (0x2C00, 0x2FEF), (0x3001, 0xD7FF), (0xF900, 0xFDCF), (0xFDF0, 0xFFFD), (0x10000, 0xEFFFF)]

/-- What the production NameChar has beside those. -/
def nameRestRanges : List (Nat × Nat) :=
  [(0x2D, 0x2E), (0x30, 0x39), (0xB7, 0xB7), (0x300, 0x36F), (0x203F, 0x2040)]

def isNameChar (char : Char) : Bool :=
  inRanges nameStartRanges char.toNat || inRanges nameRestRanges char.toNat

def isName : List Char → Bool
  | [] => false
  | first :: rest => inRanges nameStartRanges first.toNat && rest.all isNameChar

theorem isChar_of_isNameChar {char : Char} (known : isNameChar char = true) :
    isChar char = true := by
  simp only [isNameChar, inRanges, nameStartRanges, nameRestRanges, List.any_cons, List.any_nil,
    Bool.or_eq_true, decide_eq_true_eq, Bool.or_false] at known
  simp only [isChar, inRanges, charRanges, List.any_cons, List.any_nil, Bool.or_eq_true,
    decide_eq_true_eq, Bool.or_false]
  omega

theorem all_isChar_of_isName {name : List Char} (named : isName name = true) :
    name.all isChar = true := by
  cases name with
  | nil => cases named
  | cons first rest =>
    rw [isName, Bool.and_eq_true, List.all_eq_true] at named
    rw [List.all_cons, Bool.and_eq_true, List.all_eq_true]
    refine ⟨isChar_of_isNameChar ?_, fun char member => isChar_of_isNameChar (named.2 char member)⟩
    rw [isNameChar, named.1, Bool.true_or]

/-! ### Documents -/

/-- The names of the predefined entities. -/
def entities : List String :=
  ["amp", "lt", "gt", "quot", "apos"]

/-- Characters that stand for themselves, and references. -/
inductive Data (allowed : Char → Prop) (excluded : List Char) : List Char → Prop
  | nil : Data allowed excluded []
  | char {char : Char} {rest : List Char} (known : allowed char) (plain : char ∉ excluded)
      (later : Data allowed excluded rest) : Data allowed excluded (char :: rest)
  | reference {name : String} {rest : List Char} (known : name ∈ entities)
      (later : Data allowed excluded rest) :
      Data allowed excluded (['&'] ++ name.toList ++ [';'] ++ rest)

structure Attribute where
  name : List Char
  value : List Char

def Attribute.chars (entry : Attribute) : List Char :=
  [' '] ++ entry.name ++ ['=', '"'] ++ entry.value ++ ['"']

/-- What a tag says: a name, and attributes with distinct names. -/
structure Tag (allowed : Char → Prop) (name : List Char) (attributes : List Attribute) : Prop where
  named : isName name = true
  keyed : ∀ entry ∈ attributes, isName entry.name = true
  distinct : (attributes.map Attribute.name).Nodup
  values : ∀ entry ∈ attributes, Data allowed ['<', '&', '"'] entry.value

/-- A tag without its end. -/
def front (name : List Char) (attributes : List Attribute) : List Char :=
  ['<'] ++ name ++ attributes.flatMap Attribute.chars

def endTag (name : List Char) : List Char :=
  ['<', '/'] ++ name ++ ['>']

/-- What may stand inside an element. A greater-than sign must not stand behind two square brackets,
so it does not stand for itself at all. -/
inductive Content (allowed : Char → Prop) : List Char → Prop
  | nil : Content allowed []
  | data {data rest : List Char} (written : Data allowed ['<', '&', '>'] data)
      (later : Content allowed rest) : Content allowed (data ++ rest)
  | empty {name rest : List Char} {attributes : List Attribute}
      (tag : Tag allowed name attributes) (later : Content allowed rest) :
      Content allowed (front name attributes ++ ['/', '>'] ++ rest)
  | element {name inside rest : List Char} {attributes : List Attribute}
      (tag : Tag allowed name attributes) (within : Content allowed inside)
      (later : Content allowed rest) :
      Content allowed (front name attributes ++ ['>'] ++ inside ++ endTag name ++ rest)

/-- A document is one element. -/
def Document (allowed : Char → Prop) (text : List Char) : Prop :=
  ∃ name attributes inside, Tag allowed name attributes ∧ Content allowed inside ∧
    text = front name attributes ++ ['>'] ++ inside ++ endTag name

def WellFormed (text : String) : Prop :=
  Document (fun char => isChar char = true) text.toList

theorem Content.append {allowed : Char → Prop} {left right : List Char}
    (first : Content allowed left) (second : Content allowed right) :
    Content allowed (left ++ right) := by
  induction first with
  | nil => exact second
  | data written _ ih =>
    rw [List.append_assoc]
    exact .data written ih
  | empty tag _ ih =>
    rw [List.append_assoc]
    exact .empty tag ih
  | element tag within _ _ ih =>
    rw [List.append_assoc]
    exact .element tag within ih

/-! ### The characters of a document -/

section Characters

variable {allowed : Char → Prop} (known : ∀ char, isChar char = true → allowed char)
include known

theorem all_of_isChar {text : List Char} (each : text.all isChar = true) :
    ∀ char ∈ text, allowed char :=
  fun char member => known char (List.all_eq_true.mp each char member)

theorem Data.all {excluded data : List Char} (written : Data allowed excluded data) :
    ∀ char ∈ data, allowed char := by
  have names : ∀ name ∈ entities, name.toList.all isChar = true := by decide +kernel
  induction written with
  | nil => exact List.forall_mem_nil _
  | char permitted _ _ ih => exact List.forall_mem_cons.mpr ⟨permitted, ih⟩
  | reference listed _ ih =>
    simp only [List.forall_mem_append]
    exact ⟨⟨⟨all_of_isChar known rfl, all_of_isChar known (names _ listed)⟩,
      all_of_isChar known rfl⟩, ih⟩

theorem Tag.all {name : List Char} {attributes : List Attribute}
    (tag : Tag allowed name attributes) : ∀ char ∈ front name attributes, allowed char := by
  simp only [front, List.forall_mem_append]
  refine ⟨⟨all_of_isChar known rfl, all_of_isChar known (all_isChar_of_isName tag.named)⟩, ?_⟩
  rw [List.forall_mem_flatMap]
  intro entry listed
  simp only [Attribute.chars, List.forall_mem_append]
  exact ⟨⟨⟨⟨all_of_isChar known rfl,
    all_of_isChar known (all_isChar_of_isName (tag.keyed entry listed))⟩,
    all_of_isChar known rfl⟩, (tag.values entry listed).all known⟩, all_of_isChar known rfl⟩

theorem all_endTag {name : List Char} (named : isName name = true) :
    ∀ char ∈ endTag name, allowed char := by
  simp only [endTag, List.forall_mem_append]
  exact ⟨⟨all_of_isChar known rfl, all_of_isChar known (all_isChar_of_isName named)⟩,
    all_of_isChar known rfl⟩

theorem Content.all {text : List Char} (content : Content allowed text) :
    ∀ char ∈ text, allowed char := by
  induction content with
  | nil => exact List.forall_mem_nil _
  | data written _ ih => exact List.forall_mem_append.mpr ⟨written.all known, ih⟩
  | empty tag _ ih =>
    simp only [List.forall_mem_append]
    exact ⟨⟨tag.all known, all_of_isChar known rfl⟩, ih⟩
  | element tag _ _ within later =>
    simp only [List.forall_mem_append]
    exact ⟨⟨⟨⟨tag.all known, all_of_isChar known rfl⟩, within⟩, all_endTag known tag.named⟩, later⟩

/-- All characters of a document are allowed, those of its tags included. -/
theorem Document.all {text : List Char} (document : Document allowed text) :
    ∀ char ∈ text, allowed char := by
  obtain ⟨name, attributes, inside, tag, content, rfl⟩ := document
  simp only [List.forall_mem_append]
  exact ⟨⟨⟨tag.all known, all_of_isChar known rfl⟩, content.all known⟩, all_endTag known tag.named⟩

end Characters

end TraceChart.Xml
