import TraceChart.Proofs.Svg.Scanning

/-!
# Written markup reads as a tree

A document is read as a tree of elements: an end tag closes the innermost element that is open, and
must bear its name. What is inside an element when it is written is inside the element that is
read.
-/

namespace TraceChart.Svg

/-- An element with all that it holds, or a text. -/
inductive Node where
  | element (name : String) (attributes : List Attribute) (children : List Node)
  | text (content : String)

namespace Node

def attribute? (name : String) : Node → Option String
  | .element _ attributes _ =>
    (attributes.find? fun entry => entry.name = name).map Attribute.value
  | .text _ => none

mutual

/-- The elements of a name, an element before those inside it. -/
def elements (wanted : String) : Node → List Node
  | .element name attributes children =>
    (if name = wanted then [.element name attributes children] else []) ++
      elementsOf wanted children
  | .text _ => []

def elementsOf (wanted : String) : List Node → List Node
  | [] => []
  | node :: nodes => node.elements wanted ++ elementsOf wanted nodes

end

def textOf : List Node → String
  | [] => ""
  | .text content :: nodes => content ++ textOf nodes
  | .element _ _ _ :: nodes => textOf nodes

/-- The text of a title right inside an element, which shows on pointing at the element. -/
def title? : Node → Option String
  | .element _ _ children => children.findSome? fun child =>
    match child with
    | .element name _ inner => if name = "title" then some (textOf inner) else none
    | .text _ => none
  | .text _ => none

theorem elementsOf_append (wanted : String) (left right : List Node) :
    elementsOf wanted (left ++ right) = elementsOf wanted left ++ elementsOf wanted right := by
  induction left with
  | nil => rfl
  | cons node nodes ih => rw [List.cons_append, elementsOf, elementsOf, ih, List.append_assoc]

end Node

/-- An element that is open, with the nodes before it. -/
structure OpenElement where
  name : String
  attributes : List Attribute
  before : List Node

/-- Build nodes from tags and texts, inside open elements and behind the nodes that the innermost of
them holds already. -/
def build : List OpenElement → List Node → List Markup → Option (List Node)
  | [], nodes, [] => some nodes
  | _ :: _, _, [] => none
  | opened, nodes, .text content :: markup => build opened (nodes ++ [.text content]) markup
  | opened, nodes, .empty name attributes :: markup =>
    build opened (nodes ++ [.element name attributes []]) markup
  | opened, nodes, .start name attributes :: markup =>
    build (⟨name, attributes, nodes⟩ :: opened) [] markup
  | innermost :: opened, nodes, .finish name :: markup =>
    if innermost.name = name then
      build opened (innermost.before ++ [.element name innermost.attributes nodes]) markup
    else none
  | [], _, .finish _ :: _ => none

/-- The tree of a document that consists of one element. -/
def Node.read? (text : String) : Option Node := do
  let tokens ← (ScanMode.text []).scan text.toList
  match ← build [] [] tokens with
  | [root] => some root
  | _ => none

/-- Markup that reads as these nodes, whatever stands around it. -/
structure Reads (markup : List Markup) (nodes : List Node) : Prop where
  scans : Scans markup
  builds : ∀ opened before rest,
    build opened before (shown markup ++ rest) = build opened (before ++ nodes) rest

namespace Reads

theorem nil : Reads [] [] where
  scans := .nil
  builds opened before rest := by simp [shown]

theorem append {left right : List Markup} {leftNodes rightNodes : List Node}
    (first : Reads left leftNodes) (second : Reads right rightNodes) :
    Reads (left ++ right) (leftNodes ++ rightNodes) where
  scans := first.scans.append second.scans
  builds opened before rest := by
    rw [shown_append, List.append_assoc, first.builds, second.builds, List.append_assoc]

theorem empty {name : String} (named : IsName name) {attributes : List Attribute}
    (entriesNamed : ∀ entry ∈ attributes, IsName entry.name) :
    Reads [.empty name attributes] [.element name attributes []] where
  scans := scans_empty named entriesNamed
  builds opened before rest := by simp [shown, build]

/-- An element holds what its content reads as. -/
theorem element {name : String} (named : IsName name) {attributes : List Attribute}
    (entriesNamed : ∀ entry ∈ attributes, IsName entry.name) {content : List Markup}
    {nodes : List Node} (inside : Reads content nodes) :
    Reads ([.start name attributes] ++ content ++ [.finish name])
      [.element name attributes nodes] where
  scans := ((scans_start named entriesNamed).append inside.scans).append (scans_finish named)
  builds opened before rest := by
    have split : shown ([.start name attributes] ++ content ++ [.finish name]) ++ rest =
        .start name attributes :: (shown content ++ .finish name :: rest) := by
      simp [shown]
    rw [split, build, inside.builds, List.nil_append, build, if_pos rfl]

def textNodes (content : String) : List Node :=
  if content = "" then [] else [.text content]

theorem textOf_textNodes (content : String) : Node.textOf (textNodes content) = content := by
  unfold textNodes
  split
  next empty => rw [empty]; rfl
  next => simp [Node.textOf]

/-- An element with nothing but text. -/
theorem textElement {name : String} (named : IsName name) {attributes : List Attribute}
    (entriesNamed : ∀ entry ∈ attributes, IsName entry.name) (content : String) :
    Reads [.start name attributes, .text content, .finish name]
      [.element name attributes (textNodes content)] where
  scans := (scans_start named entriesNamed).append (scans_text_finish content named)
  builds opened before rest := by
    by_cases empty : content = ""
    · simp [shown, empty, build, textNodes]
    · simp [shown, empty, build, textNodes]

theorem read? {markup : List Markup} {root : Node} (reads : Reads markup [root]) :
    Node.read? (Markup.write markup) = some root := by
  have scanned := reads.scans []
  have built := reads.builds [] [] []
  have nothing : (ScanMode.text []).scan [] = some [] := rfl
  rw [List.append_nil, nothing, Option.map_some, List.append_nil] at scanned
  rw [List.append_nil, List.nil_append] at built
  simp [Node.read?, Markup.write, scanned, built, build]

end Reads

end TraceChart.Svg
