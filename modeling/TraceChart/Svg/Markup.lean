/-!
Markup: tags, attributes and text, and how they are written. Attribute values and text may hold
any characters; the five that have a meaning in markup are written as entities, so nothing in a
value can open, close or alter a tag.
-/

namespace TraceChart.Svg

/-- A character as it stands in an attribute value or in text. -/
def escapeChar (char : Char) : List Char :=
  match char with
  | '&' => ['&', 'a', 'm', 'p', ';']
  | '<' => ['&', 'l', 't', ';']
  | '>' => ['&', 'g', 't', ';']
  | '"' => ['&', 'q', 'u', 'o', 't', ';']
  | '\'' => ['&', 'a', 'p', 'o', 's', ';']
  | char => [char]

/-- Text with its special characters as entities. -/
def escape (text : List Char) : List Char :=
  text.flatMap escapeChar

structure Attribute where
  name : String
  value : String
deriving DecidableEq, Repr

inductive Markup where
  | start (name : String) (attributes : List Attribute)
  | empty (name : String) (attributes : List Attribute)
  | finish (name : String)
  | text (content : String)
deriving DecidableEq, Repr

namespace Markup

def attributeChars (entry : Attribute) : List Char :=
  ' ' :: entry.name.toList ++ ['=', '"'] ++ escape entry.value.toList ++ ['"']

def chars : Markup → List Char
  | .start name attributes =>
    '<' :: name.toList ++ attributes.flatMap attributeChars ++ ['>']
  | .empty name attributes =>
    '<' :: name.toList ++ attributes.flatMap attributeChars ++ ['/', '>']
  | .finish name => ['<', '/'] ++ name.toList ++ ['>']
  | .text content => escape content.toList

/-- A sequence of tags and texts as one text. -/
def write (markup : List Markup) : String :=
  String.ofList (markup.flatMap chars)

end Markup

end TraceChart.Svg
