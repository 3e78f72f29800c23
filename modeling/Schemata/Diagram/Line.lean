/-!
# Lines of a diagram

The source of an entity-relationship diagram consists of lines. `Line.Content` says what a line can
be: the opening of an entity, one of its attributes, its end, a relationship between two entities,
and a few others. `Line.Content.render` writes a line in its canonical form, without the blanks in
front.

Texts inside of lines are lists of characters, as they are read and written character by character.
-/

namespace Schemata.Diagram

/-- What stands at an end of a relationship. -/
inductive Symbol where
  /-- Exactly one. -/
  | one
  /-- None or one, on the left. -/
  | optionalLeft
  /-- None or one, on the right. -/
  | optionalRight
  /-- Any number, on the left. -/
  | manyLeft
  /-- Any number, on the right. -/
  | manyRight
  /-- One or more, on the left. -/
  | someLeft
  /-- One or more, on the right. -/
  | someRight
deriving DecidableEq, Repr

/-- The two characters of a symbol. -/
def Symbol.chars : Symbol → List Char
  | one => ['|', '|']
  | optionalLeft => ['|', 'o']
  | optionalRight => ['o', '|']
  | manyLeft => ['\x7d', 'o']
  | manyRight => ['o', '\x7b']
  | someLeft => ['\x7d', '|']
  | someRight => ['|', '\x7b']

/-- What an attribute is to the key of its entity. -/
inductive Mark where
  /-- Part of the primary key. -/
  | primary
  /-- A foreign key. -/
  | foreign
  /-- A key of its own. -/
  | unique
deriving DecidableEq, Repr

/-- The two letters of a mark. -/
def Mark.chars : Mark → List Char
  | primary => ['P', 'K']
  | foreign => ['F', 'K']
  | unique => ['U', 'K']

/-- An attribute of an entity. -/
structure Attribute where
  /-- The type. -/
  type : List Char
  /-- The name. -/
  name : List Char
  /-- What the attribute is to the key. -/
  marks : List Mark := []
  /-- A comment. -/
  comment : Option (List Char) := none
deriving DecidableEq, Repr

/-- A relationship between two entities. -/
structure Link where
  /-- The name of the entity on the left. -/
  source : List Char
  /-- The symbol on the left. -/
  left : Symbol
  /-- The symbol on the right. -/
  right : Symbol
  /-- The name of the entity on the right. -/
  target : List Char
  /-- The label. -/
  label : List Char
  /-- Whether one of the entities is identified through the other. -/
  identifying : Bool := true
deriving DecidableEq, Repr

/-- What a line is. -/
inductive Content where
  /-- The line that opens a diagram. -/
  | header
  /-- An empty line. -/
  | blank
  /-- A comment. -/
  | comment (text : List Char)
  /-- The opening of an entity. -/
  | entity (name : List Char)
  /-- An attribute. -/
  | attribute (a : Attribute)
  /-- The end of an entity. -/
  | close
  /-- A relationship. -/
  | link (l : Link)
  /-- Anything else. -/
  | unknown (text : List Char)
deriving DecidableEq, Repr

/-- A line as it was read. -/
structure Line where
  /-- What it is. -/
  content : Content
  /-- The text of which it was made. -/
  text : List Char
  /-- The number of the line of the source, from 1. -/
  number : Nat
deriving DecidableEq, Repr

/-- The word that opens a diagram. -/
def headerText : List Char := "erDiagram".toList

/-- The marks that start a comment. -/
def commentStart : List Char := ['%', '%']

/-- Marks with a comma and a blank between them. -/
def renderMarks : List Mark → List Char
  | [] => []
  | [mark] => mark.chars
  | mark :: marks => mark.chars ++ [',', ' '] ++ renderMarks marks

/-- The text of an attribute. -/
def Attribute.render (a : Attribute) : List Char :=
  a.type ++ ' ' :: a.name ++ (if a.marks.isEmpty then [] else ' ' :: renderMarks a.marks)
    ++ match a.comment with
      | some comment => ' ' :: '"' :: comment ++ ['"']
      | none => []

/-- The text of a relationship. -/
def Link.render (l : Link) : List Char :=
  l.source ++ ' ' :: l.left.chars ++ (if l.identifying then ['-', '-'] else ['.', '.'])
    ++ l.right.chars ++ ' ' :: l.target ++ [' ', ':', ' ', '"'] ++ l.label ++ ['"']

/-- The text of a line in its canonical form. -/
def Content.render : Content → List Char
  | header => headerText
  | blank => []
  | comment text => text
  | entity name => name ++ [' ', '\x7b']
  | .attribute a => a.render
  | close => ['\x7d']
  | link l => l.render
  | unknown text => text

end Schemata.Diagram
