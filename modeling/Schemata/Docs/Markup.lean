/-!
# Marked-up text

Marked-up text consists of tags, with attributes, and of the text between them. `Token.render` is
the only place where it becomes a string: texts and the values of attributes are escaped there, so
that none of them can act as a tag.
-/

namespace Schemata.Docs

/-- A part of marked-up text. -/
inductive Token where
  /-- Declares the kind of document. -/
  | doctype
  /-- Starts an element. -/
  | start (tag : String) (attributes : List (String × String))
  /-- Ends an element. -/
  | stop (tag : String)
  /-- A text. -/
  | text (s : String)
  /-- The rules of a style sheet, which are not escaped. -/
  | rules (s : String)
deriving DecidableEq, Repr

/-- A character that cannot act as a tag or end the value of an attribute. -/
def escapeChar (c : Char) : List Char :=
  if c = '&' then "&amp;".toList
  else if c = '<' then "&lt;".toList
  else if c = '>' then "&gt;".toList
  else if c = '"' then "&quot;".toList
  else if c = '\'' then "&#x27;".toList
  else [c]

/-- A text that cannot act as a tag or end the value of an attribute. -/
def escape (s : String) : String :=
  String.ofList (s.toList.flatMap escapeChar)

/-- The text of an attribute. -/
def renderAttribute (a : String × String) : String :=
  " " ++ a.1 ++ "=\"" ++ escape a.2 ++ "\""

/-- The text of a part. -/
def Token.render : Token → String
  | doctype => "<!DOCTYPE html>"
  | start tag attributes =>
    "<" ++ tag ++ String.join (attributes.map renderAttribute) ++ ">"
  | stop tag => "</" ++ tag ++ ">"
  | text s => escape s
  | rules s => s

/-- A line of marked-up text. -/
structure MarkupLine where
  /-- The number of blanks in front. -/
  indent : Nat
  /-- The parts. -/
  tokens : List Token
deriving DecidableEq, Repr

/-- The text of a line. -/
def MarkupLine.render (line : MarkupLine) : String :=
  String.ofList (List.replicate line.indent ' ') ++ String.join (line.tokens.map Token.render)

/-- An element with parts inside. -/
def element (tag : String) (attributes : List (String × String)) (inside : List Token) :
    List Token :=
  .start tag attributes :: inside ++ [.stop tag]

/-- An element with a text inside. -/
def textElement (tag : String) (s : String) : List Token :=
  element tag [] [.text s]

end Schemata.Docs
