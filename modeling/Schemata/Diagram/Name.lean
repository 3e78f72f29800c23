import Schemata.Text.Blank
import Schemata.Text.Case
import Schemata.Text.Word

/-!
# Names in diagrams

A diagram names its entities and attributes with word characters in lower case. `diagramName` makes
such a name out of any label, and `entityName` keeps clear of the words that drawing programs
stumble over. `coarseType` is the type that a diagram shows for a column type.
-/

namespace Schemata.Diagram

-- the test of the core library, whatever is imported
attribute [local instance (2000)] List.instDecidableIsInfixOfDecidableEq

/-- The name for a label of which nothing remains. -/
def unnamed : String := "unnamed"

/-- The words that cannot name an entity. -/
def reservedWords : List String :=
  ["class", "break", "case", "catch", "const", "continue", "debugger", "default", "delete", "do",
   "else", "export", "extends", "finally", "for", "function", "if", "import", "in", "instanceof",
   "new", "return", "super", "switch", "this", "throw", "try", "typeof", "var", "void", "while",
   "with", "yield"]

/-- The characters of a label as a name: words apart, all else an underscore, in lower case, without
needless underscores. -/
def nameChars (label : List Char) : List Char :=
  let words := (Text.splitCamel label).map fun c => if Text.isWord c then c else '_'
  Text.trim (· == '_') (Text.replaceRuns (· == '_') '_' (Text.lower words))

/-- The name for a label. -/
def diagramName (label : String) : String :=
  let name := String.ofList (nameChars label.toList)
  if name.isEmpty then unnamed else name

/-- The name of an entity for a label. -/
def entityName (label : String) : String :=
  let name := diagramName label
  if reservedWords.contains name then name ++ "_entity" else name

/-! ## Types -/

/-- The coarse types, each with the texts in the name of a type that tell it. -/
def coarseTypes : List (String × List String) :=
  [("number", ["int", "number", "decimal", "numeric", "float", "double", "real", "serial"]),
   ("string", ["char", "text", "string", "uuid", "json", "enum"]),
   ("date", ["date", "time"]),
   ("boolean", ["bool", "bit"]),
   ("binary", ["blob", "binary", "bytea", "image"])]

/-- The type shown for a column type: that of the first text found in it. -/
def coarseType (type : String) : String :=
  let lowered := Text.lower type.toList
  match coarseTypes.find? fun (_, texts) => texts.any fun text => decide (text.toList <:+: lowered) with
  | some (coarse, _) => coarse
  | none => "string"

end Schemata.Diagram
