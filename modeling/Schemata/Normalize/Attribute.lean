import Schemata.Extraction.Basic
import Schemata.Schema.Key

/-!
# Columns for attributes

`Extraction.Attribute.column` is the column of a table for an attribute of its entity, and
`Extraction.Attribute.relationshipColumn` the column for an attribute of a relationship. A type
that is not given is told by the name.
-/

namespace Schemata.Extraction

/-- A text, if it is not empty. -/
def given? (text : Option String) : Option String :=
  text.filter (!·.isEmpty)

/-- The type that is given, blanks around it removed, or the one that the name of the column
suggests. -/
def typeFor (given : Option String) (column : String) : String :=
  let type := String.ofList (Text.strip (given.getD "").toList)
  if type.isEmpty then inferType column else type

namespace Attribute

/-- The column for an attribute of an entity. -/
def column (a : Attribute) : Column :=
  let name := columnName a.name
  { name
    dataType := typeFor a.dataType name
    isPrimaryKey := a.isPrimaryKey
    isForeignKey := a.isForeignKey
    isNullable := a.isNullable != some false && !a.isPrimaryKey
    isUnique := a.isUnique || a.isPrimaryKey
    defaultValue := a.defaultValue
    description := (given? a.description).getD ((given? a.name).getD "Field" ++ " column") }

/-- The number of characters up to which a description serves as a name. -/
def nameLengthLimit : Nat := 30

/-- A name taken from a description. -/
def nameFromDescription (description : String) : String :=
  let start := (snakeChars description.toList).take nameLengthLimit
  String.ofList (Text.trim (· == '_') start)

/-- The label of an attribute of a relationship: its name or, if it has none, the beginning of its
description. -/
def label? (a : Attribute) : Option String :=
  given? ((given? a.name).or ((given? a.description).map nameFromDescription))

/-- The column for an attribute of a relationship. -/
def relationshipColumn (a : Attribute) : Column :=
  let name := match a.label? with
    | some label => columnName (some label)
    | none => unnamedAttribute
  { name
    dataType := typeFor a.dataType name
    isPrimaryKey := a.isPrimaryKey
    isNullable := a.isNullable != some false
    isUnique := a.isUnique
    defaultValue := a.defaultValue
    description := (given? a.description).getD (a.label?.getD "Unnamed" ++ " attribute") }

end Attribute

end Schemata.Extraction
