import Schemata.Text.Blank
import Schemata.Text.Case
import Schemata.Text.Word

/-!
# Names

Labels of entities and attributes become lower-case identifiers whose words are joined by
underscores. `snakeCase` does the conversion; `tableName` and `columnName` make the result usable
as an identifier, and `uniqueName` keeps names of one schema apart.

`uniqueName` tries one candidate more than there are taken names, so the search always succeeds.
-/

namespace Schemata

/-- The name of a table whose entity has no usable name. -/
def unnamedTable : String := "unnamed_table"

/-- The name of a column whose attribute has no usable name. -/
def unnamedColumn : String := "unnamed_column"

/-- The name of a relationship attribute that has neither name nor description. -/
def unnamedAttribute : String := "unnamed_attribute"

/-- `snakeCase` on the characters of a label. -/
def snakeChars (label : List Char) : List Char :=
  let spaced := Text.replaceRuns Text.isBlank '_' (Text.lower (Text.splitCamel (Text.strip label)))
  Text.trim (· == '_') (Text.replaceRuns (· == '_') '_' (spaced.filter Text.isSnake))

/-- The words of a label in lower case, joined by single underscores. A word ends at a blank, at an
underscore, and where an upper-case letter follows a lower-case one; characters other than ASCII
letters, digits and underscores are dropped. -/
def snakeCase (label : String) : String :=
  String.ofList (snakeChars label.toList)

/-- Puts an underscore in front of a name that starts with a digit. -/
def guardDigit (name : String) : String :=
  match name.toList with
  | c :: _ => if c.isDigit then "_" ++ name else name
  | [] => name

/-- The snake-case identifier for a label, or `fallback` if nothing of the label remains. -/
def identifierFor (fallback : String) (label : Option String) : String :=
  let name := snakeCase (label.getD "")
  if name.isEmpty then fallback else guardDigit name

/-- The table name for the label of an entity. -/
def tableName (label : Option String) : String :=
  identifierFor unnamedTable label

/-- The column name for the label of an attribute. -/
def columnName (label : Option String) : String :=
  identifierFor unnamedColumn label

/-- The name of the column that refers to a table. -/
def foreignKeyName (table : String) : String :=
  String.ofList (Text.lower table.toList) ++ "_id"

/-- A candidate name with a number behind it. -/
def numbered (candidate : String) (n : Nat) : String :=
  candidate ++ "_" ++ toString n

/-- The candidate if it is free, and otherwise the candidate with the least number from 2 on that
makes it free. -/
def uniqueName (candidate : String) (taken : List String) : String :=
  if candidate ∈ taken then
    let numbers := (List.range (taken.length + 1)).map (· + 2)
    match numbers.find? fun n => numbered candidate n ∉ taken with
    | some n => numbered candidate n
    | none => candidate
  else candidate

theorem uniqueName_of_not_mem {candidate : String} {taken : List String} (h : candidate ∉ taken) :
    uniqueName candidate taken = candidate := by
  simp [uniqueName, h]

example : uniqueName "order" ["order", "order_2"] = "order_3" := by decide +kernel

end Schemata
