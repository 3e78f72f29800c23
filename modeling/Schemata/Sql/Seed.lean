import Schemata.Notice
import Schemata.Schema.Lookup
import Schemata.Sql.ColumnType
import Schemata.Text.Blank
import Schemata.Text.Word

/-!
# Values of lookup tables

A lookup table whose name tells what it is for gets its usual values. They are put into the column
for names, the column for codes, or both; all other columns have to take care of themselves.
-/

namespace Schemata.Sql

/-- The usual values by the word in the name of their table. -/
def seedValues : List (String × List String) :=
  [("status", ["Active", "Inactive", "Pending"]),
   ("type", ["Standard", "Other"]),
   ("category", ["General", "Other"]),
   ("state", ["Draft", "Active", "Archived"]),
   ("priority", ["Low", "Medium", "High"]),
   ("role", ["Admin", "User", "Guest"]),
   ("permission", ["Read", "Write", "Admin"]),
   ("gender", ["Female", "Male", "Other"]),
   ("country", ["United States", "United Kingdom", "Canada"]),
   ("language", ["English", "Spanish", "French"])]

/-- Rows to be put into a table. -/
structure Seed where
  /-- The table. -/
  table : String
  /-- The columns that get values. -/
  columns : List String
  /-- The rows, each with a value for every one of the columns. -/
  rows : List (List String)
deriving DecidableEq, Repr

/-- Why a lookup table gets no values. -/
inductive SeedObstacle where
  /-- The primary key does not come by itself. -/
  | key
  /-- A column neither has a default nor may be left open. -/
  | column (name : String)
deriving DecidableEq, Repr

/-- The code of a value: its words in capitals, joined by underscores. -/
def seedCode (value : String) : String :=
  String.ofList (Text.upper (Text.replaceRuns (fun c => !Text.isWord c) '_' value.toList))

namespace Seed

/-- The values for the name of a table. -/
def valuesFor (table : String) : List String :=
  ((lookupKeyword? table lookupKeywords).bind (List.lookup · seedValues)).getD []

/-- The columns of a table that get values. -/
def targets (t : Table) : List String :=
  t.nameColumn?.toList ++ t.codeColumn?.toList

/-- What keeps a table from getting values. -/
def obstacle? (t : Table) : Option SeedObstacle :=
  if !t.keyColumns.any t.isGeneratedKey then some .key
  else
    let blocking := t.columns.find? fun c =>
      !c.isPrimaryKey && !(targets t).contains c.name && !c.isNullable && c.defaultValue.isNone
    blocking.map fun c => .column c.name

/-- The row for a value: the value itself for names, its code for codes. -/
def row (t : Table) (value : String) : List String :=
  (t.nameColumn?.map fun _ => value).toList ++ (t.codeColumn?.map fun _ => seedCode value).toList

/-- The rows for a lookup table, and what is told if it should get some and cannot. -/
def of (t : Table) : Option Seed × List Notice :=
  let values := valuesFor t.name
  if values.isEmpty || (targets t).isEmpty then (none, [])
  else match obstacle? t with
    | some .key =>
      (none, [.warning s!"Skipping seed data for {t.name}: primary key is not generated"])
    | some (.column name) =>
      (none, [.warning
        s!"Skipping seed data for {t.name}: column {name} is NOT NULL without a default"])
    | none => (some ⟨t.name, targets t, values.map (row t)⟩, [])

end Seed

end Schemata.Sql
