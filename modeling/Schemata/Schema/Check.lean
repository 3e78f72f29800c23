import Schemata.Json.Basic
import Schemata.Notice
import Schemata.Schema.Basic

/-!
# Checking schemas

`Schema.issues` lists what is amiss in a schema: names that repeat, tables without a key, foreign
keys that lead nowhere, and relationships whose tables do not exist. Some of these are blocking:
a script for the schema would refer to nothing (`Schema.check`).

Where several tables share a name, references to the name mean the last of them.
-/

namespace Schemata

/-- A side of a relationship. -/
inductive Side where
  /-- The source. -/
  | source
  /-- The target. -/
  | target
deriving DecidableEq, Repr

/-- The word for a side. -/
def Side.word : Side → String
  | .source => "source"
  | .target => "target"

/-- What can be amiss in a schema. -/
inductive Issue where
  /-- Several tables share a name. -/
  | repeatedTable (table : String) (count : Nat)
  /-- A table has no primary key. -/
  | missingKey (table : String)
  /-- Several columns of a table share a name. -/
  | repeatedColumn (table column : String) (count : Nat)
  /-- A foreign key has no reference. -/
  | missingReference (table column : String)
  /-- A foreign key refers to a table that does not exist. -/
  | unknownTable (table column : String) (reference : Reference)
  /-- A foreign key refers to a column that does not exist. -/
  | unknownColumn (table column : String) (reference : Reference)
  /-- A side of a relationship is a table that does not exist. -/
  | unknownSide (relationship : String) (side : Side) (table : String)
  /-- A many-to-many relationship that is to become a table has a side that does not exist. -/
  | unjoinable (relationship table : String)
deriving DecidableEq, Repr

namespace Issue

/-- The part of the work in which the issue shows. -/
def stage : Issue → String
  | .unjoinable .. => "SQL"
  | _ => "Schema"

/-- A short word for the kind of issue. -/
def code : Issue → String
  | .repeatedTable .. => "DUPLICATE_TABLE"
  | .missingKey .. => "MISSING_PK"
  | .repeatedColumn .. => "DUPLICATE_COLUMN"
  | .missingReference .. => "FK_MISSING_REFERENCE"
  | .unknownTable .. => "FK_REF_TABLE_MISSING"
  | .unknownColumn .. => "FK_REF_COL_MISSING"
  | .unknownSide .. => "REL_TABLE_MISSING"
  | .unjoinable .. => "REL_TABLE_MISSING"

/-- Where the issue is. -/
def location : Issue → String
  | .repeatedTable table _ => table
  | .missingKey table => table
  | .repeatedColumn table column _ => table ++ "." ++ column
  | .missingReference table column => table ++ "." ++ column
  | .unknownTable table column _ => table ++ "." ++ column
  | .unknownColumn table column _ => table ++ "." ++ column
  | .unknownSide relationship .. => relationship
  | .unjoinable relationship _ => relationship

/-- The issue in a sentence. -/
def message (issue : Issue) : String :=
  match issue with
  | .repeatedTable table count => s!"{table}: table defined {count} times"
  | .missingKey table => s!"{table}: missing primary key"
  | .repeatedColumn table column count => s!"{table}: column '{column}' defined {count} times"
  | .missingReference .. => s!"{issue.location}: foreign key without a reference"
  | .unknownTable _ _ reference =>
    s!"{issue.location}: references missing table '{reference.table}'"
  | .unknownColumn _ _ reference =>
    s!"{issue.location}: references missing column '{reference.table}.{reference.column}'"
  | .unknownSide relationship side table =>
    s!"relationship '{relationship}': {side.word} table '{table}' does not exist"
  | .unjoinable relationship table =>
    s!"many-to-many relationship '{relationship}' references missing table '{table}'"

/-- The names in the issue, each with what it stands for. -/
def details : Issue → Json.Members
  | .repeatedTable table count => [("table", .text table), ("count", .integer count)]
  | .missingKey table => [("table", .text table)]
  | .repeatedColumn table column _ => [("table", .text table), ("column", .text column)]
  | .missingReference table column => [("table", .text table), ("column", .text column)]
  | .unknownTable table _ reference =>
    [("table", .text table), ("ref_table", .text reference.table)]
  | .unknownColumn table _ reference =>
    [("table", .text table), ("ref_table", .text reference.table),
     ("ref_column", .text reference.column)]
  | .unknownSide relationship side table =>
    [("relationship", .text relationship), ("side", .text side.word), ("table", .text table)]
  | .unjoinable relationship table =>
    [("relationship", .text relationship), ("table", .text table)]

/-- The document of an issue. -/
def toJson (issue : Issue) : Json.Value :=
  .object
    [("stage", .text issue.stage), ("code", .text issue.code),
     ("location", .text issue.location), ("message", .text issue.message),
     ("details", .object issue.details)]

/-- Whether a script for the schema would refer to nothing. -/
def isBlocking : Issue → Bool
  | .repeatedTable .. => false
  | .missingKey .. => false
  | .repeatedColumn .. => false
  | .missingReference .. => true
  | .unknownTable .. => true
  | .unknownColumn .. => true
  | .unknownSide .. => true
  | .unjoinable .. => true

end Issue

/-- The names that occur more than once, in the order of their first occurrence, with their number
of occurrences. -/
def repeated (names : List String) : List (String × Nat) :=
  (names.eraseDups.map fun name => (name, names.count name)).filter (1 < ·.2)

/-- What is amiss with a foreign key: the first reason that applies. -/
def Column.referenceIssue? (tables : List Table) (table : String) (c : Column) : Option Issue :=
  if c.isForeignKey then
    match c.references with
    | none => some (.missingReference table c.name)
    | some reference =>
      match tables.reverse.find? (·.name == reference.table) with
      | none => some (.unknownTable table c.name reference)
      | some target =>
        if target.hasColumn reference.column then none
        else some (.unknownColumn table c.name reference)
  else none

/-- What is amiss in a table, `tables` being all the tables there are. -/
def Table.issues (tables : List Table) (t : Table) : List Issue :=
  (if t.keyColumns.isEmpty then [.missingKey t.name] else [])
    ++ (repeated (t.columns.map (·.name))).map (fun (name, n) => .repeatedColumn t.name name n)
    ++ t.columns.filterMap (·.referenceIssue? tables t.name)

/-- What is amiss with the sides of a relationship, `names` being those of the tables. -/
def Relationship.issues (names : List String) (r : Relationship) : List Issue :=
  [(Side.source, r.sourceTable), (Side.target, r.targetTable)].filterMap fun (side, table) =>
    if table ∈ names then none else some (.unknownSide r.name side table)

/-- What is amiss in a schema. -/
def Schema.issues (s : Schema) : List Issue :=
  (repeated s.tableNames).map (fun (name, n) => .repeatedTable name n)
    ++ s.tables.flatMap (·.issues s.tables)
    ++ s.relationships.flatMap (·.issues s.tableNames)

/-- A schema for which no script can be written. -/
structure Violation where
  /-- The reasons, in order. -/
  issues : List Issue
deriving DecidableEq, Repr

/-- The violation in a line. -/
def Violation.message (v : Violation) : String :=
  "Schema contract violated: " ++ String.intercalate "; " (v.issues.map Issue.message)

/-- What is told of a violation that a check found. -/
def Violation.notices (v : Violation) : List Notice :=
  v.issues.map fun issue => .error issue.message

/-- Accepts a schema in which nothing is blocking. -/
def Schema.check (s : Schema) : Except Violation Unit :=
  match s.issues.filter Issue.isBlocking with
  | [] => .ok ()
  | issues => .error ⟨issues⟩

end Schemata
