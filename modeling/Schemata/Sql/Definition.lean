import Schemata.Schema.Order
import Schemata.Sql.ColumnType
import Schemata.Sql.DefaultValue

/-!
# Table definitions

What a script says about a table, as data: `ColumnDefinition` for a column, `ForeignKey` for a
reference, and `TableDefinition` for the table with the references that are written with it.
`TableDefinition.of` makes the definition of a table in a dialect.
-/

namespace Schemata.Sql

/-! ## Foreign keys -/

/-- A foreign key constraint. -/
structure ForeignKey where
  /-- The table that holds the reference. -/
  table : String
  /-- The column that holds the reference. -/
  column : String
  /-- The table referred to. -/
  target : String
  /-- The column referred to. -/
  targetColumn : String
  /-- What follows if the row referred to is deleted. -/
  onDelete : String
  /-- What follows if the value referred to changes. -/
  onUpdate : String
deriving DecidableEq, Repr

/-- The name of the constraint. -/
def ForeignKey.name (key : ForeignKey) : String :=
  "fk_" ++ key.table ++ "_" ++ key.column

/-- An action, nothing being done where none is named. -/
def action (word : String) : String :=
  if word.isEmpty then "NO ACTION" else word

/-- The constraint for a column of a table and its reference. -/
def ForeignKey.of (table : String) (c : Column) (r : Reference) : ForeignKey where
  table := table
  column := c.name
  target := r.table
  targetColumn := r.column
  onDelete := action r.onDelete
  onUpdate := action r.onUpdate

/-- The foreign key constraints of a table. -/
def constraints (t : Table) : List ForeignKey :=
  t.foreignKeys.map fun (c, r) => .of t.name c r

/-- The clause for a constraint. -/
def ForeignKey.clause (d : Dialect) (key : ForeignKey) : String :=
  let name := d.quoteName
  s!"CONSTRAINT {name key.name} FOREIGN KEY ({name key.column}) REFERENCES {name key.target} "
    ++ s!"({name key.targetColumn}) ON DELETE {key.onDelete} ON UPDATE {key.onUpdate}"

/-- Whether a constraint is written with its table, `deferred` being the references to later
tables. -/
def isInline (d : Dialect) (deferred : List (String × String)) (key : ForeignKey) : Bool :=
  d.hasInlineKeys && !(d.hasAddedKeys && deferred.contains (key.table, key.column))

/-! ## Columns -/

/-- A column as it is defined. -/
structure ColumnDefinition where
  /-- The name. -/
  name : String
  /-- The type in the dialect. -/
  type : String
  /-- Whether the database generates the values. -/
  isGenerated : Bool
  /-- Whether a value has to be there. -/
  isRequired : Bool
  /-- Whether no two rows agree, which the primary key does not say yet. -/
  isUnique : Bool
  /-- The value taken where none is given. -/
  default : Option DefaultValue
  /-- Whether the column holds the moment of the last change by itself. -/
  isStamped : Bool
  /-- A comment kept with the column. -/
  comment : Option String
deriving DecidableEq, Repr

/-- Whether the column of MySQL follows the changes of its row. -/
def followsChanges (c : Column) : Bool :=
  c.name == "updated_at"
    && ["TIMESTAMP", "DATETIME"].contains (DataType.ofString c.dataType).base
    && Text.upper (c.defaultValue.getD "").toList == "CURRENT_TIMESTAMP".toList

/-- The definition of a column of a table. -/
def ColumnDefinition.of (d : Dialect) (t : Table) (c : Column) :
    Except LengthError ColumnDefinition := do
  let type ← d.columnType t c
  let generated := t.isGeneratedKey c
  return {
    name := c.name
    type
    isGenerated := generated
    isRequired := !c.isNullable || c.isPrimaryKey
    isUnique := c.isUnique && !(c.isPrimaryKey && t.keyColumns.length == 1)
    default := if generated then none else c.defaultValue.map .ofText
    isStamped := d = .mysql && followsChanges c
    comment := if d = .mysql && !c.description.isEmpty then some c.description else none }

/-- The words that let a dialect number the rows. -/
def Dialect.numbering : Dialect → List String
  | mysql => ["AUTO_INCREMENT"]
  | postgresql => []
  | sqlite => ["PRIMARY KEY AUTOINCREMENT"]
  | sqlserver => ["IDENTITY(1,1)"]

/-- The text of a column definition. -/
def ColumnDefinition.render (d : Dialect) (c : ColumnDefinition) : String :=
  let numbering := if c.isGenerated then d.numbering else []
  let parts :=
    if d = .sqlite ∧ c.isGenerated then [d.quoteName c.name, "INTEGER"] ++ numbering
    else
      [d.quoteName c.name, c.type] ++ numbering
        ++ (if c.isRequired then ["NOT NULL"] else [])
        ++ (if c.isUnique then ["UNIQUE"] else [])
        ++ (c.default.map fun v => "DEFAULT " ++ v.render d).toList
        ++ (if c.isStamped then ["ON UPDATE CURRENT_TIMESTAMP"] else [])
        ++ (c.comment.map fun text => "COMMENT " ++ quoteText text).toList
  String.intercalate " " parts

/-! ## Tables -/

/-- The condition that a column holds one of a list of values. -/
structure ValueCheck where
  /-- The column. -/
  column : String
  /-- The values. -/
  values : List String
deriving DecidableEq, Repr

/-- A table as it is defined. -/
structure TableDefinition where
  /-- The name. -/
  name : String
  /-- The columns, in order. -/
  columns : List ColumnDefinition
  /-- The columns of the primary key, where it is not written with its only column. -/
  key : List String
  /-- The conditions on enumerations. -/
  checks : List ValueCheck
  /-- The constraints written with the table. -/
  foreignKeys : List ForeignKey
deriving DecidableEq, Repr

/-- Whether a dialect writes the values of an enumeration as a condition. -/
def Dialect.checksValues : Dialect → Bool
  | mysql => false
  | postgresql => false
  | sqlite => true
  | sqlserver => true

/-- The conditions on the enumerations of a table. -/
def valueChecks (d : Dialect) (t : Table) : List ValueCheck :=
  if d.checksValues then
    t.columns.filterMap fun c =>
      let type := DataType.ofString c.dataType
      if type.isEnumeration then some ⟨c.name, type.values⟩ else none
  else []

/-- The key columns that are named behind the columns of a table. -/
def keyNames (d : Dialect) (t : Table) : List String :=
  if d = .sqlite ∧ t.keyColumns.any t.isGeneratedKey then [] else t.keyColumns.map (·.name)

/-- The definition of a table, `deferred` being the references to later tables. -/
def TableDefinition.of (d : Dialect) (deferred : List (String × String)) (t : Table) :
    Except LengthError TableDefinition := do
  let columns ← t.columns.mapM (ColumnDefinition.of d t)
  return {
    name := t.name
    columns
    key := keyNames d t
    checks := valueChecks d t
    foreignKeys := (constraints t).filter (isInline d deferred) }

namespace TableDefinition

/-- The clause for the primary key. -/
def keyClause (d : Dialect) (t : TableDefinition) : List String :=
  if t.key.isEmpty then []
  else
    let clause := s!"PRIMARY KEY ({d.quoteNames t.key})"
    [if d = .mysql then clause
     else "CONSTRAINT " ++ d.quoteName ("pk_" ++ t.name) ++ " " ++ clause]

/-- The clause for a condition on values. -/
def checkClause (d : Dialect) (t : TableDefinition) (check : ValueCheck) : String :=
  "CONSTRAINT " ++ d.quoteName ("chk_" ++ t.name ++ "_" ++ check.column)
    ++ s!" CHECK ({d.quoteName check.column} IN ({quoteTexts check.values}))"

/-- What a dialect says about the storage of a table. -/
def options : Dialect → String
  | .mysql => " ENGINE=InnoDB DEFAULT CHARSET=utf8mb4 COLLATE=utf8mb4_unicode_ci"
  | _ => ""

/-- The statement that makes the table. -/
def render (d : Dialect) (t : TableDefinition) : String :=
  let clauses := t.columns.map (·.render d) ++ t.keyClause d ++ t.checks.map (t.checkClause d)
    ++ t.foreignKeys.map (·.clause d)
  s!"CREATE TABLE {d.quoteName t.name} (\n  " ++ String.intercalate ",\n  " clauses ++ "\n)"
    ++ options d ++ ";"

end TableDefinition

end Schemata.Sql
