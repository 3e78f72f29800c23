import Schemata.Schema.Junction
import Schemata.Sql.Statement

/-!
# Scripts

`Script.of` writes the script that makes the tables of a schema: it drops what may be there, makes
the tables in the order of their references, adds the references that lead to later tables, and
then makes what rests on the tables. Many-to-many relationships are made into tables first, and the
schema has to be free of blocking issues.
-/

namespace Schemata.Sql

/-- Why there is no script. -/
inductive ScriptError where
  /-- The schema refers to what does not exist. -/
  | violation (v : Violation)
  /-- The length of a text column cannot be read. -/
  | length (fault : LengthError)
deriving DecidableEq, Repr

/-- The error in a line. -/
def ScriptError.message : ScriptError → String
  | .violation v => v.message
  | .length fault => fault.message

/-- What is told of an error. -/
def ScriptError.notices : ScriptError → List Notice
  | .violation v => v.notices
  | .length _ => []

/-- The statements of a script, and what is told about it. -/
structure Script where
  /-- The dialect. -/
  dialect : Dialect
  /-- The statements, in order. -/
  statements : List Statement
  /-- What is told. -/
  notices : List Notice

namespace Script

/-- The lines at the head of a script. -/
def headingLines (d : Dialect) (s : Schema) (now : Moment) : List String :=
  ["-- Schema: " ++ s.name, "-- Dialect: " ++ d.displayName]
    ++ (if s.description.isEmpty then [] else ["-- Description: " ++ s.description])
    ++ ["-- Generated at: " ++ now.header]

/-- The head of a script. -/
def heading (d : Dialect) (s : Schema) (now : Moment) : List Statement :=
  .heading (headingLines d s now) :: if d = .postgresql then [.startTransaction] else []

/-- The junctions among tables. -/
def junctions (tables : List Table) : List Table :=
  tables.filter (·.isJunctionTable)

/-- Whether a dialect has views of junctions. -/
def hasViews : Dialect → Bool
  | .mysql => true
  | .postgresql => true
  | .sqlite => false
  | .sqlserver => false

/-- The names and values of the enumerations that are types of their own. -/
def enumTypes (tables : List Table) : List (String × List String) :=
  tables.flatMap fun t => t.columns.filterMap fun c =>
    let type := DataType.ofString c.dataType
    if type.isEnumeration then some (enumTypeName t.name c.name, type.values) else none

/-- Whether a table gets a procedure that finds a row by its key. -/
def hasProcedure (t : Table) : Bool :=
  !t.isJunctionTable && t.keyColumns.length == 1

/-- The statements that drop what may be there. -/
def dropping (d : Dialect) (tables : List Table) : List Statement :=
  let views : List Statement :=
    if hasViews d then (junctions tables).map fun t => .dropView (viewName t.name) else []
  let dropTables : List Statement := (dropOrder tables).map fun t => .dropTable t.name
  match d with
  | .mysql => .checkReferences false :: (views ++ dropTables) ++ [.checkReferences true]
  | .postgresql =>
    views ++ dropTables ++ (enumTypes tables).map fun (name, _) => .dropType name
  | .sqlite =>
    .checkReferences false :: (views ++ dropTables) ++ [.checkReferences true, .startTransaction]
  | .sqlserver =>
    ((tables.filter hasProcedure).map fun t => .dropProcedure (procedureName t.name))
      ++ dropTables

/-- The statements that make the types of enumerations. -/
def types (d : Dialect) (tables : List Table) : List Statement :=
  if d = .postgresql then (enumTypes tables).map fun (name, values) => .createType name values
  else []

/-- The statements that add the references to later tables. -/
def addedKeys (d : Dialect) (deferred : List (String × String)) (tables : List Table) :
    List Statement :=
  tables.flatMap fun t =>
    ((constraints t).filter fun key => !isInline d deferred key).map .addForeignKey

/-- The statements that make the indexes of a table: one for each foreign key that does not lead the
primary key. -/
def indexes (t : Table) : List Statement :=
  let leading := (t.keyColumns.map (·.name)).head?
  (t.foreignKeys.filter fun (c, _) => some c.name ≠ leading).map fun (c, _) =>
    .createIndex t.name c.name

/-- The statements that make the views. -/
def views (d : Dialect) (tables : List Table) : List Statement :=
  if hasViews d then ((junctions tables).filterMap (JunctionView.of? tables)).map .createView
  else []

/-- The statements of a group of batches, each in a batch of its own. -/
def batches (statements : List Statement) : List Statement :=
  if statements.isEmpty then []
  else statements.flatMap (fun statement => [.endBatch, statement]) ++ [.endBatch]

/-- The statement that makes the procedure of a table. -/
def procedure? (d : Dialect) (t : Table) : Except LengthError (Option Statement) :=
  if hasProcedure t then
    match t.keyColumns with
    | [] => .ok none
    | key :: _ => (d.columnType t key).map fun type => some (.createProcedure t.name key.name type)
  else .ok none

/-- The statements that make the procedures. -/
def procedures (d : Dialect) (tables : List Table) : Except LengthError (List Statement) :=
  if d = .sqlserver then do
    let statements ← tables.mapM (procedure? d)
    return batches statements.reduceOption
  else .ok []

/-- The tables that keep the moment of the last change of a row. -/
def stamped (tables : List Table) : List Table :=
  tables.filter (·.hasColumn "updated_at")

/-- The statement that makes the trigger of a table. -/
def stampTrigger (t : Table) : Statement :=
  .createStampTrigger t.name (t.keyColumns.map (·.name))

/-- The statements that make the triggers. -/
def triggers (d : Dialect) (tables : List Table) : List Statement :=
  let keyed := (stamped tables).filter fun t => !t.keyColumns.isEmpty
  match d with
  | .mysql => []
  | .postgresql =>
    if (stamped tables).isEmpty then []
    else .createStampFunction :: (stamped tables).map stampTrigger
  | .sqlite => keyed.map stampTrigger
  | .sqlserver => batches (keyed.map stampTrigger)

/-- The rows for the lookup tables, and what is told about them. -/
def seeds (tables : List Table) : List (Option Seed × List Notice) :=
  (tables.filter (·.isLookupTable)).map Seed.of

/-- The end of a script. -/
def ending (d : Dialect) : List Statement :=
  if d = .postgresql ∨ d = .sqlite then [.commit] else []

/-- The script for tables, in an order of creation. -/
def ofTables (d : Dialect) (head : List Statement) (order : CreationOrder) :
    Except LengthError Script := do
  let tables := order.tables
  let definitions ← tables.mapM (TableDefinition.of d order.deferred)
  let procedures ← procedures d tables
  let seeds := seeds tables
  return {
    dialect := d
    statements := head ++ dropping d tables ++ types d tables ++ definitions.map .createTable
      ++ addedKeys d order.deferred tables ++ tables.flatMap indexes ++ views d tables
      ++ procedures ++ triggers d tables
      ++ (seeds.map (·.1)).reduceOption.map .insertRows ++ ending d
    notices := seeds.flatMap (·.2) }

/-- The script for a schema, written at the moment `now`. -/
def of (d : Dialect) (now : Moment) (s : Schema) : Except ScriptError Script := do
  let expanded ← s.expandManyToMany.mapError .violation
  expanded.check.mapError .violation
  (ofTables d (heading d s now) (.of expanded.tables)).mapError .length

end Script

end Schemata.Sql
