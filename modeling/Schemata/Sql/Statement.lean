import Schemata.Sql.Definition
import Schemata.Sql.Seed
import Schemata.Sql.View

/-!
# Statements

A script is a list of statements. `Statement` says what each one does, and `Statement.render` writes
it in a dialect.
-/

namespace Schemata.Sql

/-- The key columns of a table by which a trigger finds the rows. -/
abbrev Key := List String

/-- A statement of a script. -/
inductive Statement where
  /-- Comment lines at the head of the script. -/
  | heading (lines : List String)
  /-- Starts a transaction. -/
  | startTransaction
  /-- Ends the transaction. -/
  | commit
  /-- Switches the checking of references on or off. -/
  | checkReferences (on : Bool)
  /-- Ends a batch. -/
  | endBatch
  /-- Drops a view that may be there. -/
  | dropView (name : String)
  /-- Drops a table that may be there. -/
  | dropTable (name : String)
  /-- Drops a type that may be there. -/
  | dropType (name : String)
  /-- Drops a procedure that may be there. -/
  | dropProcedure (name : String)
  /-- Makes the type of an enumeration. -/
  | createType (name : String) (values : List String)
  /-- Makes a table. -/
  | createTable (table : TableDefinition)
  /-- Adds a foreign key to a table. -/
  | addForeignKey (key : ForeignKey)
  /-- Makes an index on a column. -/
  | createIndex (table column : String)
  /-- Makes the view of a junction. -/
  | createView (view : JunctionView)
  /-- Makes the procedure that finds a row of a table by its key column, of a type. -/
  | createProcedure (table column type : String)
  /-- Makes the function by which triggers keep the moment of the last change. -/
  | createStampFunction
  /-- Makes the trigger that keeps the moment of the last change of the rows of a table. -/
  | createStampTrigger (table : String) (key : Key)
  /-- Puts rows into a table. -/
  | insertRows (seed : Seed)
deriving DecidableEq, Repr

/-- The name of the procedure that finds a row of a table. -/
def procedureName (table : String) : String :=
  "usp_get_" ++ table ++ "_by_id"

/-- The name of the function by which triggers keep the moment of the last change. -/
def stampFunctionName : String := "update_updated_at_column"

/-- The name of the trigger of a table that keeps the moment of the last change. -/
def stampTriggerName (table : String) : String :=
  "trg_" ++ table ++ "_updated_at"

/-- The name of the index on a column. -/
def indexName (table column : String) : String :=
  "idx_" ++ table ++ "_" ++ column

/-- The condition that two rows agree in a key. -/
def keyMatch (d : Dialect) (key : Key) (left right : String) : String :=
  String.intercalate " AND " (key.map fun column =>
    s!"{left}.{d.quoteName column} = {right}.{d.quoteName column}")

/-- Lines, one below the other. -/
def joinLines (lines : List String) : String :=
  String.intercalate "\n" lines

/-- The rest of a statement that drops something and, where needed, what depends on it. -/
def dropTail : Dialect → String
  | .postgresql => " CASCADE;"
  | _ => ";"

/-- The statement that makes a trigger. -/
def renderTrigger (d : Dialect) (table : String) (key : Key) : String :=
  let trigger := d.quoteName (stampTriggerName table)
  let quoted := d.quoteName table
  match d with
  | .sqlite => joinLines
    [s!"CREATE TRIGGER IF NOT EXISTS {trigger}", s!"AFTER UPDATE ON {quoted}",
     "FOR EACH ROW WHEN NEW.updated_at = OLD.updated_at", "BEGIN",
     s!"    UPDATE {quoted} SET updated_at = CURRENT_TIMESTAMP",
     "    WHERE " ++ keyMatch d key quoted "NEW" ++ ";", "END;"]
  | .sqlserver => joinLines
    [s!"CREATE TRIGGER {trigger}", s!"ON {quoted}", "AFTER UPDATE", "AS", "BEGIN",
     "    SET NOCOUNT ON;", "    UPDATE t SET updated_at = SYSDATETIME()",
     s!"    FROM {quoted} t",
     "    INNER JOIN inserted i ON " ++ keyMatch d key "t" "i" ++ ";", "END;"]
  | _ => joinLines
    [s!"CREATE TRIGGER {trigger}", s!"BEFORE UPDATE ON {quoted}",
     s!"FOR EACH ROW EXECUTE FUNCTION {stampFunctionName}();"]

namespace Statement

/-- The text of a statement. -/
def render (d : Dialect) : Statement → String
  | heading lines => joinLines lines
  | startTransaction => if d = .sqlite then "BEGIN TRANSACTION;" else "BEGIN;"
  | commit => "COMMIT;"
  | checkReferences on =>
    if d = .sqlite then "PRAGMA foreign_keys = " ++ (if on then "ON" else "OFF") ++ ";"
    else "SET FOREIGN_KEY_CHECKS = " ++ (if on then "1" else "0") ++ ";"
  | endBatch => "GO"
  | dropView name => "DROP VIEW IF EXISTS " ++ d.quoteName name ++ dropTail d
  | dropTable name => "DROP TABLE IF EXISTS " ++ d.quoteName name ++ dropTail d
  | dropType name => "DROP TYPE IF EXISTS " ++ d.quoteName name ++ dropTail d
  | dropProcedure name => "DROP PROCEDURE IF EXISTS " ++ d.quoteName name ++ dropTail d
  | createType name values => s!"CREATE TYPE {d.quoteName name} AS ENUM ({quoteTexts values});"
  | createTable table => table.render d
  | addForeignKey key => s!"ALTER TABLE {d.quoteName key.table} ADD {key.clause d};"
  | createIndex table column =>
    s!"CREATE INDEX {d.quoteName (indexName table column)} ON {d.quoteName table} "
      ++ s!"({d.quoteName column});"
  | createView view =>
    s!"CREATE OR REPLACE VIEW {d.quoteName (viewName view.junction)} AS\n{view.render d};"
  | createProcedure table column type => joinLines
    [s!"CREATE PROCEDURE {d.quoteName (procedureName table)}", s!"    @{column} {type}", "AS",
     "BEGIN", "    SET NOCOUNT ON;",
     s!"    SELECT * FROM {d.quoteName table} WHERE {d.quoteName column} = @{column};", "END;"]
  | createStampFunction => joinLines
    [s!"CREATE OR REPLACE FUNCTION {stampFunctionName}()", "RETURNS TRIGGER AS $$", "BEGIN",
     "    NEW.updated_at = CURRENT_TIMESTAMP;", "    RETURN NEW;", "END;",
     "$$ LANGUAGE plpgsql;"]
  | createStampTrigger table key => renderTrigger d table key
  | insertRows seed =>
    s!"INSERT INTO {d.quoteName seed.table} ({d.quoteNames seed.columns}) VALUES\n  "
      ++ String.intercalate ",\n  " (seed.rows.map fun row => s!"({quoteTexts row})") ++ ";"

/-- Whether a statement may be laid out anew. Comments, the bodies of procedures and what only
steers the run are left as they are written. -/
def isFormattable : Statement → Bool
  | heading _ => false
  | startTransaction => false
  | commit => false
  | checkReferences _ => false
  | endBatch => false
  | dropView _ => true
  | dropTable _ => true
  | dropType _ => false
  | dropProcedure _ => true
  | createType .. => false
  | createTable _ => true
  | addForeignKey _ => true
  | createIndex .. => true
  | createView _ => true
  | createProcedure .. => false
  | createStampFunction => false
  | createStampTrigger .. => false
  | insertRows _ => true

end Statement

end Schemata.Sql
