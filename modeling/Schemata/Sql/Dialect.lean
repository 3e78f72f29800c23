import Schemata.Notice
import Schemata.Text.Blank
import Schemata.Text.Case

/-!
# Dialects of SQL

The four dialects in which scripts are written. `Dialect.ofName?` knows their names and the usual
other names for them; `Dialect.resolve` falls back to MySQL, with a warning.
-/

namespace Schemata.Sql

/-- A dialect. -/
inductive Dialect where
  /-- MySQL. -/
  | mysql
  /-- PostgreSQL. -/
  | postgresql
  /-- SQLite. -/
  | sqlite
  /-- SQL Server. -/
  | sqlserver
deriving DecidableEq, Repr

namespace Dialect

/-- All dialects. -/
def all : List Dialect := [mysql, postgresql, sqlite, sqlserver]

/-- The short name of a dialect. -/
def name : Dialect → String
  | mysql => "mysql"
  | postgresql => "postgresql"
  | sqlite => "sqlite"
  | sqlserver => "sqlserver"

/-- The name of a dialect as its makers spell it. -/
def displayName : Dialect → String
  | mysql => "MySQL"
  | postgresql => "PostgreSQL"
  | sqlite => "SQLite"
  | sqlserver => "SQL Server"

/-- The names of the dialects, short ones and others. -/
def names : List (String × Dialect) :=
  [("postgres", postgresql), ("pg", postgresql), ("mssql", sqlserver), ("tsql", sqlserver),
   ("sql_server", sqlserver)] ++ all.map fun d => (d.name, d)

/-- The dialect of a name, letter case disregarded; a blank may stand for an underscore. -/
def ofName? (name : String) : Option Dialect :=
  let lowered := Text.lower (Text.strip name.toList)
  names.lookup (String.ofList (lowered.map fun c => if c = ' ' then '_' else c))

/-- The dialect taken where none is known. -/
def default : Dialect := mysql

/-- The dialect of a name, and what is told if there is none of the name. -/
def resolve (name : String) : Dialect × List Notice :=
  match ofName? name with
  | some d => (d, [])
  | none =>
    (default, [.warning s!"Unsupported dialect '{name}', falling back to {default.name}"])

/-- Whether foreign keys can be written with the table that holds them. -/
def hasInlineKeys : Dialect → Bool
  | sqlserver => false
  | _ => true

/-- Whether foreign keys can be added to a table that exists. -/
def hasAddedKeys : Dialect → Bool
  | sqlite => false
  | _ => true

end Dialect

end Schemata.Sql
