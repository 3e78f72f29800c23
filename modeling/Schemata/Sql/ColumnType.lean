import Schemata.DataType
import Schemata.Schema.Basic
import Schemata.Sql.Dialect
import Schemata.Text.Digit

/-!
# Column types in a script

`Dialect.columnType` gives the type of a column in a dialect. Types that a dialect does not know
become the nearest one it knows; all others are taken as they are.

A single integer key column that is no reference is a *generated* key: the database numbers the
rows.
-/

namespace Schemata

/-- Whether the column is a key whose values the database generates. -/
def Table.isGeneratedKey (t : Table) (c : Column) : Bool :=
  match t.keyColumns with
  | [key] =>
    key.name == c.name && !c.isForeignKey && (DataType.ofString c.dataType).isInteger
  | _ => false

namespace Sql

/-- Why figures are no length of a column. -/
inductive LengthError where
  /-- The figures, as they were given, do not spell a number. -/
  | unreadable (text : String)
  /-- There are too many figures. -/
  | overlong (count : Nat)
deriving DecidableEq, Repr

/-- The error in a line. A text is quoted in two hundred characters at most. -/
def LengthError.message : LengthError → String
  | unreadable text =>
    "invalid literal for int() with base 10: "
      ++ String.ofList (("'" ++ text ++ "'").toList.take 200)
  | overlong count =>
    s!"Exceeds the limit ({Text.longestNumeral} digits) for integer string conversion: value has "
      ++ s!"{count} digits; use sys.set_int_max_str_digits() to increase the limit"

/-- The type for a base name and arguments. -/
def withArguments (base : String) (arguments : Option String) : String :=
  match arguments with
  | some text => base ++ "(" ++ text ++ ")"
  | none => base

/-- The name of the type for the values of an enumeration column. -/
def enumTypeName (table column : String) : String :=
  table ++ "_" ++ column ++ "_enum"

/-- The base types of MySQL by their names elsewhere. -/
def mysqlTypes : List (String × String) :=
  [("INTEGER", "INT"), ("INT", "INT"), ("SERIAL", "INT"), ("BIGSERIAL", "BIGINT"),
   ("BOOL", "BOOLEAN"), ("DOUBLE PRECISION", "DOUBLE"), ("REAL", "DOUBLE"), ("UUID", "CHAR(36)"),
   ("BYTEA", "BLOB"), ("BINARY", "BLOB"), ("NUMERIC", "DECIMAL"), ("STRING", "VARCHAR")]

/-- The type of a column in MySQL. -/
def mysqlType (type : DataType) : String :=
  let base := (mysqlTypes.lookup type.base).getD type.base
  if base.toList.contains '(' then base
  else if base = "VARCHAR" then withArguments base (type.arguments?.or (some "255"))
  else withArguments base type.arguments?

/-- The base types of PostgreSQL by their names elsewhere. -/
def postgresqlTypes : List (String × String) :=
  [("INT", "INTEGER"), ("TINYINT", "SMALLINT"), ("MEDIUMINT", "INTEGER"),
   ("DATETIME", "TIMESTAMP"), ("DOUBLE", "DOUBLE PRECISION"), ("FLOAT", "REAL"),
   ("BOOL", "BOOLEAN"), ("BLOB", "BYTEA"), ("BINARY", "BYTEA"), ("JSON", "JSONB"),
   ("STRING", "VARCHAR"), ("LONGTEXT", "TEXT"), ("MEDIUMTEXT", "TEXT")]

/-- The base types of PostgreSQL that take no arguments. -/
def postgresqlSimpleTypes : List String :=
  ["INTEGER", "SMALLINT", "BIGINT", "TEXT", "BYTEA", "JSONB", "BOOLEAN", "REAL",
   "DOUBLE PRECISION"]

/-- The type of a column in PostgreSQL. -/
def postgresqlType (t : Table) (c : Column) (type : DataType) : String :=
  if type.isEnumeration then enumTypeName t.name c.name
  else if t.isGeneratedKey c then
    if type.base = "BIGINT" ∨ type.base = "BIGSERIAL" then "BIGSERIAL" else "SERIAL"
  else
    let base := (postgresqlTypes.lookup type.base).getD type.base
    if base ∈ postgresqlSimpleTypes then base else withArguments base type.arguments?

/-- The storage classes of SQLite for the types that are not kept as text. -/
def sqliteClasses : List (String × String) :=
  [("INTEGER", "INTEGER"), ("INT", "INTEGER"), ("BIGINT", "INTEGER"), ("SMALLINT", "INTEGER"),
   ("TINYINT", "INTEGER"), ("MEDIUMINT", "INTEGER"), ("SERIAL", "INTEGER"),
   ("BIGSERIAL", "INTEGER"), ("BOOLEAN", "INTEGER"), ("BOOL", "INTEGER"), ("FLOAT", "REAL"),
   ("DOUBLE", "REAL"), ("DOUBLE PRECISION", "REAL"), ("REAL", "REAL"), ("DECIMAL", "NUMERIC"),
   ("NUMERIC", "NUMERIC"), ("BLOB", "BLOB"), ("BYTEA", "BLOB"), ("BINARY", "BLOB"),
   ("VARBINARY", "BLOB")]

/-- The type of a column in SQLite. -/
def sqliteType (type : DataType) : String :=
  (sqliteClasses.lookup type.base).getD "TEXT"

/-- The base types of SQL Server by their names elsewhere. -/
def sqlserverTypes : List (String × String) :=
  [("INTEGER", "INT"), ("SERIAL", "INT"), ("BIGSERIAL", "BIGINT"), ("MEDIUMINT", "INT"),
   ("BOOLEAN", "BIT"), ("BOOL", "BIT"), ("TEXT", "NVARCHAR(MAX)"), ("LONGTEXT", "NVARCHAR(MAX)"),
   ("MEDIUMTEXT", "NVARCHAR(MAX)"), ("JSON", "NVARCHAR(MAX)"), ("JSONB", "NVARCHAR(MAX)"),
   ("ENUM", "NVARCHAR(255)"), ("TIMESTAMP", "DATETIME2"), ("DATETIME", "DATETIME2"),
   ("DOUBLE", "FLOAT"), ("DOUBLE PRECISION", "FLOAT"), ("UUID", "UNIQUEIDENTIFIER"),
   ("BLOB", "VARBINARY(MAX)"), ("BYTEA", "VARBINARY(MAX)"), ("BINARY", "VARBINARY(MAX)"),
   ("STRING", "NVARCHAR")]

/-- The greatest length of a text column that is written as a number. -/
def sqlserverLengthLimit : Nat := 4000

/-- The length of a text column in SQL Server. -/
def sqlserverLength (arguments : Option String) : Except LengthError String :=
  match arguments with
  | none => .ok "255"
  | some text =>
    if text.toList.all Text.isDigit then
      match Text.readDecimal? text.toList with
      | some n =>
        if text.length > Text.longestNumeral then .error (.overlong text.length)
        else .ok (if n > sqlserverLengthLimit then "MAX" else text)
      | none => .error (.unreadable text)
    else .ok text

/-- The type of a column in SQL Server. -/
def sqlserverType (type : DataType) : Except LengthError String :=
  if type.base = "CHAR" then
    (sqlserverLength type.arguments?).map fun length => withArguments "NCHAR" (some length)
  else if ["VARCHAR", "NVARCHAR", "STRING"].contains type.base then
    (sqlserverLength type.arguments?).map fun length => withArguments "NVARCHAR" (some length)
  else
    let base := (sqlserverTypes.lookup type.base).getD type.base
    if base.toList.contains '(' then .ok base else .ok (withArguments base type.arguments?)

/-- The type of a column in a dialect. -/
def Dialect.columnType (d : Dialect) (t : Table) (c : Column) : Except LengthError String :=
  let type := DataType.ofString c.dataType
  match d with
  | mysql => .ok (mysqlType type)
  | postgresql => .ok (postgresqlType t c type)
  | sqlite => .ok (sqliteType type)
  | sqlserver => sqlserverType type

end Sql

end Schemata
